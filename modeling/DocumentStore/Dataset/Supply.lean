import DocumentStore.Dataset.Basic

/-!
# Supplying a new database

A supply gathers what a new database will hold. Datasets are merged as they come. JSON values are
kept as they are and read when the database is built, after all datasets and in the order in which
they came.
-/

namespace DocumentStore

/-- What a new database will hold. -/
structure Supply where
  /-- The datasets supplied so far, merged. -/
  data : Dataset
  /-- The JSON values supplied so far, in order. -/
  values : List Json

namespace Supply

/-- The supply of nothing. -/
def empty : Supply := ⟨Dataset.empty, []⟩

/-- Supplies a dataset. -/
def addData (supply : Supply) (data : Dataset) : Supply :=
  { supply with data := supply.data.merge data }

/-- Supplies a JSON value. -/
def addJson (supply : Supply) (json : Json) : Supply :=
  { supply with values := supply.values ++ [json] }

/-- Merges the datasets that JSON values describe, in order. -/
def readValues (data : Dataset) : List Json → Except Fault Dataset
  | [] => .ok data
  | json :: rest => do readValues (data.merge (← Dataset.ofJson json)) rest

/-- The database that holds what was supplied. All values are read before a collection is made. -/
def build (supply : Supply) : Except Fault Database := do
  (← readValues supply.data supply.values).load

end Supply

end DocumentStore
