import DocumentStore.Dataset.Basic

/-!
# Datasets in parts

A dataset may be put together from parts: texts, JSON values, lists of records and groups of
further parts. The parts of a group are merged from left to right, and a group is at fault when one
of its parts is, by the first of them.
-/

namespace DocumentStore.Dataset

/-- A part of a dataset. -/
inductive Part where
  /-- A JSON text. -/
  | text (source : String)
  /-- A JSON value. -/
  | json (value : Json)
  /-- The records of one collection. -/
  | records (name : String) (listed : List Document)
  /-- Parts that are merged first. -/
  | group (parts : List Part)

namespace Part

mutual

/-- The dataset that a part describes. -/
def read : Part → Except Fault Dataset
  | text source => ofText source
  | json value => ofJson value
  | records name listed => .ok (Dataset.empty.add name listed)
  | group parts => readAll Dataset.empty parts

/-- Merges parts into a dataset, from left to right. -/
def readAll (data : Dataset) : List Part → Except Fault Dataset
  | [] => .ok data
  | part :: rest => do readAll (data.merge (← read part)) rest

end

end Part

end DocumentStore.Dataset
