import DocumentStore.Join.Basic

/-!
# Queries

A query selects records by a filter and names the joins that are resolved on each of them.
-/

namespace DocumentStore

/-- A filter, and the joins for the records that it admits. -/
structure Query where
  filter : Filter
  joins : Joins

namespace Query

/-- The query for every record as it is. -/
def all : Query := ⟨Filter.empty, []⟩

/-- The query for the records that a filter admits, as they are. -/
def ofFilter (filter : Filter) : Query := ⟨filter, []⟩

/-- The same joins under another filter. -/
def withFilter (query : Query) (filter : Filter) : Query := { query with filter := filter }

/-- The same query with one more join, or with another join for its attribute. -/
def withJoin (query : Query) (attr : String) (join : Join) : Query :=
  { query with joins := query.joins.insert attr join }

/-- The same filter with other joins. -/
def withJoins (query : Query) (joins : Joins) : Query := { query with joins := joins }

end Query

end DocumentStore
