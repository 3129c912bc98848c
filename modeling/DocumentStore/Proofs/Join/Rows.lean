import DocumentStore.Proofs.Database.Reachable
import DocumentStore.Proofs.Filter.Conditions

/-!
# The rows that a join attaches

A join asks for the rows that meet its pairs. It asks through a filter, and a filter holds one
condition for each field, so of several pairs with one target field only the last is asked for.

* `admits_filterFor`: a row is attached when it meets the last pair of each target field;
* `resolve_join` says what resolving one join does, and for which joins this is the nested loop over
  all pairs: those that never ask a target field to equal two different source fields;
* `resolve_join_repeated_target` is a join for which it is not.
-/

namespace DocumentStore

namespace Join

/-- Whether a row meets a pair: it has the target field, and the value there, or one of its items,
loosely equals the source field, for which null stands where the source lacks it. -/
def met (source row : Document) (pair : String × String) : Bool :=
  (row.get? pair.1).any fun value =>
    value.parts.any fun part => part.agrees ((source.get? pair.2).getD .null)

/-- The filter of a join admits the rows that meet the last pair of each target field. -/
theorem admits_filterFor (join : Join) (source row : Document) :
    (join.filterFor source).admits row = (Fields.lastPairs join.pairs).all (met source row) := by
  have hconditions : (join.filterFor source).conditions =
      (Fields.ofPairs join.pairs).map fun pair =>
        (pair.1, (source.get? pair.2).getD .null) :=
    Fields.ofPairs_map (fun field => (source.get? field).getD .null) join.pairs
  have hmet (pair : String × String) :
      Filter.condition pair.1 ((source.get? pair.2).getD .null) row = met source row pair :=
    Filter.condition_eq_any _ _ _
  unfold Filter.admits
  rw [hconditions, List.all_map, Bool.eq_iff_iff, List.all_eq_true, List.all_eq_true]
  constructor
  · intro h pair hpair
    rw [← hmet]
    exact h pair (Fields.mem_ofPairs_iff.2 hpair)
  · intro h pair hpair
    show Filter.condition pair.1 ((source.get? pair.2).getD .null) row = true
    rw [hmet]
    exact h pair (Fields.mem_ofPairs_iff.1 hpair)

end Join

namespace Database

/-- The rows of a join that pass a test, in the order of their collection and with the nested joins
resolved on each of them. -/
def attached (db : Database) (join : Join) (test : Document → Bool) : List Document :=
  ((db.records join.collection).filter test).map (db.resolve join.joins)

theorem rows_eq_attached (db : Database) (join : Join) (source : Document) :
    db.rows join source =
      db.attached join fun row => (Fields.lastPairs join.pairs).all (Join.met source row) := by
  obtain ⟨collection, pairs, joins⟩ := join
  rw [rows, attached, select]
  congr 2
  exact funext fun row => Join.admits_filterFor ⟨collection, pairs, joins⟩ source row

theorem resolve_one (db : Database) (attr : String) (join : Join) (source : Document) :
    db.resolve [(attr, join)] source =
      source.insert attr (.array ((db.rows join source).map .document)) := by
  rw [resolve, resolve]

/-- Of two tests, one of which implies the other, both attach the same rows when they agree. -/
theorem attached_eq_iff {db : Database} {join : Join} {strict loose : Document → Bool}
    (himp : ∀ row, strict row = true → loose row = true) :
    db.attached join loose = db.attached join strict ↔
      ∀ row ∈ db.records join.collection, loose row = true → strict row = true := by
  have hboth : ((db.records join.collection).filter loose).filter strict =
      (db.records join.collection).filter strict := by
    rw [List.filter_filter]
    refine List.filter_congr fun row _ => ?_
    have := himp row
    cases hs : strict row <;> simp_all
  constructor
  · intro h row hr hloose
    have hlength := congrArg List.length h
    rw [attached, attached, List.length_map, List.length_map, ← hboth] at hlength
    exact List.length_filter_eq_length_iff.1 hlength.symm row (List.mem_filter.2 ⟨hr, hloose⟩)
  · intro h
    have hsame : (db.records join.collection).filter loose =
        (db.records join.collection).filter strict := by
      refine List.filter_congr fun row hr => ?_
      rw [Bool.eq_iff_iff]
      exact ⟨h row hr, himp row⟩
    rw [attached, attached, hsame]

end Database

namespace Join

/-! ## Pairs that are not asked for -/

/-- A source that has a value in every source field of some pairs. -/
def sourceWith (value : String → Value) (pairs : List (String × String)) : Document :=
  pairs.map fun pair => (pair.2, value pair.2)

theorem get?_sourceWith (value : String → Value) {pairs : List (String × String)}
    {pair : String × String} (h : pair ∈ pairs) :
    (sourceWith value pairs).get? pair.2 = some (value pair.2) := by
  induction pairs with
  | nil => cases h
  | cons first rest ih =>
    rw [sourceWith, List.map_cons, Fields.get?_cons]
    split
    · next heq => rw [show first.2 = pair.2 from heq]
    · next hne =>
      rcases List.mem_cons.1 h with rfl | hrest
      · exact absurd rfl hne
      · exact ih hrest

/-- A value for every source field that tells the field `field` from the others. An identifier
cannot be chosen, so where the identifier is asked to equal `field`, that field gets an identifier
and the others get null, and elsewhere it is the other way round. -/
def telling (pairs : List (String × String)) (field other : String) : Value :=
  if other = field ↔ (idField, field) ∈ Fields.lastPairs pairs then idValue 1 else .null

theorem telling_agrees_self (pairs : List (String × String)) (field other : String) :
    ((telling pairs field other).parts.any fun part =>
      part.agrees (telling pairs field other)) = true := by
  unfold telling
  split <;> rfl

theorem telling_disagrees (pairs : List (String × String)) {field other : String}
    (hne : other ≠ field) :
    ((telling pairs field other).parts.any fun part =>
      part.agrees (telling pairs field field)) = false := by
  unfold telling
  -- one of the two values is an identifier and the other is null
  by_cases hid : (idField, field) ∈ Fields.lastPairs pairs
  · rw [if_neg (by simp [hne, hid]), if_pos (by simp [hid])]
    rfl
  · rw [if_pos (by simp [hne, hid]), if_neg (by simp [hid])]
    rfl

/-- A pair that is not the last of its target field may go unmet: some first record of a collection
meets all pairs that are asked for, and not this one. -/
theorem exists_unmet {pairs : List (String × String)} {pair : String × String}
    (hmem : pair ∈ pairs) (hlast : pair ∉ Fields.lastPairs pairs) : ∃ source fields,
    (∀ last ∈ Fields.lastPairs pairs, met source (Collection.stored 1 fields) last = true) ∧
      met source (Collection.stored 1 fields) pair = false := by
  let value := telling pairs pair.2
  let fields : Document := (Fields.ofPairs pairs).map fun last => (last.1, value last.2)
  have hrow : ∀ last ∈ Fields.lastPairs pairs,
      (Collection.stored 1 fields).get? last.1 = some (value last.2) := by
    rintro ⟨target, field⟩ hmem
    rw [Collection.get?_stored]
    split
    · next hid =>
      -- the record has no choice here, but the value is the identifier that it gets
      have hfield : field = pair.2 ↔ (idField, pair.2) ∈ Fields.lastPairs pairs := by
        subst hid
        exact ⟨fun h => h ▸ hmem, fun h => Fields.eq_of_mem_lastPairs hmem h⟩
      exact (congrArg some (if_pos hfield)).symm
    · have hget := (Fields.mem_iff_get?_eq_some (Fields.nodup_names_ofPairs pairs)).1
        (Fields.mem_ofPairs_iff.2 hmem)
      rw [Fields.get?_map, hget, Option.map_some]
  refine ⟨sourceWith value pairs, fields, fun last hmem => ?_, ?_⟩
  · rw [met, hrow last hmem, get?_sourceWith value (Fields.mem_of_mem_lastPairs hmem)]
    exact telling_agrees_self pairs pair.2 last.2
  · obtain ⟨field, hfield⟩ := Fields.exists_mem_lastPairs (Fields.mem_names_of_mem hmem)
    have hne : field ≠ pair.2 := by
      rintro rfl
      exact hlast hfield
    rw [met, hrow _ hfield, get?_sourceWith value hmem]
    exact telling_disagrees pairs hne

end Join

/-! ## The nested loop -/

namespace Database

/-- The rows of the target collection that meet every pair of a join. -/
def nestedLoop (db : Database) (join : Join) (source : Document) : List Document :=
  db.attached join fun row => join.pairs.all (Join.met source row)

theorem rows_eq_nestedLoop_iff (db : Database) (join : Join) (source : Document) :
    db.rows join source = db.nestedLoop join source ↔ ∀ row ∈ db.records join.collection,
      (∀ pair ∈ Fields.lastPairs join.pairs, Join.met source row pair = true) →
        ∀ pair ∈ join.pairs, Join.met source row pair = true := by
  rw [rows_eq_attached, nestedLoop, attached_eq_iff]
  · simp only [List.all_eq_true]
  · intro row hall
    rw [List.all_eq_true] at hall ⊢
    exact fun pair hpair => hall pair (Fields.mem_of_mem_lastPairs hpair)

/-- A join does the nested loop in every database and for every source exactly when it never asks
a target field to equal two different source fields. -/
theorem rows_eq_nestedLoop_forall_iff (join : Join) :
    (∀ db : Database, db.Reachable → ∀ source, db.rows join source = db.nestedLoop join source) ↔
      ∀ first ∈ join.pairs, ∀ second ∈ join.pairs, first.1 = second.1 → first.2 = second.2 := by
  constructor
  · intro h
    -- a pair that is not the last of its target field goes unmet by some first record
    have hlast : ∀ pair ∈ join.pairs, pair ∈ Fields.lastPairs join.pairs := by
      intro pair hmem
      refine Decidable.byContradiction fun hlast => ?_
      obtain ⟨source, fields, hmet, hunmet⟩ := Join.exists_unmet hmem hlast
      have hrows := h _ (.run (.create join.collection fields) .empty) source
      rw [rows_eq_nestedLoop_iff, records_create_empty] at hrows
      rw [hrows _ List.mem_cons_self hmet pair hmem] at hunmet
      cases hunmet
    intro first hfirst second hsecond htarget
    exact Fields.eq_of_mem_lastPairs (hlast first hfirst) (htarget ▸ hlast second hsecond)
  · intro h db _ source
    refine (rows_eq_nestedLoop_iff db join source).2 fun row _ hmet pair hmem => ?_
    obtain ⟨field, hfield⟩ := Fields.exists_mem_lastPairs (Fields.mem_names_of_mem hmem)
    obtain rfl : field = pair.2 := h _ (Fields.mem_of_mem_lastPairs hfield) pair hmem rfl
    exact hmet pair hfield

/-- What resolving one join does. The attribute is set to the rows that meet the last pair of each
target field. These are the rows that meet every pair exactly when no row of the collection meets
the former and not the latter, and this is so in every database and for every source exactly for the
joins that never ask a target field to equal two different source fields. -/
theorem resolve_join (join : Join) :
    (∀ (db : Database) (source : Document) (attr : String),
      db.resolve [(attr, join)] source = source.insert attr (.array ((db.attached join fun row =>
        (Fields.lastPairs join.pairs).all (Join.met source row)).map .document))) ∧
    (∀ (db : Database) (source : Document) (attr : String),
      db.resolve [(attr, join)] source =
          source.insert attr (.array ((db.nestedLoop join source).map .document)) ↔
        ∀ row ∈ db.records join.collection,
          (∀ pair ∈ Fields.lastPairs join.pairs, Join.met source row pair = true) →
            ∀ pair ∈ join.pairs, Join.met source row pair = true) ∧
    ((∀ db : Database, db.Reachable → ∀ (source : Document) (attr : String),
      db.resolve [(attr, join)] source =
        source.insert attr (.array ((db.nestedLoop join source).map .document))) ↔
      ∀ first ∈ join.pairs, ∀ second ∈ join.pairs, first.1 = second.1 → first.2 = second.2) := by
  have hset (db : Database) (source : Document) (attr : String) :
      db.resolve [(attr, join)] source =
          source.insert attr (.array ((db.nestedLoop join source).map .document)) ↔
        db.rows join source = db.nestedLoop join source := by
    rw [resolve_one, Fields.insert_right_inj, Value.array.injEq]
    exact (List.map_inj_right fun _ _ => Value.document.inj)
  refine ⟨fun db source attr => ?_, fun db source attr => ?_, ?_⟩
  · rw [resolve_one, rows_eq_attached]
  · rw [hset, rows_eq_nestedLoop_iff]
  · simp only [hset, ← rows_eq_nestedLoop_forall_iff, forall_const]

/-- A join that asks one target field to equal two source fields attaches a row that equals only
the second of them. -/
theorem resolve_join_repeated_target : ∃ (db : Database) (join : Join) (source : Document),
    db = ((Command.create "B" [("x", .int32 1)]).run empty).2 ∧ db.Reachable ∧
      join = ((Join.ofCollection "B").pair "x" "p").pair "x" "q" ∧
      source = [("id", .int64 1), ("p", .int32 2), ("q", .int32 1)] ∧
      db.nestedLoop join source = [] ∧
      db.resolve [("rows", join)] source =
        source.insert "rows" (.array [.document [("id", .int64 1), ("x", .int32 1)]]) ∧
      db.resolve [("rows", join)] source ≠
        source.insert "rows" (.array ((db.nestedLoop join source).map .document)) := by
  refine ⟨_, _, _, rfl, .run _ .empty, rfl, rfl, rfl, rfl, fun h => ?_⟩
  have hlength := congrArg List.length (Value.array.inj (Fields.insert_right_inj.1 h))
  cases hlength

end Database

end DocumentStore
