import DocumentStore.Proofs.Join.Expansion

/-!
# Joins that do not read one another

Joins are resolved one after the other on a record that grows, so a join may read what an earlier one has
filled. Joins are independent when none of them does.

* `rows_congr`: of a source record a join reads its source fields, and nothing else;
* `resolve_eq_merge`: independent joins may all read the original record first and fill their
  attributes afterwards;
* `resolve_independent`: they may be resolved in any order.
-/

namespace DocumentStore

/-- No attribute is given twice, and none of them is a source field of another join. A join may read the
field that it fills itself. -/
structure Joins.Independent (joins : Joins) : Prop where
  nodup_names : joins.names.Nodup
  unread : ∀ entry ∈ joins, ∀ other ∈ joins, entry.1 ≠ other.1 →
    ∀ pair ∈ other.2.pairs, pair.2 ≠ entry.1

theorem Joins.Independent.tail {entry : String × Join} {rest : Joins}
    (h : Joins.Independent (entry :: rest)) : Joins.Independent rest where
  nodup_names := (List.nodup_cons.1 h.nodup_names).2
  unread := fun first hfirst second hsecond =>
    h.unread first (List.mem_cons_of_mem _ hfirst) second (List.mem_cons_of_mem _ hsecond)

/-- The first of independent joins fills a field that no later join reads. -/
theorem Joins.Independent.head_unread {entry other : String × Join} {rest : Joins}
    (h : Joins.Independent (entry :: rest)) (hother : other ∈ rest) :
    ∀ pair ∈ other.2.pairs, pair.2 ≠ entry.1 := by
  have hne : entry.1 ≠ other.1 := fun heq =>
    (List.nodup_cons.1 h.nodup_names).1 (heq ▸ List.mem_map_of_mem hother)
  exact h.unread entry List.mem_cons_self other (List.mem_cons_of_mem _ hother) hne

theorem Joins.Independent.perm {joins reordered : Joins} (h : Joins.Independent joins)
    (hperm : joins.Perm reordered) : Joins.Independent reordered where
  nodup_names := (hperm.map Prod.fst).nodup h.nodup_names
  unread := fun first hfirst second hsecond =>
    h.unread first (hperm.mem_iff.2 hfirst) second (hperm.mem_iff.2 hsecond)

/-- The filter of a join depends on the source fields of its pairs only. -/
theorem Join.filterFor_congr {join : Join} {source other : Document}
    (h : ∀ pair ∈ join.pairs, source.get? pair.2 = other.get? pair.2) :
    join.filterFor source = join.filterFor other := by
  unfold filterFor
  congr 1
  refine List.map_congr_left fun pair hpair => ?_
  exact congrArg (fun value => (pair.1, value.getD .null)) (h pair hpair)

namespace Database

variable {joins reordered : Joins}

/-- The rows of a join are a search in its collection by the filter for the source. -/
theorem rows_eq_find (db : Database) (join : Join) (source : Document) :
    db.rows join source = db.find join.collection ⟨join.filterFor source, join.joins⟩ := by
  obtain ⟨collection, pairs, joins⟩ := join
  rw [rows]
  rfl

theorem rows_congr (db : Database) {join : Join} {source other : Document}
    (h : ∀ pair ∈ join.pairs, source.get? pair.2 = other.get? pair.2) :
    db.rows join source = db.rows join other := by
  rw [rows_eq_find, rows_eq_find, Join.filterFor_congr h]

/-- The attribute that a join fills, with the rows that belong to a record. -/
def filled (db : Database) (record : Document) (entry : String × Join) : String × Value :=
  (entry.1, .array ((db.rows entry.2 record).map .document))

theorem filled_congr (db : Database) {entry : String × Join} {source other : Document}
    (h : ∀ pair ∈ entry.2.pairs, source.get? pair.2 = other.get? pair.2) :
    db.filled source entry = db.filled other entry := by
  rw [filled, filled, rows_congr db h]

theorem names_map_filled (db : Database) (record : Document) (joins : Joins) :
    Fields.names (joins.map (db.filled record)) = joins.names := by
  unfold Fields.names
  rw [List.map_map]
  rfl

/-- Independent joins may all be evaluated on the original record. -/
theorem resolve_eq_merge (db : Database) (h : Joins.Independent joins) (record : Document) :
    db.resolve joins record = record.merge (joins.map (db.filled record)) := by
  induction joins generalizing record with
  | nil => rw [resolve]; rfl
  | cons entry rest ih =>
    obtain ⟨attr, join⟩ := entry
    have hrest (value : Value) :
        rest.map (db.filled (record.insert attr value)) = rest.map (db.filled record) := by
      refine List.map_congr_left fun other hother => filled_congr db fun pair hpair => ?_
      rw [Fields.get?_insert, if_neg (Ne.symm (h.head_unread hother pair hpair))]
    rw [resolve, ih h.tail, hrest]
    rfl

/-- Joins none of which reads the attribute of another may be resolved in any order.

Each attribute is set to the rows that a search finds for the original record, and all other fields are
as they were. Known fields keep their places, and new attributes follow in the order of the joins.
Another order of the joins leads to the same value in every field; but for the order of the new
attributes the record is the same. -/
theorem resolve_independent (db : Database) (h : Joins.Independent joins) (record : Document) :
    (∀ attr join, (attr, join) ∈ joins → (db.resolve joins record).get? attr =
      some (.array ((db.find join.collection ⟨join.filterFor record, join.joins⟩).map .document))) ∧
    (∀ field, field ∉ joins.names → (db.resolve joins record).get? field = record.get? field) ∧
    ∃ kept added : Document, db.resolve joins record = kept ++ added ∧
      kept.names = record.names ∧
      added.names = joins.names.filter (fun attr => attr ∉ record.names) ∧
      ∀ reordered, joins.Perm reordered →
        (∀ field, (db.resolve reordered record).get? field = (db.resolve joins record).get? field) ∧
        ∃ moved : Document, added.Perm moved ∧ db.resolve reordered record = kept ++ moved := by
  have hnames (joins : Joins) := names_map_filled db record joins
  have hnodup : (Fields.names (joins.map (db.filled record))).Nodup := by
    rw [hnames]
    exact h.nodup_names
  have hknown : ∀ attr ∈ Fields.names ((joins.map (db.filled record)).filter fun entry =>
      entry.1 ∈ record.names), attr ∈ record.names := by
    intro attr hattr
    obtain ⟨entry, hentry, rfl⟩ := List.mem_map.1 hattr
    exact of_decide_eq_true (List.mem_filter.1 hentry).2
  have hresolve := resolve_eq_merge db h record
  refine ⟨fun attr join hjoin => ?_, fun field hfield => get?_resolve db hfield record,
    _, _, hresolve.trans (Fields.merge_eq_append hnodup record),
    Fields.names_merge_of_mem hknown, ?_, fun reordered hperm => ?_⟩
  · have hmem : db.filled record (attr, join) ∈ joins.map (db.filled record) :=
      List.mem_map_of_mem hjoin
    rw [hresolve, Fields.get?_merge_of_nodup hnodup, ← rows_eq_find,
      (Fields.mem_iff_get?_eq_some hnodup).1 hmem]
    rfl
  · rw [← hnames joins]
    exact (List.filter_map (p := fun attr => attr ∉ record.names)).symm
  · have hlater := hperm.map (db.filled record)
    have hnodup' : (Fields.names (reordered.map (db.filled record))).Nodup :=
      (hlater.map Prod.fst).nodup hnodup
    have hresolve' := resolve_eq_merge db (h.perm hperm) record
    refine ⟨fun field => ?_, _, hlater.filter _, ?_⟩
    · rw [hresolve, hresolve', Fields.get?_merge_of_nodup hnodup, Fields.get?_merge_of_nodup hnodup',
        Fields.get?_of_perm hnodup hlater]
    · have hkept := Fields.merge_of_perm (hlater.filter fun entry => entry.1 ∈ record.names)
        (hnodup.sublist (List.filter_sublist.map _)) hknown
      rw [hresolve', Fields.merge_eq_append hnodup', hkept]

/-- The first join fills the stored field that it reads itself, with another join inside it. Resolved in
the opposite order the joins lead to the same fields, of which only the two new ones change places. -/
theorem resolve_independent_shadowed : ∃ (db : Database) (record : Document) (joins : Joins),
    db = ((Command.create "B" [("q", .int64 7)]).run
      ((Command.create "A" [("up", .int32 1), ("n", .int32 7)]).run empty).2).2 ∧
    record = [("id", .int64 1), ("up", .int32 1), ("n", .int32 7)] ∧
    joins = [("up", ((Join.ofCollection "A").pair "id" "up").nest "all" (Join.ofCollection "B")),
      ("peers", (Join.ofCollection "B").pair "q" "n"), ("more", Join.ofCollection "B")] ∧
    Joins.Independent joins ∧ joins.Perm joins.reverse ∧
    (db.resolve joins record).names = ["id", "up", "n", "peers", "more"] ∧
    (db.resolve joins.reverse record).names = ["id", "up", "n", "more", "peers"] ∧
    (db.resolve joins.reverse record).get? "peers" =
      some (.array [.document [("id", .int64 1), ("q", .int64 7)]]) ∧
    ∀ field, (db.resolve joins.reverse record).get? field = (db.resolve joins record).get? field := by
  let db := ((Command.create "B" [("q", .int64 7)]).run
    ((Command.create "A" [("up", .int32 1), ("n", .int32 7)]).run empty).2).2
  let joins : Joins :=
    [("up", ((Join.ofCollection "A").pair "id" "up").nest "all" (Join.ofCollection "B")),
      ("peers", (Join.ofCollection "B").pair "q" "n"), ("more", Join.ofCollection "B")]
  have h : Joins.Independent joins := ⟨by decide, by decide⟩
  obtain ⟨hfound, -, kept, added, -, -, -, hreordered⟩ :=
    resolve_independent db h [("id", .int64 1), ("up", .int32 1), ("n", .int32 7)]
  have hsame := (hreordered joins.reverse joins.reverse_perm.symm).1
  refine ⟨db, _, joins, rfl, rfl, rfl, h, joins.reverse_perm.symm, rfl, rfl, ?_, hsame⟩
  rw [hsame, hfound "peers" ((Join.ofCollection "B").pair "q" "n") (by decide)]
  rfl

end Database

end DocumentStore
