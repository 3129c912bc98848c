import DocumentStore.Proofs.Join.Expansion
import DocumentStore.Proofs.Join.Rows
import DocumentStore.Proofs.Value.Equality

/-!
# Joins from both sides

Two records that are joined by a pair of fields are joined from either side. The join is built from
one of the two records and evaluated on the other, so this is the symmetry of loose equality, and
that identifiers tell the records of a collection apart.

* `attaches_pair_iff`: a join by one pair attaches a record exactly when the two fields agree;
* `attaches_iff_attaches` compares the two directions.
-/

namespace DocumentStore

theorem Value.parts_of_ne_array {value : Value} (h : ∀ items, value ≠ .array items) :
    value.parts = [value] := by
  cases value with
  | array items => exact absurd rfl (h items)
  | _ => rfl

/-- Of two fields that are both there, and hold no array on the side of the row, a pair asks that
they agree. -/
theorem Join.met_eq_agrees {source row : Document} {target field : String} {x y : Value}
    (hx : source.get? field = some x) (hy : row.get? target = some y)
    (harray : ∀ items, y ≠ .array items) :
    Join.met source row (target, field) = y.agrees x := by
  rw [met, hx, hy, Option.any_some, Value.parts_of_ne_array harray, List.any_cons, List.any_nil,
    Bool.or_false, Option.getD_some]

namespace Database

variable {db : Database} {name : String} {join : Join} {source record : Document}

/-- Whether a join attaches a record to a source: the attribute that the join fills, whichever it
is, becomes an array of documents, and one of them carries the identifier of the record. -/
def Attaches (db : Database) (join : Join) (source record : Document) : Prop :=
  ∃ rows : List Document,
    (∀ attr, (db.resolve [(attr, join)] source).get? attr =
      some (.array (rows.map .document))) ∧
    ∃ row ∈ rows, recordId? row = recordId? record

theorem attaches_iff : db.Attaches join source record ↔
    ∃ row ∈ db.rows join source, recordId? row = recordId? record := by
  have hset (attr : String) : (db.resolve [(attr, join)] source).get? attr =
      some (.array ((db.rows join source).map .document)) := by
    rw [resolve_one, Fields.get?_insert, if_pos rfl]
  constructor
  · intro h
    obtain ⟨rows, hrows, hrow⟩ := h
    have hsame := (hset "").symm.trans (hrows "")
    rw [Option.some.injEq, Value.array.injEq] at hsame
    rwa [(List.map_inj_right fun _ _ => Value.document.inj).1 hsame]
  · intro h
    exact ⟨db.rows join source, hset, h⟩

/-- Identifiers tell the records of a collection apart. -/
theorem eq_of_recordId?_eq (h : db.Consistent) {row : Document} (hrow : row ∈ db.records name)
    (hrecord : record ∈ db.records name) (hid : recordId? row = recordId? record) :
    row = record :=
  List.inj_on_of_nodup_map (nodup_recordIds h name) hrow hrecord hid

/-- The rows of a join by one pair are the records that meet it. -/
theorem mem_rows_pair_iff {target field : String} {row : Document} :
    row ∈ db.rows ((Join.ofCollection name).pair target field) source ↔
      row ∈ db.records name ∧ Join.met source row (target, field) = true := by
  have hpairs : Fields.lastPairs ((Join.ofCollection name).pair target field).pairs =
      [(target, field)] := rfl
  have hresolve : db.resolve ((Join.ofCollection name).pair target field).joins = fun row => row := by
    funext row
    show db.resolve [] row = row
    rw [resolve]
  rw [rows_eq_attached, attached, hpairs, hresolve, List.map_id', List.mem_filter]
  simp only [List.all_cons, List.all_nil, Bool.and_true]
  rfl

/-- A join by one pair attaches a record of its collection exactly when the two fields agree. -/
theorem attaches_pair_iff (h : db.Consistent) {target field : String} {x y : Value}
    (hrecord : record ∈ db.records name) (hx : source.get? field = some x)
    (hy : record.get? target = some y) (harray : ∀ items, y ≠ .array items) :
    db.Attaches ((Join.ofCollection name).pair target field) source record ↔
      y.agrees x = true := by
  rw [attaches_iff, ← Join.met_eq_agrees hx hy harray]
  constructor
  · intro hrows
    obtain ⟨row, hmem, hid⟩ := hrows
    obtain ⟨hrow, hmet⟩ := mem_rows_pair_iff.1 hmem
    rwa [eq_of_recordId?_eq h hrow hrecord hid] at hmet
  · intro hmet
    exact ⟨record, mem_rows_pair_iff.2 ⟨hrecord, hmet⟩, rfl⟩

/-- A relation joins the same way from both sides. Of two stored records with a field each, neither
of which holds an array, the join of the second collection attaches the second record to the first
exactly when the join of the first collection attaches the first record to the second. Either of
this is so exactly when the two values agree, whatever they are, as long as the documents inside them
name each field once. -/
theorem attaches_iff_attaches (h : db.Reachable) {left right leftField rightField : String}
    {a b : Document} {x y : Value} (ha : a ∈ db.records left) (hb : b ∈ db.records right)
    (hx : a.get? leftField = some x) (hy : b.get? rightField = some y)
    (hxarray : ∀ items, x ≠ .array items) (hyarray : ∀ items, y ≠ .array items)
    (hxnames : x.WellFormed) (hynames : y.WellFormed) :
    (db.Attaches ((Join.ofCollection right).pair rightField leftField) a b ↔
      db.Attaches ((Join.ofCollection left).pair leftField rightField) b a) ∧
    (db.Attaches ((Join.ofCollection right).pair rightField leftField) a b ↔
      x.agrees y = true) := by
  have hthere := attaches_pair_iff h.consistent hb hx hy hyarray
  have hback := attaches_pair_iff h.consistent ha hy hx hxarray
  have hsame : y.agrees x = x.agrees y := Value.agrees_comm hynames hxnames
  rw [hthere, hback, hsame]
  exact ⟨Iff.rfl, Iff.rfl⟩

/-- A text on one side and an integer on the other, joined from both. -/
theorem attaches_iff_attaches_decimal : ∃ (db : Database) (a b : Document),
    db = ((Command.create "B" [("q", .int32 1)]).run
      ((Command.create "A" [("p", .string "1.0")]).run empty).2).2 ∧
    a = [("id", .int64 1), ("p", .string "1.0")] ∧ b = [("id", .int64 1), ("q", .int32 1)] ∧
    a ∈ db.records "A" ∧ b ∈ db.records "B" ∧
    db.Attaches ((Join.ofCollection "B").pair "q" "p") a b ∧
    db.Attaches ((Join.ofCollection "A").pair "p" "q") b a := by
  have hreach : ((Command.create "B" [("q", .int32 1)]).run
      ((Command.create "A" [("p", .string "1.0")]).run empty).2).2.Reachable :=
    .run _ (.run _ .empty)
  have hagrees : (Value.string "1.0").agrees (.int32 1) = true := by decide +kernel
  have h := @attaches_iff_attaches _ hreach "A" "B" "p" "q"
    [("id", .int64 1), ("p", .string "1.0")] [("id", .int64 1), ("q", .int32 1)] _ _
    (List.mem_singleton.2 rfl) (List.mem_singleton.2 rfl) rfl rfl
    (fun _ h => nomatch h) (fun _ h => nomatch h) trivial trivial
  exact ⟨_, _, _, rfl, rfl, rfl, List.mem_singleton.2 rfl, List.mem_singleton.2 rfl,
    h.2.2 hagrees, h.1.1 (h.2.2 hagrees)⟩

end Database

end DocumentStore
