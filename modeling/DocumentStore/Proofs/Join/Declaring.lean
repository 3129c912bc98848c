import DocumentStore.Proofs.Join.Descriptor

/-!
# Reading declared joins

The reader of declarations against their grammar.

* `declared_succeeds_iff`: it accepts exactly the descriptors;
* `declared_eq_ok_iff`: of these it makes what the builder makes;
* `declared_eq_error_iff`: of anything else it reports the first fault;
* `ofDocument_grammar` says the same of whole documents, and that joins which are written down are
  read back.
-/

namespace DocumentStore

namespace Join

/-- Induction over the descriptors that are nested in a value. -/
@[elab_as_elim]
theorem descriptorInduction {motive : Value → Prop}
    (other : ∀ value, (∀ fields, value ≠ .document fields) → motive value)
    (document : ∀ descriptor : Document, (∀ sub, descriptor.get? "sub" = some (.document sub) →
      ∀ entry ∈ sub, motive entry.2) → motive (.document descriptor))
    (value : Value) : motive value := by
  -- nested descriptors lie two steps deeper, so the values in between are taken along
  suffices h : motive value ∧ ∀ fields, value = .document fields →
      ∀ entry ∈ fields, motive entry.2 from h.1
  induction value using Value.induction with
  | document fields ih =>
    refine ⟨document fields fun sub hsub => ?_, fun same hsame entry hentry => ?_⟩
    · exact (ih _ (Fields.mem_of_get?_eq_some hsub)).2 sub rfl
    · obtain rfl := Value.document.inj hsame
      exact (ih entry hentry).1
  | _ => exact ⟨other _ (fun _ h => nomatch h), fun _ h => nomatch h⟩

variable {attr : String} {value : Value} {descriptor : Document} {fault : Fault}

/-! ## The reader against the grammar -/

theorem declaredEntry_succeeds_iff {entry : String × Value} :
    (∃ named, declaredEntry entry = .ok named) ↔ ∃ join, declared entry.1 entry.2 = .ok join :=
  map_succeeds_iff

/-- Entries are read when each of them is a descriptor, if this is so for each alone. -/
theorem declaredEntries_succeeds_iff {document : Document}
    (h : ∀ entry ∈ document, (∃ join, declared entry.1 entry.2 = .ok join) ↔ IsDescriptor entry.2) :
    (∃ joins, declaredEntries document = .ok joins) ↔
      ∀ entry ∈ document, IsDescriptor entry.2 := by
  rw [declaredEntries_eq_mapM, mapM_succeeds_iff]
  refine forall₂_congr fun entry hentry => ?_
  rw [declaredEntry_succeeds_iff, h entry hentry]

/-- The reader accepts exactly the descriptors. -/
theorem declared_succeeds_iff : (∃ join, declared attr value = .ok join) ↔ IsDescriptor value := by
  induction value using descriptorInduction generalizing attr with
  | other value h =>
    rw [declared_eq_error h]
    constructor
    · intro hok
      obtain ⟨_, hok⟩ := hok
      cases hok
    · intro hdescriptor
      cases hdescriptor <;> exact absurd rfl (h _)
  | document descriptor ih =>
    have hentries {sub : Document} (hsub : descriptor.get? "sub" = some (.document sub)) :
        (∃ joins, declaredEntries sub = .ok joins) ↔ ∀ entry ∈ sub, IsDescriptor entry.2 :=
      declaredEntries_succeeds_iff fun entry hentry => ih sub hsub entry hentry
    constructor
    · intro hok
      obtain ⟨join, hok⟩ := hok
      obtain ⟨collection, pairs, joins, htype, hpairs, hjoins, -⟩ :=
        declared_document_eq_ok_iff.1 hok
      have hmatch : MapsNames descriptor :=
        declaredMatch_succeeds_iff.1 ⟨pairs, (@declaredMatch_eq_ok_iff attr _ _).2 hpairs⟩
      obtain ⟨hsub, -⟩ | ⟨sub, hsub, hread⟩ := declaredSub_eq_ok_iff.1 hjoins
      · exact .flat ⟨collection, htype⟩ hmatch hsub
      · exact .nested ⟨collection, htype⟩ hmatch hsub ((hentries hsub).1 ⟨joins, hread⟩)
    · intro hdescriptor
      cases hdescriptor with
      | flat htype hmatch hsub =>
        obtain ⟨collection, htype⟩ := htype
        obtain ⟨pairs, hpairs⟩ := (@declaredMatch_succeeds_iff attr _).2 hmatch
        exact ⟨_, declared_document_eq_ok_iff.2 ⟨collection, pairs, [], htype,
          declaredMatch_eq_ok_iff.1 hpairs, declaredSub_eq_ok_iff.2 (.inl ⟨hsub, rfl⟩), rfl⟩⟩
      | nested htype hmatch hsub hall =>
        obtain ⟨collection, htype⟩ := htype
        obtain ⟨pairs, hpairs⟩ := (@declaredMatch_succeeds_iff attr _).2 hmatch
        obtain ⟨joins, hread⟩ := (hentries hsub).2 hall
        exact ⟨_, declared_document_eq_ok_iff.2 ⟨collection, pairs, joins, htype,
          declaredMatch_eq_ok_iff.1 hpairs,
          declaredSub_eq_ok_iff.2 (.inr ⟨_, hsub, hread⟩), rfl⟩⟩

/-- Entries that are not all descriptors have the fault of the first that is none. -/
theorem declaredEntries_eq_error_iff {document : Document}
    (h : ∀ entry ∈ document, ∀ fault, declared entry.1 entry.2 = .error fault ↔
      DescriptorFault entry.1 entry.2 fault) :
    declaredEntries document = .error fault ↔ ∃ front inner value back,
      document = front ++ (inner, value) :: back ∧ (∀ entry ∈ front, IsDescriptor entry.2) ∧
        DescriptorFault inner value fault := by
  rw [declaredEntries_eq_mapM, mapM_eq_error_iff, FirstFault]
  simp only [declaredEntry_succeeds_iff, declared_succeeds_iff]
  simp only [declaredEntry, map_eq_error_iff, Prod.exists]
  refine exists₄_congr fun front inner value back => and_congr_right fun hdocument =>
    and_congr_right fun _ => ?_
  exact h (inner, value) (hdocument ▸ List.mem_append_right _ List.mem_cons_self) fault

/-- Of anything else the reader finds the first fault. -/
theorem declared_eq_error_iff :
    declared attr value = .error fault ↔ DescriptorFault attr value fault := by
  induction value using descriptorInduction generalizing attr fault with
  | other value h =>
    rw [declared_eq_error h, Except.error.injEq]
    constructor
    · intro hfault
      exact hfault ▸ .notDocument h
    · intro hfault
      cases hfault with
      | notDocument => rfl
      | _ => exact absurd rfl (h _)
  | document descriptor ih =>
    have hentries {sub : Document} (hsub : descriptor.get? "sub" = some (.document sub)) :=
      @declaredEntries_eq_error_iff fault sub fun entry hentry fault => ih sub hsub entry hentry
    rw [declared_document_eq_error_iff, declaredCollection_eq_error_iff,
      declaredMatch_eq_error_iff, declaredSub_eq_error_iff]
    constructor
    · intro h
      obtain ⟨htype, rfl⟩ | ⟨htype, h⟩ := h
      · exact .missingType htype
      obtain (hmatch | hmatch) | ⟨hmatch, hsub | hsub⟩ := h
      · obtain ⟨value, hget, h, rfl⟩ := hmatch
        exact .matchNotDocument htype hget h
      · obtain ⟨front, target, value, back, hget, hfront, h, rfl⟩ := hmatch
        exact .sourceNotName htype hget hfront h
      · obtain ⟨value, hget, hnull, h, rfl⟩ := hsub
        exact .subNotDocument htype hmatch hget hnull h
      · obtain ⟨sub, hget, hread⟩ := hsub
        obtain ⟨front, inner, value, back, rfl, hfront, h⟩ := (hentries hget).1 hread
        exact .nested htype hmatch hget hfront h
    · intro hfault
      cases hfault with
      | notDocument h => exact absurd rfl (h _)
      | missingType h => exact .inl ⟨h, rfl⟩
      | matchNotDocument htype hmatch h => exact .inr ⟨htype, .inl (.inl ⟨_, hmatch, h, rfl⟩)⟩
      | sourceNotName htype hmatch hfront h =>
        exact .inr ⟨htype, .inl (.inr ⟨_, _, _, _, hmatch, hfront, h, rfl⟩)⟩
      | subNotDocument htype hmatch hsub hnull h =>
        exact .inr ⟨htype, .inr ⟨hmatch, .inl ⟨_, hsub, hnull, h, rfl⟩⟩⟩
      | nested htype hmatch hsub hfront h =>
        exact .inr ⟨htype, .inr ⟨hmatch, .inr ⟨_, hsub,
          (hentries hsub).2 ⟨_, _, _, _, rfl, hfront, h⟩⟩⟩⟩

/-! ## The joins that are read -/

theorem declaredEntries_eq_ok_iff {document : Document} {joins : List (String × Join)}
    (h : ∀ entry ∈ document, ∀ join, declared entry.1 entry.2 = .ok join ↔ Declares entry.2 join) :
    declaredEntries document = .ok joins ↔ DeclaresAll document joins := by
  induction document generalizing joins with
  | nil =>
    constructor
    · intro hread
      cases hread
      exact .nil
    · intro hall
      cases hall
      rfl
  | cons entry rest ih =>
    obtain ⟨inner, value⟩ := entry
    rw [List.forall_mem_cons] at h
    rw [declaredEntries]
    simp only [bind_eq_ok_iff, h.1, ih h.2]
    constructor
    · intro hread
      obtain ⟨join, hfirst, others, hrest, hjoins⟩ := hread
      exact Except.ok.inj hjoins ▸ .cons hfirst hrest
    · intro hall
      cases hall with
      | cons hfirst hrest => exact ⟨_, hfirst, _, hrest, rfl⟩

/-- What the reader makes of a descriptor is what the builder makes of its entries. Of names that
are given once, no join that is added replaces another. -/
theorem declared_eq_ok_iff {join : Join} (h : value.WellFormed) :
    declared attr value = .ok join ↔ Declares value join := by
  induction value using descriptorInduction generalizing attr join with
  | other value hnot =>
    rw [declared_eq_error hnot]
    constructor
    · intro hread
      cases hread
    · intro hdeclares
      cases hdeclares <;> exact absurd rfl (hnot _)
  | document descriptor ih =>
    rw [Value.WellFormed, Value.fieldsWellFormed_iff] at h
    have hsubs {sub : Document} (hsub : descriptor.get? "sub" = some (.document sub)) :
        sub.names.Nodup ∧ ∀ entry ∈ sub, entry.2.WellFormed := by
      have hwell := h.2 _ (Fields.mem_of_get?_eq_some hsub)
      rwa [Value.WellFormed, Value.fieldsWellFormed_iff] at hwell
    have hentries {sub : Document} (hsub : descriptor.get? "sub" = some (.document sub))
        {joins : List (String × Join)} :
        declaredEntries sub = .ok joins ↔ DeclaresAll sub joins :=
      declaredEntries_eq_ok_iff fun entry hentry join =>
        ih sub hsub entry hentry ((hsubs hsub).2 entry hentry)
    have hnames {sub : Document} (hsub : descriptor.get? "sub" = some (.document sub))
        {joins : List (String × Join)} (hall : DeclaresAll sub joins) :
        (Fields.names joins).Nodup := hall.names_eq ▸ (hsubs hsub).1
    rw [declared_document_eq_ok_iff]
    constructor
    · intro hread
      obtain ⟨collection, pairs, joins, htype, hpairs, hjoins, rfl⟩ := hread
      obtain ⟨hsub, rfl⟩ | ⟨sub, hsub, hread⟩ := declaredSub_eq_ok_iff.1 hjoins
      · exact ofPairs_eq collection pairs ▸ .flat htype hpairs hsub
      · have hall := (hentries hsub).1 hread
        exact foldl_nest_of_nodup collection pairs (hnames hsub hall) ▸
          .nested htype hpairs hsub hall
    · intro hdeclares
      cases hdeclares with
      | flat htype hpairs hsub =>
        exact ⟨_, _, [], htype, hpairs, declaredSub_eq_ok_iff.2 (.inl ⟨hsub, rfl⟩),
          ofPairs_eq _ _⟩
      | nested htype hpairs hsub hall =>
        exact ⟨_, _, _, htype, hpairs,
          declaredSub_eq_ok_iff.2 (.inr ⟨_, hsub, (hentries hsub).2 hall⟩),
          foldl_nest_of_nodup _ _ (hnames hsub hall)⟩

mutual

/-- A descriptor is read as the join that it is written from. -/
theorem declared_toDescriptor : ∀ (join : Join) (attr : String), join.Distinct →
    declared attr (toDescriptor join) = .ok join
  | ⟨collection, pairs, joins⟩, attr, h => by
    obtain ⟨hpairs, hnames, hjoins⟩ := h
    have hmapping : Fields.ofPairs (pairs.map fun pair => (pair.1, Value.string pair.2)) =
        pairs.map fun pair => (pair.1, .string pair.2) := by
      rw [Fields.ofPairs_map, Fields.ofPairs_of_nodup hpairs]
    have hsub : Fields.ofPairs (toDescriptors joins) = toDescriptors joins :=
      Fields.ofPairs_of_nodup (names_toDescriptors joins ▸ hnames)
    rw [toDescriptor, hmapping, hsub]
    exact declared_document_eq_ok_iff.2 ⟨collection, pairs, joins, rfl, .mapping rfl,
      declaredSub_eq_ok_iff.2 (.inr ⟨_, rfl, declaredEntries_toDescriptors joins hjoins⟩), rfl⟩

theorem declaredEntries_toDescriptors : ∀ joins : List (String × Join), AllDistinct joins →
    declaredEntries (toDescriptors joins) = .ok joins
  | [], _ => rfl
  | (attr, join) :: rest, h => by
    rw [toDescriptors, declaredEntries, declared_toDescriptor join attr h.1,
      declaredEntries_toDescriptors rest h.2]
    rfl

end

end Join

namespace Joins

theorem ofDocument_toDocument {joins : Joins} (h : joins.Distinct) :
    ofDocument joins.toDocument = .ok joins := by
  have hnames : (Fields.names (Join.toDescriptors joins)).Nodup :=
    Join.names_toDescriptors joins ▸ h.1
  rw [ofDocument, toDocument, Fields.ofPairs_of_nodup hnames]
  exact Join.declaredEntries_toDescriptors joins h.2

/-- The reader of declared joins accepts exactly its grammar. A document is read when the values of
all its entries are descriptors, at every depth. It is then read as the builder makes the joins, one
for each entry in order. Otherwise the fault is that of the first entry, in order and from the outside
in, that is no descriptor, and its text names the attribute. Joins that are written down as a
document are read back, as long as none of them gives a target field or an attribute twice. -/
theorem ofDocument_grammar :
    (∀ document : Document, (∃ joins, ofDocument document = .ok joins) ↔
      ∀ entry ∈ document, Join.IsDescriptor entry.2) ∧
    (∀ document : Document, (Value.document document).WellFormed → ∀ joins : Joins,
      ofDocument document = .ok joins ↔
        ∃ listed, Join.DeclaresAll document listed ∧ joins = Fields.ofPairs listed) ∧
    (∀ joins : Joins, joins.Distinct → ofDocument joins.toDocument = .ok joins) ∧
    (∀ (document : Document) (fault : Fault), ofDocument document = .error fault ↔
      ∃ front attr value back, document = front ++ (attr, value) :: back ∧
        (∀ entry ∈ front, Join.IsDescriptor entry.2) ∧ Join.DescriptorFault attr value fault) ∧
    (∀ (document : Document) (fault : Fault), ofDocument document = .error fault →
      fault.kind = .invalidQuery ∧ ∃ attr cause rest, fault = .declaredJoin attr cause ∧
        fault.message = "Invalid query: " ++ ("join '" ++ attr ++ "'" ++ rest)) := by
  have herror (document : Document) (fault : Fault) :=
    @Join.declaredEntries_eq_error_iff fault document fun _ _ _ => Join.declared_eq_error_iff
  refine ⟨fun document => ?_, fun document h joins => ?_, fun joins => ofDocument_toDocument, herror,
    fun document fault h => ?_⟩
  · exact Join.declaredEntries_succeeds_iff fun _ _ => Join.declared_succeeds_iff
  · rw [Value.WellFormed, Value.fieldsWellFormed_iff] at h
    have hread {listed : List (String × Join)} :
        ofDocument document = .ok listed ↔ Join.DeclaresAll document listed :=
      Join.declaredEntries_eq_ok_iff fun entry hentry join =>
        Join.declared_eq_ok_iff (h.2 entry hentry)
    -- the attributes are those of the document, so that gathering the joins changes nothing
    have hgather {listed : List (String × Join)} (hall : Join.DeclaresAll document listed) :
        Fields.ofPairs listed = listed := Fields.ofPairs_of_nodup (hall.names_eq ▸ h.1)
    constructor
    · intro hok
      have hall := hread.1 hok
      exact ⟨joins, hall, (hgather hall).symm⟩
    · intro hlisted
      obtain ⟨listed, hall, rfl⟩ := hlisted
      rw [hgather hall]
      exact hread.2 hall
  · obtain ⟨front, attr, value, back, -, -, hfault⟩ := (herror document fault).1 h
    obtain ⟨inner, cause, rfl⟩ := hfault.exists_eq_declaredJoin
    obtain ⟨rest, hrest⟩ := Join.exists_describe_eq inner cause
    exact ⟨rfl, inner, cause, rest, rfl, congrArg ("Invalid query: " ++ ·) hrest⟩

/-- A join with a nested join, once declared and once written down. -/
theorem ofDocument_grammar_nested : ∃ (document : Document) (joins : Joins),
    document = [("locations", .document [("type", .string "Location"),
      ("match", .document [("contentId", .string "id")]),
      ("sub", .document [("parent", .document [("sub", .null), ("type", .string "Location"),
        ("match", .document [("id", .string "parentId")])])])])] ∧
    joins = [("locations", ((Join.ofCollection "Location").pair "contentId" "id").nest "parent"
      ((Join.ofCollection "Location").pair "id" "parentId"))] ∧
    (Value.document document).WellFormed ∧ joins.Distinct ∧
    ofDocument document = .ok joins ∧ ofDocument joins.toDocument = .ok joins := by
  have hwell : (Value.document [("locations", .document [("type", .string "Location"),
      ("match", .document [("contentId", .string "id")]),
      ("sub", .document [("parent", .document [("sub", .null), ("type", .string "Location"),
        ("match", .document [("id", .string "parentId")])])])])]).WellFormed := by
    simp [Value.WellFormed, Value.FieldsWellFormed]
  have hdistinct : Joins.Distinct [("locations", ((Join.ofCollection "Location").pair "contentId"
      "id").nest "parent" ((Join.ofCollection "Location").pair "id" "parentId"))] := by
    simp [Joins.Distinct, Join.AllDistinct, Join.Distinct, Join.nest, Join.pair, Join.ofCollection,
      Fields.insert]
  have hparent : Join.Declares (.document [("sub", .null), ("type", .string "Location"),
      ("match", .document [("id", .string "parentId")])])
      (Join.ofPairs "Location" [("id", "parentId")]) :=
    .flat rfl (@Join.ListsPairs.mapping _ [("id", "parentId")] rfl) (.inr rfl)
  refine ⟨_, _, rfl, rfl, hwell, hdistinct, ?_, ofDocument_grammar.2.2.1 _ hdistinct⟩
  refine (ofDocument_grammar.2.1 _ hwell _).2 ⟨_, .cons (.nested rfl
    (@Join.ListsPairs.mapping _ [("contentId", "id")] rfl) rfl (.cons hparent .nil)) .nil, rfl⟩

end Joins

end DocumentStore
