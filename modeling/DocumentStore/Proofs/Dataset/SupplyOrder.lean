import DocumentStore.Proofs.Dataset.Building

/-!
# The order of what is supplied

Records for one collection ought to come together in the order in which they are supplied. A supply
keeps its JSON values apart from its datasets, though, and reads them behind all of them.

* `build_ofCalls`: what is built from a row of calls, in any order of the two kinds;
* `inOrder_valuesLast`: this is the order of the calls where no dataset overtakes a JSON value that
  lists records for one of its collections;
* `build_inOrder_iff`: for which rows of kinds it is the order of the calls whatever is supplied.
-/

namespace DocumentStore

namespace Supply

/-! ## Calls -/

/-- One call on a supply that is put together. -/
inductive Call where
  /-- Supplies a dataset. -/
  | data (supplied : Dataset)
  /-- Supplies a JSON value. -/
  | json (value : Json)

namespace Call

/-- Whether a JSON value is supplied. -/
def isJson : Call → Bool
  | data _ => false
  | json _ => true

/-- The JSON value that is supplied, if one is. -/
def json? : Call → Option Json
  | data _ => none
  | json value => some value

/-- The dataset of the call, given as it is or described by a JSON value. -/
def dataset : Call → Dataset
  | data supplied => supplied
  | json value => Dataset.ofEntries value.entries

/-- Where the call supplies a JSON value, it describes a dataset. -/
def WellShaped : Call → Prop
  | data _ => True
  | json value => value.IsDataset

/-- The supply after the call. -/
def run (supply : Supply) : Call → Supply
  | data supplied => supply.addData supplied
  | json value => supply.addJson value

/-- The second call supplies a dataset, the first one a JSON value, and both hold records for one
collection. -/
def IsOvertakenBy (first second : Call) : Prop :=
  first.isJson = true ∧ second.isJson = false ∧
    ∃ name, first.dataset.records name ≠ [] ∧ second.dataset.records name ≠ []

/-- A call of a given kind that supplies nothing. -/
def idle : Bool → Call
  | true => json (.object [])
  | false => data Dataset.empty

theorem isJson_idle (kind : Bool) : (idle kind).isJson = kind := by cases kind <;> rfl

theorem dataset_idle (kind : Bool) : (idle kind).dataset = Dataset.empty := by cases kind <;> rfl

theorem wellShaped_idle (kind : Bool) : (idle kind).WellShaped := by
  cases kind with
  | false => trivial
  | true => exact ⟨[], rfl, by simp⟩

end Call

/-- The supply that a row of calls puts together. -/
def ofCalls (calls : List Call) : Supply := calls.foldl Call.run empty

/-- The datasets of a row of calls, merged in the order of the calls. -/
def inOrder (calls : List Call) : Dataset := Dataset.concat (calls.map Call.dataset)

/-- The calls with all JSON values moved behind the datasets, in order otherwise. -/
def valuesLast (calls : List Call) : List Call :=
  calls.filter (!·.isJson) ++ calls.filter Call.isJson

variable {calls : List Call}

/-! ## Datasets in order -/

/-- For each collection the lists of the calls follow one another. -/
theorem records_inOrder (calls : List Call) (name : String) :
    (inOrder calls).records name = calls.flatMap fun call => call.dataset.records name := by
  rw [inOrder, Dataset.records_concat, List.flatMap_map]

theorem mem_names_inOrder {name : String} :
    name ∈ (inOrder calls).names ↔ ∃ call ∈ calls, name ∈ call.dataset.names := by
  simp only [inOrder, Dataset.mem_names_concat, List.mem_map, exists_exists_and_eq_and]

theorem inOrder_append (front back : List Call) :
    inOrder (front ++ back) = (inOrder front).merge (inOrder back) := by
  refine Dataset.ext_records (fun name => ?_) fun name => ?_
  · simp only [Dataset.mem_names_merge, mem_names_inOrder, List.mem_append, or_and_right, exists_or]
  · simp only [Dataset.records_merge, records_inOrder, List.flatMap_append]

theorem inOrder_cons (call : Call) (calls : List Call) :
    inOrder (call :: calls) = call.dataset.merge (inOrder calls) := by
  refine Dataset.ext_records (fun name => ?_) fun name => ?_
  · simp only [Dataset.mem_names_merge, mem_names_inOrder, List.exists_mem_cons_iff]
  · simp only [Dataset.records_merge, records_inOrder, List.flatMap_cons]

/-- Idle calls leave the empty dataset. -/
theorem inOrder_idle (kinds : List Bool) : inOrder (kinds.map Call.idle) = Dataset.empty := by
  induction kinds with
  | nil => rfl
  | cons kind rest ih =>
    rw [List.map_cons, inOrder_cons, ih, Call.dataset_idle, Dataset.empty_merge]

theorem inOrder_filter_idle (p : Call → Bool) (kinds : List Bool) :
    inOrder ((kinds.map Call.idle).filter p) = Dataset.empty := by
  rw [List.filter_map, inOrder_idle]

/-! ## What a row of calls builds -/

theorem foldl_run (calls : List Call) (supply : Supply) : calls.foldl Call.run supply =
    ⟨((calls.filter (!·.isJson)).map Call.dataset).foldl Dataset.merge supply.data,
      supply.values ++ calls.filterMap Call.json?⟩ := by
  induction calls generalizing supply with
  | nil => exact congrArg (mk supply.data) (List.append_nil _).symm
  | cons call rest ih =>
    rw [List.foldl_cons, ih]
    cases call with
    | data supplied => rfl
    | json value => exact congrArg (mk _) (List.append_assoc _ _ _)

/-- What the JSON values of a row of calls describe. -/
theorem map_json?_eq (calls : List Call) :
    ((calls.filterMap Call.json?).map fun json => Dataset.ofEntries json.entries) =
      (calls.filter Call.isJson).map Call.dataset := by
  induction calls with
  | nil => rfl
  | cons call rest ih =>
    cases call with
    | data supplied => exact ih
    | json value => exact congrArg (Dataset.ofEntries value.entries :: ·) ih

/-- The JSON values are read behind all datasets, whenever they were supplied. -/
theorem build_ofCalls (h : ∀ call ∈ calls, call.WellShaped) :
    (ofCalls calls).build = (inOrder (valuesLast calls)).load := by
  have hcalls : ofCalls calls = ⟨inOrder (calls.filter (!·.isJson)), calls.filterMap Call.json?⟩ :=
    foldl_run calls empty
  have hvalues : ∀ json ∈ (ofCalls calls).values, json.IsDataset := by
    rw [hcalls]
    intro json hmem
    obtain ⟨call, hcall, hjson⟩ := List.mem_filterMap.1 hmem
    cases call with
    | data supplied => cases hjson
    | json value =>
      obtain rfl := Option.some.inj hjson
      exact h _ hcall
  have htotal : (ofCalls calls).total = inOrder (valuesLast calls) := by
    rw [hcalls, total, map_json?_eq, inOrder, inOrder, valuesLast, Dataset.concat, Dataset.concat,
      List.map_append, List.foldl_append]
  rw [build_of_isDataset hvalues, htotal]

/-! ## Where the order of the calls is kept -/

/-- Elements of one kind may be moved to the end of a list where nothing that comes from them is
passed by something that comes from the others. -/
theorem flatMap_filter_append {α β : Type} {p : α → Bool} {f : α → List β} {list : List α}
    (h : list.Pairwise fun first second =>
      p first = true → p second = false → f first = [] ∨ f second = []) :
    (list.filter (!p ·)).flatMap f ++ (list.filter p).flatMap f = list.flatMap f := by
  induction list with
  | nil => rfl
  | cons first rest ih =>
    obtain ⟨hfirst, hrest⟩ := List.pairwise_cons.1 h
    rw [List.flatMap_cons, ← ih hrest]
    cases hp : p first with
    | false =>
      rw [List.filter_cons_of_pos (by simp [hp]), List.filter_cons_of_neg (by simp [hp]),
        List.flatMap_cons, List.append_assoc]
    | true =>
      rw [List.filter_cons_of_neg (by simp [hp]), List.filter_cons_of_pos (by simp [hp]),
        List.flatMap_cons]
      by_cases hnil : f first = []
      · rw [hnil, List.nil_append, List.nil_append]
      · have hothers : (rest.filter (!p ·)).flatMap f = [] := by
          refine List.flatMap_eq_nil_iff.2 fun second hmem => ?_
          obtain ⟨hmem, hsecond⟩ := List.mem_filter.1 hmem
          exact (hfirst second hmem hp (by simpa using hsecond)).resolve_left hnil
        rw [hothers, List.nil_append, List.nil_append]

theorem inOrder_valuesLast (h : calls.Pairwise fun first second => ¬ first.IsOvertakenBy second) :
    inOrder (valuesLast calls) = inOrder calls := by
  refine Dataset.ext_records (fun name => ?_) fun name => ?_
  · rw [mem_names_inOrder, mem_names_inOrder]
    simp only [valuesLast, List.mem_append, List.mem_filter]
    refine exists_congr fun call => and_congr_left fun _ => ?_
    cases call.isJson <;> simp
  · rw [records_inOrder, records_inOrder, valuesLast, List.flatMap_append]
    refine flatMap_filter_append (h.imp fun {first second} hnot hfirst hsecond => ?_)
    by_contra hboth
    rw [not_or] at hboth
    exact hnot ⟨hfirst, hsecond, name, hboth⟩

/-! ## Where it is not -/

/-- There are records whose numbers depend on which of them come first. -/
theorem exists_load_merge_ne : ∃ (value : Json) (data : Dataset), value.IsDataset ∧
    (data.merge (Dataset.ofEntries value.entries)).load ≠
      ((Dataset.ofEntries value.entries).merge data).load := by
  refine ⟨.object [("A", .array [.object [("n", .integer 1)]])],
    Dataset.empty.add "A" [[("n", .int64 2)]], Dataset.ofJson_succeeds_iff.1 ⟨_, rfl⟩, fun h => ?_⟩
  have hrecords := congrArg (fun loaded => loaded.map (·.records "A")) h
  cases hrecords

/-- Between a JSON value and a dataset behind it, with idle calls around them, the order is lost. -/
theorem exists_build_ne_of_sublist {kinds : List Bool} (h : [true, false].Sublist kinds) :
    ∃ calls : List Call, calls.map Call.isJson = kinds ∧ (∀ call ∈ calls, call.WellShaped) ∧
      (ofCalls calls).build ≠ (inOrder calls).load := by
  obtain ⟨value, data, hvalue, hne⟩ := exists_load_merge_ne
  -- the two calls that matter stand in two parts of the row
  obtain ⟨front, back, rfl, htrue, hrest⟩ := List.cons_sublist_iff.1 h
  obtain ⟨before, between, rfl⟩ := List.append_of_mem htrue
  obtain ⟨between', behind, rfl⟩ := List.append_of_mem (List.singleton_sublist.1 hrest)
  have hwell : ∀ call ∈ (before.map Call.idle ++ .json value :: between.map Call.idle) ++
      (between'.map Call.idle ++ .data data :: behind.map Call.idle), call.WellShaped := by
    simp only [List.mem_append, List.mem_cons, List.mem_map]
    rintro _ ((⟨_, -, rfl⟩ | rfl | ⟨_, -, rfl⟩) | ⟨_, -, rfl⟩ | rfl | ⟨_, -, rfl⟩)
    case inl.inr.inl => exact hvalue
    case inr.inr.inl => trivial
    all_goals exact Call.wellShaped_idle _
  refine ⟨_, ?_, hwell, ?_⟩
  · have hidle : Call.isJson ∘ Call.idle = id := funext Call.isJson_idle
    simp [hidle, Call.isJson]
  · rw [build_ofCalls hwell]
    simpa [valuesLast, List.filter_cons, Call.isJson, Call.dataset, inOrder_append, inOrder_cons,
      inOrder_idle, inOrder_filter_idle, Dataset.empty_merge, Dataset.merge_empty] using hne

/-- For which calls the order in which they come is the order in which their records are taken.

The JSON values of well-shaped calls are read behind all datasets. Therefore what is built is what
the lists of the calls make in the order of the calls, as long as no dataset follows a JSON value
that lists records for one of its collections. Whatever the calls supply, this is so exactly when
no dataset follows a JSON value at all. -/
theorem build_inOrder_iff (h : ∀ call ∈ calls, call.WellShaped) :
    (ofCalls calls).build = (inOrder (valuesLast calls)).load ∧
    ((calls.Pairwise fun first second => ¬ first.IsOvertakenBy second) →
      (ofCalls calls).build = (inOrder calls).load) ∧
    ((∀ others : List Call, others.map Call.isJson = calls.map Call.isJson →
        (∀ call ∈ others, call.WellShaped) → (ofCalls others).build = (inOrder others).load) ↔
      (calls.map Call.isJson).Pairwise fun first second => first = true → second = true) := by
  have hkept {others : List Call} (hwell : ∀ call ∈ others, call.WellShaped)
      (hnot : others.Pairwise fun first second => ¬ first.IsOvertakenBy second) :
      (ofCalls others).build = (inOrder others).load := by
    rw [build_ofCalls hwell, inOrder_valuesLast hnot]
  refine ⟨build_ofCalls h, hkept h, fun hall => ?_, fun hkinds others hothers hwell => ?_⟩
  · refine List.pairwise_iff_forall_sublist.2 fun {first second} hsub hfirst => ?_
    by_contra hsecond
    obtain rfl := hfirst
    obtain rfl := Bool.eq_false_iff.2 hsecond
    obtain ⟨others, hothers, hwell, hne⟩ := exists_build_ne_of_sublist hsub
    exact hne (hall others hothers hwell)
  · rw [← hothers, List.pairwise_map] at hkinds
    refine hkept hwell (hkinds.imp fun {first second} himp hovertaken => ?_)
    obtain ⟨hfirst, hsecond, -⟩ := hovertaken
    rw [himp hfirst] at hsecond
    cases hsecond

/-- A dataset and a JSON value behind it, both with a record that is still to be numbered. -/
theorem build_inOrder_data_first : ∃ calls : List Call,
    calls = [.data (Dataset.empty.add "A" [[("n", .int64 1)]]),
      .json (.object [("A", .array [.object [("n", .integer 2)]])])] ∧
    (∀ call ∈ calls, call.WellShaped) ∧
    (ofCalls calls).build = (inOrder calls).load ∧
    (ofCalls calls).build.map (·.records "A") =
      .ok [[("id", .int64 1), ("n", .int64 1)], [("id", .int64 2), ("n", .int64 2)]] := by
  let first : Call := .data (Dataset.empty.add "A" [[("n", .int64 1)]])
  let second : Call := .json (.object [("A", .array [.object [("n", .integer 2)]])])
  have hwell : ∀ call ∈ [first, second], call.WellShaped := by
    simp only [List.forall_mem_cons, List.not_mem_nil, false_imp_iff, implies_true, and_true]
    exact ⟨trivial, Dataset.ofJson_succeeds_iff.1 ⟨_, rfl⟩⟩
  have horder := (build_inOrder_iff hwell).2.2.2 (by decide)
  exact ⟨[first, second], rfl, hwell, horder [first, second] rfl hwell, rfl⟩

/-- Supplied the other way round, the records are still taken from the dataset first. -/
theorem build_value_first : ∃ calls : List Call,
    calls = [.json (.object [("A", .array [.object [("n", .integer 1)]])]),
      .data (Dataset.empty.add "A" [[("n", .int64 2)]])] ∧
    (∀ call ∈ calls, call.WellShaped) ∧
    (inOrder calls).load.map (·.records "A") =
      .ok [[("id", .int64 1), ("n", .int64 1)], [("id", .int64 2), ("n", .int64 2)]] ∧
    (ofCalls calls).build.map (·.records "A") =
      .ok [[("id", .int64 1), ("n", .int64 2)], [("id", .int64 2), ("n", .int64 1)]] ∧
    (ofCalls calls).build ≠ (inOrder calls).load := by
  refine ⟨_, rfl, ?_, rfl, rfl, fun h => ?_⟩
  · simp only [List.forall_mem_cons, List.not_mem_nil, false_imp_iff, implies_true, and_true]
    exact ⟨Dataset.ofJson_succeeds_iff.1 ⟨_, rfl⟩, trivial⟩
  · have hrecords := congrArg (fun built => built.map (·.records "A")) h
    cases hrecords

end Supply

end DocumentStore
