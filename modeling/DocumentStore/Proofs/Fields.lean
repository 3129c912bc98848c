import DocumentStore.Fields
import Mathlib.Data.List.Forall2

/-!
# Rows of writes

What `Fields.merge` and `Fields.ofPairs` leave, read by name and entry by entry.

* `get?_merge`: of all writes to one name the last counts;
* `exists_split_of_get?_eq_some` and `insert_append_cons_self`: where an entry stands that is read, and
  how it is written over there;
* `get?_insertSorted` and `ascending_insertSorted`: a sorted write is read back, and keeps ascending
  names ascending;
* `lastPairs` is that rule said on a list of pairs, and `mem_ofPairs_iff` says that gathering
  pairs keeps exactly those;
* `ofPairs_map`: values may be changed before or after they are gathered;
* `merge_of_nodup`, `ofPairs_of_nodup` and `get?_merge_of_nodup`: where no name is given twice, a merge
  appends, gathering changes nothing, and a merge is read on one side or the other;
* `insert_comm_of_mem` and `merge_merge`: which writes may be swapped, and which may be gathered
  before they are done;
* `merge_eq_append` splits a row of writes into those in place and those at the end, and
  `merge_of_perm` says that the former may come in any order;
* `without_merge`: a name may be left out before or after a row of writes;
* `withoutAll_insert`: a write under a name that is left out is not seen;
* `Paired.names_eq` and `Paired.rel_get?`: entries that are turned into others one by one keep their
  names, and are read under the same ones;
* `get?_foldl_merge`: of several rows of writes the last that mentions a name counts.
-/

namespace DocumentStore.Fields

variable {α β : Type} {fields : Fields α} {name : String} {value : α}

/-! ## Reading -/

theorem get?_append (front back : Fields α) (name : String) :
    get? (front ++ back) name = (get? front name).or (get? back name) := by
  induction front with
  | nil => rfl
  | cons entry rest ih =>
    rw [List.cons_append, get?_cons, get?_cons, ih]
    split <;> rfl

theorem names_append (front back : Fields α) :
    names (front ++ back) = names front ++ names back :=
  List.map_append

theorem get?_eq_none_iff : fields.get? name = none ↔ name ∉ fields.names := by
  induction fields with
  | nil => simp
  | cons entry rest ih =>
    rw [get?_cons, names_cons, List.mem_cons, not_or, ← ih]
    by_cases hn : entry.1 = name
    · simp [hn]
    · simp [hn, Ne.symm hn]

/-- A name is found from behind where it is found from the front. -/
theorem get?_reverse_eq_none_iff : get? fields.reverse name = none ↔ name ∉ fields.names := by
  rw [get?_eq_none_iff, names, List.map_reverse, List.mem_reverse, names]

theorem mem_of_get?_eq_some (h : fields.get? name = some value) : (name, value) ∈ fields := by
  induction fields with
  | nil => cases h
  | cons entry rest ih =>
    rw [get?_cons] at h
    split at h
    · next hn =>
      rw [Option.some.injEq] at h
      rw [← hn, ← h]
      exact List.mem_cons_self
    · exact List.mem_cons_of_mem _ (ih h)

theorem mem_names_of_mem (h : (name, value) ∈ fields) : name ∈ fields.names :=
  List.mem_map.2 ⟨_, h, rfl⟩

/-- Where no name occurs twice, an entry is what is read under its name. -/
theorem mem_iff_get?_eq_some (h : fields.names.Nodup) :
    (name, value) ∈ fields ↔ fields.get? name = some value := by
  refine ⟨fun hmem => ?_, mem_of_get?_eq_some⟩
  induction fields with
  | nil => cases hmem
  | cons entry rest ih =>
    rw [names_cons, List.nodup_cons] at h
    rw [get?_cons]
    rcases List.mem_cons.1 hmem with rfl | hrest
    · rw [if_pos rfl]
    · have hn : entry.1 ≠ name := fun heq => h.1 (heq ▸ mem_names_of_mem hrest)
      rw [if_neg hn]
      exact ih h.2 hrest

/-- Where no name occurs twice, entries are read in whatever order they stand. -/
theorem get?_of_perm {reordered : Fields α} (h : fields.names.Nodup) (hperm : fields.Perm reordered)
    (name : String) : fields.get? name = reordered.get? name := by
  have h' : reordered.names.Nodup := (hperm.map Prod.fst).nodup h
  refine Option.ext fun value => ?_
  rw [← mem_iff_get?_eq_some h, ← mem_iff_get?_eq_some h', hperm.mem_iff]

/-- Of all writes to one name the last counts. -/
theorem get?_merge (fields later : Fields α) (name : String) :
    (fields.merge later).get? name = (get? later.reverse name).or (fields.get? name) := by
  induction later generalizing fields with
  | nil => rfl
  | cons entry rest ih =>
    show (merge (fields.insert entry.1 entry.2) rest).get? name = _
    rw [ih, List.reverse_cons, get?_append, get?_insert, Option.or_assoc, get?_cons]
    split <;> rfl

/-- Where no name occurs twice it does not matter from which side a name is sought. -/
theorem get?_reverse_of_nodup (h : fields.names.Nodup) (name : String) :
    get? fields.reverse name = get? fields name :=
  (get?_of_perm h fields.reverse_perm.symm name).symm

/-- Writes that name nothing twice are read before what they were written over. -/
theorem get?_merge_of_nodup {later : Fields α} (h : later.names.Nodup) (fields : Fields α)
    (name : String) : (fields.merge later).get? name = (later.get? name).or (fields.get? name) := by
  rw [get?_merge, get?_reverse_of_nodup h]

theorem insert_right_inj {fields : Fields α} {name : String} {first second : α} :
    fields.insert name first = fields.insert name second ↔ first = second := by
  refine ⟨fun h => ?_, fun h => h ▸ rfl⟩
  have hread := congrArg (fun fields => get? fields name) h
  simpa only [get?_insert, if_pos, Option.some.injEq] using hread

/-! ## A write in place -/

/-- The entry that is read stands behind entries of other names. -/
theorem exists_split_of_get?_eq_some (h : fields.get? name = some value) :
    ∃ front behind : Fields α, fields = front ++ (name, value) :: behind ∧ name ∉ front.names := by
  induction fields with
  | nil => cases h
  | cons entry rest ih =>
    rw [get?_cons] at h
    split at h
    · next hname =>
      obtain rfl := Option.some.inj h
      exact ⟨[], rest, by rw [← hname]; rfl, List.not_mem_nil⟩
    · next hname =>
      obtain ⟨front, behind, rfl, hfront⟩ := ih h
      refine ⟨entry :: front, behind, rfl, ?_⟩
      rw [names_cons, List.mem_cons, not_or]
      exact ⟨Ne.symm hname, hfront⟩

theorem get?_append_cons_self {front : Fields α} (h : name ∉ front.names) (value : α)
    (behind : Fields α) : get? (front ++ (name, value) :: behind) name = some value := by
  rw [get?_append, get?_eq_none_iff.2 h, Option.none_or, get?_cons, if_pos rfl]

/-- It is written over in its place. -/
theorem insert_append_cons_self {front : Fields α} (h : name ∉ front.names) (first second : α)
    (behind : Fields α) :
    insert (front ++ (name, first) :: behind) name second = front ++ (name, second) :: behind := by
  induction front with
  | nil => exact if_pos rfl
  | cons entry rest ih =>
    rw [names_cons, List.mem_cons, not_or] at h
    rw [List.cons_append, insert, if_neg (Ne.symm h.1), ih h.2, List.cons_append]

/-! ## Writes among ascending names -/

/-- A sorted write is seen under its own name and under no other. -/
theorem get?_insertSorted (fields : Fields α) (name : String) (value : α) (other : String) :
    (fields.insertSorted name value).get? other =
      if name = other then some value else fields.get? other := by
  induction fields with
  | nil => rfl
  | cons first rest ih =>
    rw [insertSorted]
    split
    · next hname => rw [get?_cons, get?_cons, hname]; split <;> rfl
    · next hname =>
      split
      · rw [get?_cons]
      · rw [get?_cons, get?_cons, ih]
        by_cases hother : name = other
        · rw [if_pos hother, if_neg fun heq => hname (heq.trans hother.symm)]
          exact (if_pos hother).symm
        · rw [if_neg hother, if_neg hother]

/-- So are sorted writes of entries that name nothing twice. -/
theorem get?_foldl_insertSorted {later : Fields α} (h : later.names.Nodup) (fields : Fields α)
    (name : String) :
    get? (later.foldl (fun acc entry => acc.insertSorted entry.1 entry.2) fields) name =
      (later.get? name).or (fields.get? name) := by
  induction later generalizing fields with
  | nil => rfl
  | cons entry rest ih =>
    obtain ⟨hnew, hrest⟩ := List.nodup_cons.1 h
    rw [List.foldl_cons, ih hrest, get?_insertSorted, get?_cons]
    split
    · next hname =>
      have hnone : get? rest name = none := get?_eq_none_iff.2 (hname ▸ hnew)
      rw [hnone]
      rfl
    · rfl

/-- A sorted write brings in no entry but its own. -/
theorem mem_of_mem_insertSorted {entry : String × α}
    (h : entry ∈ fields.insertSorted name value) : entry = (name, value) ∨ entry ∈ fields := by
  induction fields with
  | nil => exact .inl (List.mem_singleton.1 h)
  | cons first rest ih =>
    rw [insertSorted] at h
    split at h
    · next hname =>
      rcases List.mem_cons.1 h with rfl | hrest
      · exact .inl (congrArg (·, value) hname)
      · exact .inr (List.mem_cons_of_mem _ hrest)
    · split at h
      · exact List.mem_cons.1 h
      · rcases List.mem_cons.1 h with rfl | hrest
        · exact .inr List.mem_cons_self
        · exact (ih hrest).imp_right (List.mem_cons_of_mem _)

/-- A sorted write keeps the names in ascending order. -/
theorem ascending_insertSorted (h : fields.names.Pairwise (· < ·)) (name : String) (value : α) :
    (fields.insertSorted name value).names.Pairwise (· < ·) := by
  induction fields with
  | nil => exact List.pairwise_singleton _ _
  | cons first rest ih =>
    obtain ⟨hfirst, hrest⟩ := List.pairwise_cons.1 h
    rw [insertSorted]
    split
    · exact List.pairwise_cons.2 ⟨hfirst, hrest⟩
    · next hne =>
      split
      · next hlt =>
        refine List.pairwise_cons.2 ⟨fun later hlater => ?_, h⟩
        rcases List.mem_cons.1 hlater with rfl | hmem
        · exact hlt
        · exact String.lt_trans hlt (hfirst later hmem)
      · next hnot =>
        have hlt : first.1 < name := Std.lt_of_le_of_ne (String.not_lt.1 hnot) hne
        refine List.pairwise_cons.2 ⟨fun later hlater => ?_, ih hrest⟩
        obtain ⟨entry, hmem, rfl⟩ := List.mem_map.1 hlater
        rcases mem_of_mem_insertSorted hmem with rfl | hold
        · exact hlt
        · exact hfirst _ (List.mem_map_of_mem hold)

/-! ## The last pair of each name -/

/-- The pairs whose name does not occur again behind them. -/
def lastPairs : List (String × α) → List (String × α)
  | [] => []
  | pair :: rest => if pair.1 ∈ names rest then lastPairs rest else pair :: lastPairs rest

theorem mem_of_mem_lastPairs {pairs : List (String × α)} {pair : String × α}
    (h : pair ∈ lastPairs pairs) : pair ∈ pairs := by
  induction pairs with
  | nil => cases h
  | cons first rest ih =>
    rw [lastPairs] at h
    split at h
    · exact List.mem_cons_of_mem _ (ih h)
    · rcases List.mem_cons.1 h with rfl | h
      · exact List.mem_cons_self
      · exact List.mem_cons_of_mem _ (ih h)

/-- The last pairs are those that are read from behind. -/
theorem mem_lastPairs_iff {pairs : List (String × α)} :
    (name, value) ∈ lastPairs pairs ↔ get? pairs.reverse name = some value := by
  induction pairs with
  | nil => simp [lastPairs]
  | cons first rest ih =>
    have hrest : get? rest.reverse name = none ↔ name ∉ names rest := get?_reverse_eq_none_iff
    rw [List.reverse_cons, get?_append, get?_cons, get?_nil, lastPairs]
    by_cases hname : first.1 = name
    · by_cases hlater : first.1 ∈ names rest
      · -- the name occurs again, so the first pair is not asked
        obtain ⟨v, hv⟩ := Option.ne_none_iff_exists'.1 (mt hrest.1 (not_not_intro (hname ▸ hlater)))
        rw [if_pos hlater, ih, hv]
        rfl
      · have hnone := hrest.2 (hname ▸ hlater)
        rw [hnone] at ih
        rw [if_neg hlater, List.mem_cons, ih, hnone, if_pos hname]
        simp [← hname, Prod.ext_iff, eq_comm]
    · have hfirst : (name, value) ≠ first := fun h => hname (h ▸ rfl)
      rw [if_neg hname, Option.or_none, ← ih]
      split
      · exact Iff.rfl
      · rw [List.mem_cons, or_iff_right hfirst]

/-- A name has one last pair at most. -/
theorem eq_of_mem_lastPairs {pairs : List (String × α)} {first second : α}
    (h : (name, first) ∈ lastPairs pairs) (h' : (name, second) ∈ lastPairs pairs) :
    first = second := by
  rw [mem_lastPairs_iff] at h h'
  exact Option.some.inj (h.symm.trans h')

/-- Every name that occurs has a last pair. -/
theorem exists_mem_lastPairs {pairs : List (String × α)} (h : name ∈ names pairs) :
    ∃ value, (name, value) ∈ lastPairs pairs := by
  have hsome : get? pairs.reverse name ≠ none := fun hnone => get?_reverse_eq_none_iff.1 hnone h
  obtain ⟨value, hvalue⟩ := Option.ne_none_iff_exists'.1 hsome
  exact ⟨value, mem_lastPairs_iff.2 hvalue⟩

/-- Pairs that name nothing twice are the last ones of their names. -/
theorem lastPairs_of_nodup {pairs : List (String × α)} (h : (names pairs).Nodup) :
    lastPairs pairs = pairs := by
  induction pairs with
  | nil => rfl
  | cons first rest ih =>
    rw [names_cons, List.nodup_cons] at h
    rw [lastPairs, if_neg h.1, ih h.2]

/-- Gathering pairs keeps the last pair of each name. -/
theorem mem_ofPairs_iff {pairs : List (String × α)} {pair : String × α} :
    pair ∈ ofPairs pairs ↔ pair ∈ lastPairs pairs := by
  obtain ⟨name, value⟩ := pair
  rw [mem_iff_get?_eq_some (nodup_names_ofPairs pairs), mem_lastPairs_iff, ofPairs, get?_merge,
    get?_nil, Option.or_none]

/-- A new name goes to the end. -/
theorem insert_of_not_mem (h : name ∉ fields.names) (value : α) :
    fields.insert name value = fields ++ [(name, value)] := by
  induction fields with
  | nil => rfl
  | cons entry rest ih =>
    rw [names_cons, List.mem_cons, not_or] at h
    rw [insert, if_neg (Ne.symm h.1), ih h.2, List.cons_append]

/-- Writes under new names, none of them twice, go to the end. -/
theorem merge_of_nodup {later : Fields α} (h : (names (fields ++ later)).Nodup) :
    fields.merge later = fields ++ later := by
  induction later generalizing fields with
  | nil => exact (List.append_nil fields).symm
  | cons entry rest ih =>
    rw [List.append_cons] at h ⊢
    have hnew : entry.1 ∉ fields.names := by
      intro hmem
      rw [names_append, names_append] at h
      exact (List.nodup_append.1 (List.nodup_append.1 h).1).2.2 _ hmem _ (by simp) rfl
    rw [← insert_of_not_mem hnew] at h ⊢
    exact ih h

/-- Pairs that name nothing twice are gathered as they are. -/
theorem ofPairs_of_nodup {pairs : List (String × α)} (h : (names pairs).Nodup) :
    ofPairs pairs = pairs :=
  merge_of_nodup h

/-! ## The order of writes -/

/-- Of two writes under one name the second counts. -/
theorem insert_insert (fields : Fields α) (name : String) (first second : α) :
    (fields.insert name first).insert name second = fields.insert name second := by
  induction fields with
  | nil => simp [insert]
  | cons entry rest ih =>
    by_cases hn : entry.1 = name
    · simp [insert, hn]
    · rw [insert, if_neg hn, insert, if_neg hn, ih, insert, if_neg hn]

/-- Of two writes under different names, one of which is known, either may come first. -/
theorem insert_comm_of_mem {other : String} (hne : name ≠ other) (hmem : name ∈ fields.names)
    (value later : α) :
    (fields.insert name value).insert other later = (fields.insert other later).insert name value := by
  induction fields with
  | nil => cases hmem
  | cons entry rest ih =>
    rw [names_cons, List.mem_cons] at hmem
    by_cases hn : entry.1 = name
    · simp [insert, hn, hne]
    · by_cases ho : entry.1 = other
      · simp [insert, ho, hne.symm]
      · simp [insert, hn, ho, ih (hmem.resolve_left (Ne.symm hn))]

/-- A write under a known name may be done before others that do not mention it. -/
theorem insert_merge_of_mem {later : Fields α} (hmem : name ∈ fields.names)
    (hnew : name ∉ later.names) (value : α) :
    (fields.merge later).insert name value = (fields.insert name value).merge later := by
  induction later generalizing fields with
  | nil => rfl
  | cons entry rest ih =>
    rw [names_cons, List.mem_cons, not_or] at hnew
    have hkept : name ∈ (fields.insert entry.1 entry.2).names := by
      rw [names_insert]
      split
      · exact hmem
      · exact List.mem_append_left _ hmem
    show (merge (fields.insert entry.1 entry.2) rest).insert name value =
      merge ((fields.insert name value).insert entry.1 entry.2) rest
    rw [ih hkept hnew.2, insert_comm_of_mem hnew.1 hmem]

/-- A write may be added to a row of writes instead of being done after it. -/
theorem merge_insert {later : Fields α} (h : later.names.Nodup) (fields : Fields α) (name : String)
    (value : α) : fields.merge (later.insert name value) = (fields.merge later).insert name value := by
  induction later generalizing fields with
  | nil => rfl
  | cons entry rest ih =>
    rw [names_cons, List.nodup_cons] at h
    by_cases hn : entry.1 = name
    · -- no other write of the row has this name, so the new value may be written at once
      have hmem : name ∈ (fields.insert name entry.2).names := by
        rw [names_insert]
        split
        · assumption
        · exact List.mem_append_right _ List.mem_cons_self
      rw [insert, if_pos hn]
      show merge (fields.insert entry.1 value) rest =
        (merge (fields.insert entry.1 entry.2) rest).insert name value
      rw [hn, insert_merge_of_mem hmem (hn ▸ h.1), insert_insert]
    · rw [insert, if_neg hn]
      exact ih h.2 (fields.insert entry.1 entry.2)

/-- Two rows of writes may be gathered into one. -/
theorem merge_merge {later : Fields α} (h : later.names.Nodup) (fields last : Fields α) :
    (fields.merge later).merge last = fields.merge (later.merge last) := by
  induction last generalizing later with
  | nil => rfl
  | cons entry rest ih =>
    show ((fields.merge later).insert entry.1 entry.2).merge rest =
      fields.merge ((later.insert entry.1 entry.2).merge rest)
    rw [← merge_insert h, ih (nodup_names_insert h _ _)]

/-- Writes under other names leave the first entry in front. -/
theorem merge_cons {later : Fields α} (hnew : name ∉ later.names) (fields : Fields α) (value : α) :
    merge ((name, value) :: fields) later = (name, value) :: fields.merge later := by
  induction later generalizing fields with
  | nil => rfl
  | cons entry rest ih =>
    rw [names_cons, List.mem_cons, not_or] at hnew
    show merge (insert ((name, value) :: fields) entry.1 entry.2) rest =
      (name, value) :: merge (fields.insert entry.1 entry.2) rest
    rw [insert, if_neg hnew.1, ih hnew.2]

/-- Writing entries over themselves changes nothing. -/
theorem merge_self (h : fields.names.Nodup) : fields.merge fields = fields := by
  induction fields with
  | nil => rfl
  | cons entry rest ih =>
    rw [names_cons, List.nodup_cons] at h
    show merge (insert (entry :: rest) entry.1 entry.2) rest = entry :: rest
    rw [insert, if_pos rfl, merge_cons h.1, ih h.2]

theorem insert_append_of_mem (hmem : name ∈ fields.names) (back : Fields α) (value : α) :
    insert (fields ++ back) name value = fields.insert name value ++ back := by
  induction fields with
  | nil => cases hmem
  | cons entry rest ih =>
    rw [names_cons, List.mem_cons] at hmem
    rw [List.cons_append, insert, insert]
    split
    · rfl
    · next hn => rw [ih (hmem.resolve_left (Ne.symm hn)), List.cons_append]

theorem names_insert_of_mem (hmem : name ∈ fields.names) (value : α) :
    (fields.insert name value).names = fields.names := by
  rw [names_insert, if_pos hmem]

/-- Writes under known names leave the names as they are. -/
theorem names_merge_of_mem {later : Fields α} (h : ∀ name ∈ later.names, name ∈ fields.names) :
    (fields.merge later).names = fields.names := by
  induction later generalizing fields with
  | nil => rfl
  | cons entry rest ih =>
    rw [names_cons, List.forall_mem_cons] at h
    have hnames := names_insert_of_mem h.1 entry.2
    show (merge (fields.insert entry.1 entry.2) rest).names = fields.names
    rw [ih (hnames ▸ h.2), hnames]

/-- Writes under known names are done in place, whatever stands behind. -/
theorem merge_append_of_mem {later : Fields α} (h : ∀ name ∈ later.names, name ∈ fields.names)
    (back : Fields α) : merge (fields ++ back) later = fields.merge later ++ back := by
  induction later generalizing fields with
  | nil => rfl
  | cons entry rest ih =>
    rw [names_cons, List.forall_mem_cons] at h
    have hnames := names_insert_of_mem h.1 entry.2
    show merge (insert (fields ++ back) entry.1 entry.2) rest =
      merge (fields.insert entry.1 entry.2) rest ++ back
    rw [insert_append_of_mem h.1, ih (hnames ▸ h.2)]

/-- Writes under known names, none of them twice, may come in any order. -/
theorem merge_of_perm {later reordered : Fields α} (hperm : later.Perm reordered)
    (hnodup : later.names.Nodup) (h : ∀ name ∈ later.names, name ∈ fields.names) :
    fields.merge later = fields.merge reordered := by
  induction hperm generalizing fields with
  | nil => rfl
  | cons entry hrest ih =>
    rw [names_cons, List.nodup_cons] at hnodup
    rw [names_cons, List.forall_mem_cons] at h
    have hnames := names_insert_of_mem h.1 entry.2
    exact ih hnodup.2 (hnames ▸ h.2)
  | swap first second rest =>
    rw [names_cons, names_cons, List.nodup_cons, List.mem_cons, not_or] at hnodup
    rw [names_cons, List.forall_mem_cons] at h
    show merge ((fields.insert second.1 second.2).insert first.1 first.2) rest =
      merge ((fields.insert first.1 first.2).insert second.1 second.2) rest
    rw [insert_comm_of_mem hnodup.1.1 h.1]
  | trans hfirst hsecond ihfirst ihsecond =>
    have hnames := hfirst.map Prod.fst
    rw [ihfirst hnodup h]
    refine ihsecond (hnames.nodup_iff.1 hnodup) fun name hname => ?_
    exact h name (hnames.mem_iff.2 hname)

/-- Of a row of writes that names nothing twice, those under known names are done in place, and the
others follow at the end in their order. -/
theorem merge_eq_append {later : Fields α} (h : later.names.Nodup) (fields : Fields α) :
    fields.merge later = fields.merge (later.filter fun entry => entry.1 ∈ fields.names) ++
      later.filter fun entry => entry.1 ∉ fields.names := by
  induction later generalizing fields with
  | nil => exact (List.append_nil fields).symm
  | cons entry rest ih =>
    rw [names_cons, List.nodup_cons] at h
    by_cases hmem : entry.1 ∈ fields.names
    · have hnames := names_insert_of_mem hmem entry.2
      have hrest := ih h.2 (fields.insert entry.1 entry.2)
      rw [hnames] at hrest
      rw [List.filter_cons_of_pos (by simp [hmem]), List.filter_cons_of_neg (by simp [hmem])]
      exact hrest
    · have hrest := ih h.2 (fields ++ [entry])
      -- the new name occurs no second time, so the rest is split as before
      have hsplit : ∀ other ∈ rest, (other.1 ∈ names (fields ++ [entry]) ↔ other.1 ∈ fields.names) := by
        intro other hother
        have hne : other.1 ≠ entry.1 := fun heq => h.1 (heq ▸ List.mem_map_of_mem hother)
        simp [names, hne]
      have hin : rest.filter (fun other => other.1 ∈ names (fields ++ [entry])) =
          rest.filter fun other => other.1 ∈ fields.names :=
        List.filter_congr fun other hother => by simp [hsplit other hother]
      have hout : rest.filter (fun other => other.1 ∉ names (fields ++ [entry])) =
          rest.filter fun other => other.1 ∉ fields.names :=
        List.filter_congr fun other hother => by simp [hsplit other hother]
      have hknown : ∀ name ∈ names (rest.filter fun other => other.1 ∈ fields.names),
          name ∈ fields.names := by
        intro name hname
        obtain ⟨other, hother, rfl⟩ := List.mem_map.1 hname
        exact of_decide_eq_true (List.mem_filter.1 hother).2
      rw [hin, hout, merge_append_of_mem hknown, List.append_assoc] at hrest
      rw [List.filter_cons_of_neg (by simp [hmem]), List.filter_cons_of_pos (by simp [hmem])]
      show (fields.insert entry.1 entry.2).merge rest = _
      rw [insert_of_not_mem hmem]
      exact hrest

/-! ## Changing values -/

theorem insert_map (f : α → β) (fields : Fields α) (name : String) (value : α) :
    (fields.insert name value).map (fun entry => (entry.1, f entry.2)) =
      insert (fields.map fun entry => (entry.1, f entry.2)) name (f value) := by
  induction fields with
  | nil => rfl
  | cons entry rest ih =>
    simp only [insert, List.map_cons]
    split
    · rfl
    · rw [List.map_cons, ih]

theorem get?_map (f : α → β) (fields : Fields α) (name : String) :
    get? (fields.map fun entry => (entry.1, f entry.2)) name = (fields.get? name).map f := by
  induction fields with
  | nil => rfl
  | cons entry rest ih =>
    rw [List.map_cons, get?_cons, get?_cons, ih]
    split <;> rfl

/-- Values may be changed before or after the pairs are gathered. -/
theorem ofPairs_map (f : α → β) (pairs : List (String × α)) :
    ofPairs (pairs.map fun pair => (pair.1, f pair.2)) =
      (ofPairs pairs).map fun pair => (pair.1, f pair.2) := by
  have hmerge (fields : Fields α) :
      merge (fields.map fun entry => (entry.1, f entry.2))
        (pairs.map fun pair => (pair.1, f pair.2)) =
      (merge fields pairs).map fun pair => (pair.1, f pair.2) := by
    induction pairs generalizing fields with
    | nil => rfl
    | cons pair rest ih =>
      rw [List.map_cons]
      show merge (insert _ pair.1 (f pair.2)) _ = (merge (fields.insert pair.1 pair.2) rest).map _
      rw [← insert_map, ih]
  exact hmerge []

/-! ## Leaving a name out -/

theorem without_insert (fields : Fields α) (name : String) (value : α) (other : String) :
    (fields.insert name value).without other =
      if name = other then fields.without other else (fields.without other).insert name value := by
  induction fields with
  | nil =>
    by_cases hname : name = other
    · simp [insert, without, hname]
    · simp [insert, without, hname]
  | cons entry rest ih =>
    unfold without at ih ⊢
    by_cases hentry : entry.1 = name
    · by_cases hname : name = other
      · simp [insert, hentry, hname]
      · simp [insert, hentry, hname]
    · rw [insert, if_neg hentry]
      by_cases hother : entry.1 = other
      · rw [List.filter_cons_of_neg (by simp [hother]), ih,
          List.filter_cons_of_neg (by simp [hother])]
      · rw [List.filter_cons_of_pos (by simp [hother]), ih,
          List.filter_cons_of_pos (by simp [hother])]
        by_cases hname : name = other
        · simp [hname]
        · simp [hname, insert, hentry]

/-- A name may be left out before or after a row of writes. -/
theorem without_merge (fields later : Fields α) (name : String) :
    (fields.merge later).without name = (fields.without name).merge (later.without name) := by
  induction later generalizing fields with
  | nil => rfl
  | cons entry rest ih =>
    show (merge (fields.insert entry.1 entry.2) rest).without name = _
    rw [ih, without_insert]
    by_cases hname : entry.1 = name
    · simp [without, hname]
    · simp [without, hname, merge]

/-- Leaving the name out of a row that starts with it, and with it alone, leaves the rest. -/
theorem without_cons_self (h : (name :: fields.names).Nodup) (value : α) :
    without ((name, value) :: fields) name = fields := by
  have hne : ∀ entry ∈ fields, entry.1 ≠ name := by
    intro entry hentry heq
    exact (List.nodup_cons.1 h).1 (heq ▸ List.mem_map_of_mem hentry)
  rw [without, List.filter_cons_of_neg (by simp)]
  exact List.filter_eq_self.2 fun entry hentry => decide_eq_true (hne entry hentry)

theorem without_without (fields : Fields α) (name : String) :
    (fields.without name).without name = fields.without name := by
  simp [without]

/-- The entries of all names but those of a list. -/
def withoutAll (fields : Fields α) (names : List String) : Fields α :=
  fields.filter fun entry => entry.1 ∉ names

/-- A write under a name that is left out is not seen, in the entries or in their order. -/
theorem withoutAll_insert {names : List String} (h : name ∈ names) (fields : Fields α) (value : α) :
    (fields.insert name value).withoutAll names = fields.withoutAll names := by
  induction fields with
  | nil => simp [insert, withoutAll, h]
  | cons entry rest ih =>
    unfold withoutAll at ih ⊢
    rw [insert]
    split
    · next hname =>
      rw [List.filter_cons_of_neg (by simp [hname, h]), List.filter_cons_of_neg (by simp [hname, h])]
    · rw [List.filter_cons, List.filter_cons, ih]

/-! ## Entries side by side -/

/-- Entries stand side by side with others, of the same names and with related values. -/
def Paired (related : α → β → Prop) : List (String × α) → List (String × β) → Prop :=
  List.Forall₂ fun entry other => entry.1 = other.1 ∧ related entry.2 other.2

namespace Paired

variable {related : α → β → Prop} {others : List (String × β)}

theorem names_eq (h : Paired related fields others) : names others = names fields := by
  induction h with
  | nil => rfl
  | cons hfirst _ ih => rw [names_cons, names_cons, ih, hfirst.1]

/-- What is read under a name on one side is related to what is read under it on the other. -/
theorem rel_get? (h : Paired related fields others) (name : String) :
    Option.Rel related (get? fields name) (get? others name) := by
  induction h with
  | nil => exact .none
  | cons hfirst _ ih =>
    rw [get?_cons, get?_cons, hfirst.1]
    split
    · exact .some hfirst.2
    · exact ih

/-- Related values under the same names stand side by side. -/
theorem zip {values : List α} {relatives : List β} (h : List.Forall₂ related values relatives)
    (names : List String) : Paired related (names.zip values) (names.zip relatives) := by
  induction h generalizing names with
  | nil =>
    rw [List.zip_nil_right, List.zip_nil_right]
    exact .nil
  | cons hfirst _ ih =>
    cases names with
    | nil => exact .nil
    | cons first rest => exact .cons ⟨rfl, hfirst⟩ (ih rest)

end Paired

/-! ## Several rows of writes -/

/-- The value of a name in the last of several rows that mentions it. Within a row, too, the last
entry of a name counts. -/
def latest? (rows : List (Fields α)) (name : String) : Option α :=
  rows.reverse.findSome? fun row => get? row.reverse name

theorem latest?_eq_none_iff {rows : List (Fields α)} :
    latest? rows name = none ↔ ∀ row ∈ rows, name ∉ row.names := by
  unfold latest?
  simp only [List.findSome?_eq_none_iff, List.mem_reverse, get?_reverse_eq_none_iff]

/-- Of several rows of writes the last that mentions a name counts. -/
theorem get?_foldl_merge (fields : Fields α) (rows : List (Fields α)) (name : String) :
    get? (rows.foldl merge fields) name = (latest? rows name).or (fields.get? name) := by
  unfold latest?
  induction rows generalizing fields with
  | nil => rfl
  | cons row rest ih =>
    rw [List.foldl_cons, ih, get?_merge, List.reverse_cons, List.findSome?_append, Option.or_assoc]
    congr 1
    rw [List.findSome?_cons]
    cases get? row.reverse name <;> rfl

end DocumentStore.Fields
