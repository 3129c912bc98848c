/-!
# Named entries in order

A `Fields α` is a list of named entries. It is the one container behind documents, filters and
join specifications, and its rule is the same for all of them: a name that is already there is
written in place, a new name goes to the end.

* `get?_insert` says what a write does to every later read;
* `names_insert` says what it does to the order of the names;
* `nodup_names_ofPairs`: entries gathered one by one never name anything twice.
-/

namespace DocumentStore

/-- Named entries, in the order in which their names were first mentioned. -/
abbrev Fields (α : Type) := List (String × α)

namespace Fields

variable {α : Type}

/-! ## Reading -/

/-- The names, in order. -/
def names (fields : Fields α) : List String := fields.map Prod.fst

/-- The entry of a name; where a name occurs twice the first entry counts. -/
def get? : Fields α → String → Option α
  | [], _ => none
  | (n, v) :: rest, name => if n = name then some v else get? rest name

/-- The entries of all names but one. -/
def without (fields : Fields α) (name : String) : Fields α :=
  fields.filter fun entry => entry.1 ≠ name

/-! ## Writing -/

/-- Writes an entry: in place where the name is known, at the end where it is new. -/
def insert : Fields α → String → α → Fields α
  | [], name, value => [(name, value)]
  | (n, v) :: rest, name, value =>
    if n = name then (n, value) :: rest else (n, v) :: insert rest name value

/-- Writes the entries of `later` over `fields`, one after the other. -/
def merge (fields later : Fields α) : Fields α :=
  later.foldl (fun acc entry => acc.insert entry.1 entry.2) fields

/-- Gathers entries one by one, so that a name mentioned again keeps its first place and takes
its last value. -/
def ofPairs (pairs : List (String × α)) : Fields α := merge [] pairs

/-- Writes an entry among names kept in ascending order; a known name takes the new value. -/
def insertSorted : Fields α → String → α → Fields α
  | [], name, value => [(name, value)]
  | (n, v) :: rest, name, value =>
    if n = name then (n, value) :: rest
    else if name < n then (name, value) :: (n, v) :: rest
    else (n, v) :: insertSorted rest name value

/-! ## What a write does to a read -/

@[simp] theorem get?_nil (name : String) : get? ([] : Fields α) name = none := rfl

theorem get?_cons (entry : String × α) (rest : Fields α) (name : String) :
    get? (entry :: rest) name = if entry.1 = name then some entry.2 else get? rest name := rfl

/-- A write is seen under its own name and under no other. -/
theorem get?_insert (fields : Fields α) (name : String) (value : α) (other : String) :
    (fields.insert name value).get? other =
      if name = other then some value else fields.get? other := by
  induction fields with
  | nil => simp [insert, get?]
  | cons entry rest ih =>
    by_cases hn : entry.1 = name
    · simp only [insert, if_pos hn, get?_cons]
      by_cases ho : name = other
      · simp [hn, ho]
      · simp [hn, ho]
    · simp only [insert, if_neg hn, get?_cons, ih]
      by_cases ho : name = other
      · have : entry.1 ≠ other := ho ▸ hn
        simp [ho, this]
      · simp [ho]

/-- Entries of other names are still there when one name is left out. -/
theorem get?_without (fields : Fields α) (name other : String) :
    (fields.without name).get? other = if name = other then none else fields.get? other := by
  induction fields with
  | nil => simp [without]
  | cons entry rest ih =>
    unfold without at ih ⊢
    by_cases hn : entry.1 = name
    · rw [List.filter_cons_of_neg (by simp [hn]), ih, get?_cons]
      by_cases ho : name = other
      · simp [ho]
      · have : entry.1 ≠ other := fun h => ho (hn ▸ h)
        simp [ho, this]
    · rw [List.filter_cons_of_pos (by simp [hn]), get?_cons, ih, get?_cons]
      by_cases ho : name = other
      · have : entry.1 ≠ other := ho ▸ hn
        simp [ho, this]
      · simp [ho]

/-! ## What a write does to the order of the names -/

@[simp] theorem names_nil : names ([] : Fields α) = [] := rfl

@[simp] theorem names_cons (entry : String × α) (rest : Fields α) :
    names (entry :: rest) = entry.1 :: names rest := rfl

/-- A known name leaves the order alone, a new name comes last. -/
theorem names_insert (fields : Fields α) (name : String) (value : α) :
    (fields.insert name value).names =
      if name ∈ fields.names then fields.names else fields.names ++ [name] := by
  induction fields with
  | nil => simp [insert]
  | cons entry rest ih =>
    by_cases hn : entry.1 = name
    · simp [insert, hn]
    · have : name ≠ entry.1 := fun h => hn h.symm
      simp only [insert, if_neg hn, names_cons, ih, List.mem_cons, this, false_or]
      split <;> simp

/-- The names that are left keep their order. -/
theorem names_without (fields : Fields α) (name : String) :
    (fields.without name).names = fields.names.filter (· ≠ name) := by
  unfold without names
  rw [List.filter_map]
  rfl

/-- A write never names anything twice. -/
theorem nodup_names_insert {fields : Fields α} (h : fields.names.Nodup) (name : String)
    (value : α) : (fields.insert name value).names.Nodup := by
  rw [names_insert]
  split
  · exact h
  · next hn =>
    refine List.nodup_append.2 ⟨h, by simp, fun a ha b hb hab => ?_⟩
    rw [List.mem_singleton] at hb
    exact hn (hb ▸ hab ▸ ha)

/-- Nor does a row of writes. -/
theorem nodup_names_merge {fields : Fields α} (h : fields.names.Nodup) (later : Fields α) :
    (fields.merge later).names.Nodup := by
  induction later generalizing fields with
  | nil => exact h
  | cons entry rest ih => exact ih (nodup_names_insert h entry.1 entry.2)

/-- Entries gathered one by one never name anything twice. -/
theorem nodup_names_ofPairs (pairs : List (String × α)) : (ofPairs pairs).names.Nodup :=
  @nodup_names_merge α [] List.nodup_nil pairs

end Fields

end DocumentStore
