import DocumentStore.Proofs.Fields

/-!
# What is kept of entries that are given in turn

Entries are given one after the other, and a name may be given several times. What is kept of them
is an insertion-ordered map: each name once, in the order in which the names were first given, and
under each name the entry that was given last.

* `Keeps` says this without the writes that bring it about, and of entries that are made into others
  on the way;
* `Keeps.insert` is what one write does, and `keeps_ofPairs` what a row of writes does;
* `keeps_of_paired`: where no name is given twice, everything is kept as it is given.
-/

namespace DocumentStore.Fields

variable {α β : Type} {related : α → β → Prop} {given : List (String × α)} {kept : Fields β}

/-- What is kept of given entries: no name twice, the names in the order in which they were first
given, and under each name what is related to the entry that was given last. -/
structure Keeps (related : α → β → Prop) (given : List (String × α)) (kept : Fields β) : Prop where
  nodup : kept.names.Nodup
  names_eq : kept.names = (names given).eraseDups
  last : ∀ name, Option.Rel related (get? given.reverse name) (kept.get? name)

/-! ## One write -/

theorem keeps_nil : Keeps related ([] : List (String × α)) [] :=
  ⟨List.nodup_nil, rfl, fun _ => .none⟩

/-- Of a name that is given once more the first place counts. -/
theorem eraseDups_concat (front : List String) (name : String) :
    (front ++ [name]).eraseDups =
      if name ∈ front.eraseDups then front.eraseDups else front.eraseDups ++ [name] := by
  rw [List.eraseDups_append]
  by_cases hname : name ∈ front
  · simp [List.removeAll, hname]
  · simp [List.removeAll, hname, List.eraseDups_cons]

/-- An entry that is given is written, and with it what was given is kept. -/
theorem Keeps.insert {a : α} {b : β} (h : Keeps related given kept) (hrelated : related a b)
    (name : String) : Keeps related (given ++ [(name, a)]) (kept.insert name b) where
  nodup := nodup_names_insert h.nodup name b
  names_eq := by
    rw [names_insert, h.names_eq, names_append]
    exact (eraseDups_concat (names given) name).symm
  last other := by
    rw [List.reverse_append, get?_insert]
    show Option.Rel related (get? ((name, a) :: given.reverse) other) _
    rw [get?_cons]
    split
    · exact .some hrelated
    · exact h.last other

/-! ## Rows of writes -/

theorem Keeps.merge {kept given : Fields α} (h : Keeps (· = ·) given kept) (later : Fields α) :
    Keeps (· = ·) (given ++ later) (kept.merge later) := by
  induction later generalizing given kept with
  | nil => rwa [List.append_nil]
  | cons entry rest ih =>
    rw [List.append_cons]
    exact ih (h.insert rfl entry.1)

/-- Gathering entries keeps what is given. -/
theorem keeps_ofPairs (pairs : List (String × α)) : Keeps (· = ·) pairs (ofPairs pairs) :=
  Keeps.merge keeps_nil pairs

theorem eraseDups_of_nodup {row : List String} (h : row.Nodup) : row.eraseDups = row := by
  induction row with
  | nil => rfl
  | cons name rest ih =>
    obtain ⟨hnew, hrest⟩ := List.nodup_cons.1 h
    have hothers : rest.filter (fun other => !other == name) = rest :=
      List.filter_eq_self.2 fun other hother => by simp [ne_of_mem_of_not_mem hother hnew]
    rw [List.eraseDups_cons, hothers, ih hrest]

/-- Where no name is given twice, everything is kept as it is given. -/
theorem keeps_of_paired (hnodup : (names given).Nodup) (h : Paired related given kept) :
    Keeps related given kept where
  nodup := h.names_eq ▸ hnodup
  names_eq := by rw [h.names_eq, eraseDups_of_nodup hnodup]
  last name := by
    rw [get?_reverse_of_nodup hnodup]
    exact h.rel_get? name

/-! ## What is kept -/

/-- A kept entry comes from the last one that was given under its name. -/
theorem Keeps.exists_last {name : String} {b : β} (h : Keeps related given kept)
    (hmem : (name, b) ∈ kept) : ∃ a, get? given.reverse name = some a ∧ related a b := by
  have hlast := h.last name
  rw [(mem_iff_get?_eq_some h.nodup).1 hmem] at hlast
  cases hget : get? given.reverse name with
  | none => rw [hget] at hlast; cases hlast
  | some a =>
    rw [hget] at hlast
    cases hlast with
    | some hrelated => exact ⟨a, rfl, hrelated⟩

end DocumentStore.Fields
