import Mathlib.Data.List.Forall2

/-!
# Steps that may fail

Laws of computations in `Except`. The library goes over lists in order and stops at the first
element that it cannot accept; `FirstFault` is what it then reports.

* `mapM_eq_ok_iff` and `mapM_eq_error_iff`: what a check of all elements answers;
* `eq_map_mapM`: a loop that checks its elements one by one while it builds up a state may as well
  check all of them first.
-/

namespace DocumentStore

variable {α β σ ε : Type}

theorem pure_eq_ok_iff {a b : α} : (pure a : Except ε α) = .ok b ↔ a = b :=
  ⟨Except.ok.inj, congrArg Except.ok⟩

/-- A computation in two steps succeeds when both steps do. -/
theorem bind_eq_ok_iff {x : Except ε α} {f : α → Except ε β} {b : β} :
    (x >>= f) = .ok b ↔ ∃ a, x = .ok a ∧ f a = .ok b := by
  cases x with
  | error e => exact ⟨fun h => (nomatch h), fun ⟨a, ha, _⟩ => (nomatch ha)⟩
  | ok a => exact ⟨fun h => ⟨a, rfl, h⟩, fun ⟨_, ha, hb⟩ => Except.ok.inj ha ▸ hb⟩

/-- It fails when the first step does, or the second on what the first has found. -/
theorem bind_eq_error_iff {x : Except ε α} {f : α → Except ε β} {fault : ε} :
    (x >>= f) = .error fault ↔ x = .error fault ∨ ∃ a, x = .ok a ∧ f a = .error fault := by
  cases x with
  | error e =>
    have herror : ((Except.error e : Except ε α) >>= f) = .error e := rfl
    simp [herror]
  | ok a =>
    have hok : ((Except.ok a : Except ε α) >>= f) = f a := rfl
    simp [hok]

/-- The fault of the first element of a list, in order, that a check turns down. -/
def FirstFault (check : α → Except ε β) (l : List α) (fault : ε) : Prop :=
  ∃ front a back, l = front ++ a :: back ∧
    (∀ earlier ∈ front, ∃ b, check earlier = .ok b) ∧ check a = .error fault

variable {check : α → Except ε β} {l : List α} {fault : ε}

theorem not_firstFault_nil : ¬ FirstFault check [] fault := by
  rintro ⟨front, a, back, h, -⟩
  cases front <;> cases h

theorem firstFault_cons {a : α} : FirstFault check (a :: l) fault ↔
    check a = .error fault ∨ (∃ b, check a = .ok b) ∧ FirstFault check l fault := by
  constructor
  · rintro ⟨_ | ⟨first, front⟩, bad, back, h, hfront, hbad⟩
    · obtain ⟨rfl, -⟩ := List.cons.inj h
      exact .inl hbad
    · obtain ⟨rfl, rfl⟩ := List.cons.inj h
      rw [List.forall_mem_cons] at hfront
      exact .inr ⟨hfront.1, front, bad, back, rfl, hfront.2, hbad⟩
  · rintro (hbad | ⟨hfirst, front, bad, back, rfl, hfront, hbad⟩)
    · exact ⟨[], a, l, rfl, fun _ h => (nomatch h), hbad⟩
    · exact ⟨a :: front, bad, back, rfl, List.forall_mem_cons.2 ⟨hfirst, hfront⟩, hbad⟩

/-- In a list with ascending keys the first fault is the one with the least key. -/
theorem firstFault_iff_of_ascending {key : α → String}
    (h : l.Pairwise fun earlier later => key earlier < key later) :
    FirstFault check l fault ↔ ∃ a ∈ l, check a = .error fault ∧
      ∀ earlier ∈ l, key earlier < key a → ∃ b, check earlier = .ok b := by
  constructor
  · rintro ⟨front, a, back, rfl, hfront, hbad⟩
    refine ⟨a, List.mem_append_right _ List.mem_cons_self, hbad, fun earlier hmem hlt => ?_⟩
    rcases List.mem_append.1 hmem with hmem | hmem
    · exact hfront earlier hmem
    · -- from `a` on the keys are not less
      rcases List.mem_cons.1 hmem with rfl | hmem
      · exact absurd hlt (String.lt_irrefl _)
      · have hback := List.rel_of_pairwise_cons (List.pairwise_append.1 h).2.1 hmem
        exact absurd hlt (String.lt_asymm hback)
  · rintro ⟨a, hmem, hbad, hearlier⟩
    obtain ⟨front, back, rfl⟩ := List.append_of_mem hmem
    refine ⟨front, a, back, rfl, fun earlier hfront => ?_, hbad⟩
    have hlt := (List.pairwise_append.1 h).2.2 earlier hfront a List.mem_cons_self
    exact hearlier earlier (List.mem_append_left _ hfront) hlt

/-! ## Checking all elements -/

/-- A check of all elements succeeds when it accepts each of them. -/
theorem mapM_eq_ok_iff {bs : List β} :
    l.mapM check = .ok bs ↔ List.Forall₂ (fun a b => check a = .ok b) l bs := by
  induction l generalizing bs with
  | nil =>
    rw [List.mapM_nil, List.forall₂_nil_left_iff]
    exact ⟨fun h => (Except.ok.inj h).symm, fun h => h ▸ rfl⟩
  | cons a rest ih =>
    rw [List.mapM_cons, bind_eq_ok_iff, List.forall₂_cons_left_iff]
    constructor
    · rintro ⟨b, hb, h⟩
      obtain ⟨others, hothers, h⟩ := bind_eq_ok_iff.1 h
      exact ⟨b, others, hb, ih.1 hothers, (Except.ok.inj h).symm⟩
    · rintro ⟨b, others, hb, hothers, rfl⟩
      exact ⟨b, hb, bind_eq_ok_iff.2 ⟨others, ih.2 hothers, rfl⟩⟩

/-- Where it fails, it is by the first element that it does not accept. -/
theorem mapM_eq_error_iff : l.mapM check = .error fault ↔ FirstFault check l fault := by
  induction l with
  | nil => exact ⟨fun h => (nomatch h), fun h => absurd h not_firstFault_nil⟩
  | cons a rest ih =>
    have hrest (b : β) : (do return b :: (← rest.mapM check) : Except ε (List β)) = .error fault ↔
        rest.mapM check = .error fault :=
      bind_eq_error_iff.trans (or_iff_left fun ⟨_, _, h⟩ => (nomatch h))
    rw [List.mapM_cons, bind_eq_error_iff, firstFault_cons, ← ih]
    simp only [hrest, exists_and_right]

theorem mapM_succeeds_iff :
    (∃ bs, l.mapM check = .ok bs) ↔ ∀ a ∈ l, ∃ b, check a = .ok b := by
  induction l with
  | nil => exact ⟨fun _ _ h => (nomatch h), fun _ => ⟨[], rfl⟩⟩
  | cons a rest ih =>
    rw [List.forall_mem_cons, ← ih]
    simp only [mapM_eq_ok_iff, List.forall₂_cons_left_iff]
    constructor
    · rintro ⟨_, b, others, hb, hothers, rfl⟩
      exact ⟨⟨b, hb⟩, others, hothers⟩
    · rintro ⟨⟨b, hb⟩, others, hothers⟩
      exact ⟨_, b, others, hb, hothers, rfl⟩

/-- What it finds, where it accepts all elements. -/
theorem mapM_eq_ok_of_forall {found : α → β} (h : ∀ a ∈ l, check a = .ok (found a)) :
    l.mapM check = .ok (l.map found) := by
  rw [mapM_eq_ok_iff, List.forall₂_map_right_iff]
  exact List.forall₂_same.2 h

/-- The same, said without a name for what is found. -/
theorem mapM_eq_ok_filterMap (h : ∀ a ∈ l, ∃ b, check a = .ok b) :
    l.mapM check = .ok (l.filterMap fun a => (check a).toOption) := by
  rw [mapM_eq_ok_iff]
  induction l with
  | nil => exact .nil
  | cons a rest ih =>
    rw [List.forall_mem_cons] at h
    obtain ⟨⟨b, hb⟩, hrest⟩ := h
    rw [List.filterMap_cons_some (by rw [hb]; rfl)]
    exact .cons hb (ih hrest)

/-! ## Other words for what is found -/

theorem map_succeeds_iff {x : Except ε α} {f : α → β} :
    (∃ b, x.map f = .ok b) ↔ ∃ a, x = .ok a := by
  cases x <;> simp [Except.map]

theorem map_eq_error_iff {x : Except ε α} {f : α → β} :
    x.map f = .error fault ↔ x = .error fault := by
  cases x <;> simp [Except.map]

/-! ## Other words for a fault -/

theorem mapError_eq_ok_iff {ε' : Type} {x : Except ε α} {f : ε → ε'} {a : α} :
    x.mapError f = .ok a ↔ x = .ok a := by
  cases x <;> simp [Except.mapError]

theorem mapError_eq_error_iff {ε' : Type} {x : Except ε α} {f : ε → ε'} {fault : ε'} :
    x.mapError f = .error fault ↔ ∃ cause, x = .error cause ∧ fault = f cause := by
  cases x <;> simp [Except.mapError, eq_comm]

/-- The first fault is the same in other words. -/
theorem firstFault_mapError_iff {ε' : Type} {f : ε → ε'} {fault : ε'} :
    FirstFault (fun a => (check a).mapError f) l fault ↔
      ∃ cause, FirstFault check l cause ∧ fault = f cause := by
  simp only [FirstFault, mapError_eq_ok_iff, mapError_eq_error_iff]
  constructor
  · rintro ⟨front, a, back, hl, hfront, cause, hbad, rfl⟩
    exact ⟨cause, ⟨front, a, back, hl, hfront, hbad⟩, rfl⟩
  · rintro ⟨cause, ⟨front, a, back, hl, hfront, hbad⟩, rfl⟩
    exact ⟨front, a, back, hl, hfront, cause, hbad, rfl⟩

/-! ## Loops -/

/-- A loop that checks its elements one by one, and takes what the check finds into a state, does
what a check of all elements does before anything is taken. -/
theorem eq_map_mapM {loop : σ → List α → Except ε σ} {take : σ → β → σ}
    (hnil : ∀ s, loop s [] = .ok s)
    (hcons : ∀ s a rest, loop s (a :: rest) = check a >>= fun b => loop (take s b) rest)
    (s : σ) (l : List α) : loop s l = (l.mapM check).map fun found => found.foldl take s := by
  induction l generalizing s with
  | nil => exact hnil s
  | cons a rest ih =>
    rw [hcons, List.mapM_cons]
    cases check a with
    | error e => rfl
    | ok b =>
      show loop (take s b) rest = _
      rw [ih]
      show _ = Except.map _ (rest.mapM check >>= fun others => pure (b :: others))
      cases rest.mapM check <;> rfl

end DocumentStore
