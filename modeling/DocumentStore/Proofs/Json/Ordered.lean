import DocumentStore.Json.Reader
import DocumentStore.Proofs.Fields

/-!
# The order of members

The members of a JSON object stand in strictly ascending order of their names.

* `Json.Ordered` says so of all objects in a value;
* `Reader.ordered_step?`: one token keeps the open containers ordered;
* `ordered_of_ofText?`: whatever is read from a text is ordered.
-/

namespace DocumentStore.Json

mutual

/-- In all objects inside the value, at any depth, the names of the members ascend. -/
def Ordered : Json → Prop
  | array items => AllOrdered items
  | object members => (Fields.names members).Pairwise (· < ·) ∧ MembersOrdered members
  | _ => True

/-- All items of a list are ordered. -/
def AllOrdered : List Json → Prop
  | [] => True
  | item :: rest => Ordered item ∧ AllOrdered rest

/-- The values of all members are ordered. -/
def MembersOrdered : List (String × Json) → Prop
  | [] => True
  | (_, member) :: rest => Ordered member ∧ MembersOrdered rest

end

theorem allOrdered_iff {items : List Json} : AllOrdered items ↔ ∀ item ∈ items, item.Ordered := by
  induction items with
  | nil => simp [AllOrdered]
  | cons item rest ih => rw [AllOrdered, ih, List.forall_mem_cons]

theorem membersOrdered_iff {members : List (String × Json)} :
    MembersOrdered members ↔ ∀ member ∈ members, member.2.Ordered := by
  induction members with
  | nil => simp [MembersOrdered]
  | cons member rest ih => rw [MembersOrdered, ih, List.forall_mem_cons]

theorem ordered_array_iff {items : List Json} :
    (array items).Ordered ↔ ∀ item ∈ items, item.Ordered := by
  rw [Ordered, allOrdered_iff]

theorem ordered_object_iff {members : List (String × Json)} : (object members).Ordered ↔
    (Fields.names members).Pairwise (· < ·) ∧ ∀ member ∈ members, member.2.Ordered := by
  rw [Ordered, membersOrdered_iff]

/-- A value that is read for a name goes to its place among the members. -/
theorem ordered_insertSorted {members : List (String × Json)} {json : Json}
    (h : (object members).Ordered) (hjson : json.Ordered) (name : String) :
    (object (Fields.insertSorted members name json)).Ordered := by
  obtain ⟨hnames, hmembers⟩ := ordered_object_iff.1 h
  refine ordered_object_iff.2 ⟨Fields.ascending_insertSorted hnames name json, fun member hmem => ?_⟩
  rcases Fields.mem_of_mem_insertSorted hmem with rfl | hold
  · exact hjson
  · exact hmembers member hold

/-! ## The reader -/

/-- What a container holds so far is ordered. -/
def Container.Ordered : Container → Prop
  | array items => (Json.array items).Ordered
  | object members _ => (Json.object members).Ordered

/-- A value that is a token of its own is ordered. -/
def Token.Ordered : Token → Prop
  | literal json => json.Ordered
  | _ => True

namespace Reader

/-- All that was read so far is ordered. -/
def Ordered : Reader → Prop
  | value outer | firstItem outer | firstName outer => ∀ around ∈ outer, around.Ordered
  | name members outer | colon members _ outer | afterMember members outer =>
    (object members).Ordered ∧ ∀ around ∈ outer, around.Ordered
  | afterItem items outer => (array items).Ordered ∧ ∀ around ∈ outer, around.Ordered
  | finished json => json.Ordered

variable {reader next : Reader} {token : Token} {outer : List Container} {json : Json}

theorem ordered_deliver (hjson : json.Ordered) (houter : ∀ around ∈ outer, around.Ordered) :
    (deliver json outer).Ordered := by
  cases outer with
  | nil => exact hjson
  | cons innermost outer =>
    obtain ⟨hinner, hrest⟩ := List.forall_mem_cons.1 houter
    cases innermost with
    | array items =>
      have hitems := List.forall_mem_cons.2 ⟨hjson, ordered_array_iff.1 hinner⟩
      exact ⟨ordered_array_iff.2 hitems, hrest⟩
    | object members title => exact ⟨ordered_insertSorted hinner hjson title, hrest⟩

theorem ordered_start? (h : start? outer token = some next) (htoken : token.Ordered)
    (houter : ∀ around ∈ outer, around.Ordered) : next.Ordered := by
  cases token with
  | beginArray | beginObject =>
    obtain ⟨-, h⟩ := Option.ite_none_right_eq_some.1 h
    exact Option.some.inj h ▸ houter
  | string text => exact Option.some.inj h ▸ ordered_deliver trivial houter
  | literal json => exact Option.some.inj h ▸ ordered_deliver htoken houter
  | endArray | endObject | colon | comma => cases h

/-- One token keeps all that was read ordered. -/
theorem ordered_step? (h : reader.step? token = some next) (htoken : token.Ordered)
    (hreader : reader.Ordered) : next.Ordered := by
  have harray : (array []).Ordered := trivial
  have hobject : (object []).Ordered := ⟨.nil, trivial⟩
  fun_cases step? reader token <;> simp only [step?, Option.some.injEq, reduceCtorEq] at h
  -- where a value starts
  case case1 outer => exact ordered_start? h htoken hreader
  case case3 outer _ =>
    exact ordered_start? h htoken (List.forall_mem_cons.2 ⟨harray, hreader⟩)
  -- where a container is closed
  case case2 outer => exact h ▸ ordered_deliver harray hreader
  case case4 outer => exact h ▸ ordered_deliver hobject hreader
  case case9 items outer =>
    obtain ⟨hitems, houter⟩ := hreader
    have hreverse : (array items.reverse).Ordered :=
      ordered_array_iff.2 fun item hmem => ordered_array_iff.1 hitems item (List.mem_reverse.1 hmem)
    exact h ▸ ordered_deliver hreverse houter
  case case11 members outer => exact h ▸ ordered_deliver hreader.1 hreader.2
  -- where a container goes on
  case case5 outer title => exact h ▸ ⟨hobject, hreader⟩
  case case6 members outer title => exact h ▸ hreader
  case case7 members title outer => exact h ▸ List.forall_mem_cons.2 hreader
  case case8 items outer => exact h ▸ List.forall_mem_cons.2 hreader
  case case10 members outer => exact h ▸ hreader

/-- So does a row of tokens. -/
theorem ordered_foldlM {tokens : List Token} (h : tokens.foldlM step? reader = some next)
    (htokens : ∀ token ∈ tokens, token.Ordered) (hreader : reader.Ordered) : next.Ordered := by
  induction tokens generalizing reader with
  | nil => exact Option.some.inj h ▸ hreader
  | cons token rest ih =>
    rw [List.foldlM_cons, Option.bind_eq_bind, Option.bind_eq_some_iff] at h
    obtain ⟨between, hstep, hrest⟩ := h
    obtain ⟨htoken, htokens⟩ := List.forall_mem_cons.1 htokens
    exact ih hrest htokens (ordered_step? hstep htoken hreader)

end Reader

/-! ## Tokens -/

namespace Token

/-- Numbers and words stand for no object. -/
theorem ordered_readWord? {word : List Char} {json : Json} (h : readWord? word = some json) :
    json.Ordered := by
  unfold readWord? at h
  split at h
  · exact Option.some.inj h ▸ trivial
  split at h
  · exact Option.some.inj h ▸ trivial
  split at h
  · exact Option.some.inj h ▸ trivial
  · obtain ⟨numeral, -, h⟩ := Option.bind_eq_some_iff.1 h
    unfold ofNumeral? at h
    split at h
    · cases h
    split at h
    · exact Option.some.inj h ▸ trivial
    · obtain ⟨-, h⟩ := Option.ite_none_right_eq_some.1 h
      exact Option.some.inj h ▸ trivial

theorem ordered_next? {c : Char} {rest behind : List Char} {token : Token}
    (h : next? c rest = some (token, behind)) : token.Ordered := by
  unfold next? at h
  split at h
  · obtain ⟨read, -, h⟩ := Option.map_eq_some_iff.1 h
    obtain ⟨rfl, -⟩ := Prod.mk.inj h
    trivial
  · split at h
    · next mark hmark =>
      obtain ⟨rfl, -⟩ := Prod.mk.inj (Option.some.inj h)
      unfold mark? at hmark
      split at hmark <;> cases hmark <;> trivial
    · obtain ⟨-, h⟩ := Option.ite_none_right_eq_some.1 h
      obtain ⟨json, hjson, h⟩ := Option.map_eq_some_iff.1 h
      obtain ⟨rfl, -⟩ := Prod.mk.inj h
      exact ordered_readWord? hjson

theorem ordered_scan? {text : List Char} {tokens : List Token} (h : scan? text = some tokens) :
    ∀ token ∈ tokens, token.Ordered := by
  induction text using scan?.induct generalizing tokens with
  | case1 =>
    rw [scan?] at h
    obtain rfl := Option.some.inj h
    exact fun token hmem => (nomatch hmem)
  | case2 c rest hblank ih =>
    rw [scan?, if_pos hblank] at h
    exact ih h
  | case3 c rest hblank hnext =>
    rw [scan?, if_neg hblank] at h
    split at h
    · cases h
    · next hsome => cases hnext.symm.trans hsome
  | case4 c rest hblank token behind hnext ih =>
    rw [scan?, if_neg hblank] at h
    split at h
    · cases h
    · next hsome =>
      obtain ⟨rfl, rfl⟩ := Prod.mk.inj (Option.some.inj (hnext.symm.trans hsome))
      obtain ⟨later, hlater, rfl⟩ := Option.map_eq_some_iff.1 h
      exact List.forall_mem_cons.2 ⟨ordered_next? hnext, ih hlater⟩

end Token

/-! ## Texts -/

theorem ordered_ofTokens? {tokens : List Token} {json : Json} (h : ofTokens? tokens = some json)
    (htokens : ∀ token ∈ tokens, token.Ordered) : json.Ordered := by
  obtain ⟨reader, hreader, hjson⟩ := Option.bind_eq_some_iff.1 h
  have hordered := Reader.ordered_foldlM hreader htokens fun _ hmem => (nomatch hmem)
  cases reader with
  | finished found => exact Option.some.inj hjson ▸ hordered
  | value | firstItem | firstName | name | colon | afterItem | afterMember => cases hjson

/-- Whatever is read from a text is ordered. -/
theorem ordered_of_ofText? {text : String} {json : Json} (h : ofText? text = some json) :
    json.Ordered := by
  obtain ⟨tokens, htokens, hjson⟩ := Option.bind_eq_some_iff.1 h
  exact ordered_ofTokens? hjson (Token.ordered_scan? htokens)

end DocumentStore.Json
