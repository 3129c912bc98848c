import DocumentStore.Query
import DocumentStore.Proofs.Filter.Recipe
import DocumentStore.Proofs.Join.Descriptor

/-!
# Joins and the calls that make them

Joins are made by calls, for an attribute at a time, as nested joins of a join or as joins of a query,
or they are declared by a document. Whatever the calls are, what they make is what is kept of the joins
that they give, and so are the nested joins of each of these, at every depth.

* `Join.Recipe`, `Joins.Recipe` and `Query.Recipe` are the ways to make joins, and `given` lists what
  they give for the attributes, in order;
* `Join.Follows` says of a join and all joins nested in it that they are what is kept of what a recipe
  gives, and of what the recipes in it give;
* `Joins.Recipe.keeps` is this for the attributes of one level, one case for each call, and
  `Join.follows` for every level, by induction on the joins that are made;
* `insertion_ordered` puts it beside what is kept of the conditions of filters.
-/

namespace DocumentStore

/-! ## Recipes -/

mutual

/-- A way to make a join. -/
inductive Join.Recipe where
  | ofCollection (collection : String)
  | pair (join : Join.Recipe) (target source : String)
  | nest (join : Join.Recipe) (attr : String) (inner : Join.Recipe)
  /-- The join of a recipe, with other nested joins. -/
  | withJoins (join : Join.Recipe) (joins : Joins.Recipe)
  /-- The join that the descriptor of an attribute declares. -/
  | declared (attr : String) (descriptor : Value) (h : descriptor.WellFormed)

/-- A way to make joins for attributes. -/
inductive Joins.Recipe where
  | empty
  | insert (joins : Joins.Recipe) (attr : String) (join : Join.Recipe)
  /-- The joins that a document declares, which names no field twice. -/
  | ofDocument (document : Document) (h : (Value.document document).WellFormed)
  /-- The joins that are nested in a join. -/
  | ofJoin (join : Join.Recipe)
  /-- The joins of a query. -/
  | ofQuery (query : Query.Recipe)

/-- A way to make a query. -/
inductive Query.Recipe where
  | all
  | ofFilter (filter : Filter.Recipe)
  | withFilter (query : Query.Recipe) (filter : Filter.Recipe)
  | withJoin (query : Query.Recipe) (attr : String) (join : Join.Recipe)
  | withJoins (query : Query.Recipe) (joins : Joins.Recipe)

end

mutual

/-- The join that a recipe makes, unless a document in it declares no joins. -/
def Join.Recipe.make : Join.Recipe → Except Fault Join
  | .ofCollection collection => .ok (Join.ofCollection collection)
  | .pair join target source => do return (← join.make).pair target source
  | .nest join attr inner => do return (← join.make).nest attr (← inner.make)
  | .withJoins join joins => do return { ← join.make with joins := ← joins.make }
  | .declared attr descriptor _ => Join.declared attr descriptor

/-- The joins that a recipe makes. -/
def Joins.Recipe.make : Joins.Recipe → Except Fault Joins
  | .empty => .ok []
  | .insert joins attr join => do return (← joins.make).insert attr (← join.make)
  | .ofDocument document _ => Joins.ofDocument document
  | .ofJoin join => do return (← join.make).joins
  | .ofQuery query => do return (← query.make).joins

/-- The query that a recipe makes. -/
def Query.Recipe.make : Query.Recipe → Except Fault Query
  | .all => .ok Query.all
  | .ofFilter filter => .ok (Query.ofFilter filter.make)
  | .withFilter query filter => do return (← query.make).withFilter filter.make
  | .withJoin query attr join => do return (← query.make).withJoin attr (← join.make)
  | .withJoins query joins => do return (← query.make).withJoins (← joins.make)

end

/-! ## What recipes give -/

/-- The descriptors in the fields of a document, each under its attribute. -/
def Join.Recipe.ofFields :
    (fields : List (String × Value)) → Value.FieldsWellFormed fields → List (String × Join.Recipe)
  | [], _ => []
  | (attr, descriptor) :: rest, h => (attr, .declared attr descriptor h.1) :: ofFields rest h.2

/-- The descriptors that a descriptor gives under `sub`. -/
def Join.Recipe.ofDescriptor :
    (descriptor : Value) → descriptor.WellFormed → List (String × Join.Recipe)
  | .document fields, h =>
    match hsub : Fields.get? fields "sub" with
    | some (.document sub) => ofFields sub (h.of_get? hsub).2
    | _ => []
  | _, _ => []

mutual

/-- What a recipe gives as nested joins, in order. An attribute may be given several times. -/
def Join.Recipe.given : Join.Recipe → List (String × Join.Recipe)
  | .ofCollection _ => []
  | .pair join _ _ => join.given
  | .nest join attr inner => join.given ++ [(attr, inner)]
  | .withJoins _ joins => joins.given
  | .declared _ descriptor h => Join.Recipe.ofDescriptor descriptor h

/-- What a recipe gives as joins, in order. -/
def Joins.Recipe.given : Joins.Recipe → List (String × Join.Recipe)
  | .empty => []
  | .insert joins attr join => joins.given ++ [(attr, join)]
  | .ofDocument document h => Join.Recipe.ofFields document h.2
  | .ofJoin join => join.given
  | .ofQuery query => query.given

/-- What a recipe gives as the joins of a query, in order. Joins that replace all others start anew. -/
def Query.Recipe.given : Query.Recipe → List (String × Join.Recipe)
  | .all => []
  | .ofFilter _ => []
  | .withFilter query _ => query.given
  | .withJoin query attr join => query.given ++ [(attr, join)]
  | .withJoins _ joins => joins.given

end

/-! ## One level -/

/-- What is kept of given joins: under each attribute what the recipe makes that was given last. -/
def Joins.Keep (given : List (String × Join.Recipe)) (joins : Joins) : Prop :=
  Fields.Keeps (fun recipe join => recipe.make = .ok join) given joins

theorem Join.Recipe.names_ofFields : ∀ {fields : List (String × Value)}
    (h : Value.FieldsWellFormed fields), Fields.names (ofFields fields h) = Fields.names fields
  | [], _ => rfl
  | _ :: _, h => congrArg (List.cons _) (names_ofFields h.2)

/-- Each field declares one join, under its name. -/
theorem Join.Recipe.paired_ofFields {fields : List (String × Value)} {joins : Joins}
    (h : Value.FieldsWellFormed fields) (hread : Join.declaredEntries fields = .ok joins) :
    Fields.Paired (fun recipe join => recipe.make = .ok join) (ofFields fields h) joins := by
  induction fields generalizing joins with
  | nil =>
    obtain rfl := Except.ok.inj hread
    exact .nil
  | cons entry rest ih =>
    simp only [Join.declaredEntries, bind_eq_ok_iff, pure_eq_ok_iff] at hread
    obtain ⟨join, hjoin, others, hrest, rfl⟩ := hread
    exact .cons ⟨rfl, hjoin⟩ (ih h.2 hrest)

/-- Joins that are declared field by field are kept as they are declared. -/
theorem Joins.keep_ofFields {fields : List (String × Value)} {joins : Joins}
    (hnodup : (Fields.names fields).Nodup) (h : Value.FieldsWellFormed fields)
    (hread : Join.declaredEntries fields = .ok joins) :
    Joins.Keep (Join.Recipe.ofFields fields h) joins :=
  Fields.keeps_of_paired ((Join.Recipe.names_ofFields h).symm ▸ hnodup)
    (Join.Recipe.paired_ofFields h hread)

/-- So are the joins that a descriptor declares under `sub`. -/
theorem Joins.keep_ofDescriptor {attr : String} {descriptor : Value} (h : descriptor.WellFormed)
    {join : Join} (hread : Join.declared attr descriptor = .ok join) :
    Joins.Keep (Join.Recipe.ofDescriptor descriptor h) join.joins := by
  cases descriptor with
  | document fields =>
    obtain ⟨collection, pairs, joins, -, -, hjoins, rfl⟩ :=
      Join.declared_document_eq_ok_iff.1 hread
    rw [Join.Recipe.ofDescriptor]
    -- Without a document under `sub` both sides are empty, and otherwise both read the same one.
    obtain ⟨hsub, rfl⟩ | ⟨sub, hsub, hentries⟩ := Join.declaredSub_eq_ok_iff.1 hjoins
    · split
      · next hdocument => rw [hdocument] at hsub; obtain h | h := hsub <;> cases h
      · exact Fields.keeps_nil
    · split
      · next other hdocument =>
        obtain rfl := Value.document.inj (Option.some.inj (hsub.symm.trans hdocument))
        exact Joins.keep_ofFields (h.of_get? hsub).1 _ hentries
      · next hnot => exact absurd hsub (hnot sub)
  | _ => cases hread

mutual

/-- The nested joins of a join are what is kept of what its recipe gives. -/
theorem Join.Recipe.keeps : ∀ (recipe : Join.Recipe) {join : Join}, recipe.make = .ok join →
    Joins.Keep recipe.given join.joins
  | .ofCollection collection, join, h => by
    obtain rfl := Except.ok.inj h
    exact Fields.keeps_nil
  | .pair before target source, join, h => by
    simp only [Join.Recipe.make, bind_eq_ok_iff, pure_eq_ok_iff] at h
    obtain ⟨first, hfirst, rfl⟩ := h
    exact @Join.Recipe.keeps before first hfirst
  | .nest before attr recipe, join, h => by
    simp only [Join.Recipe.make, bind_eq_ok_iff, pure_eq_ok_iff] at h
    obtain ⟨first, hfirst, inner, hinner, rfl⟩ := h
    exact (before.keeps hfirst).insert hinner attr
  | .withJoins before recipe, join, h => by
    simp only [Join.Recipe.make, bind_eq_ok_iff, pure_eq_ok_iff] at h
    obtain ⟨first, -, joins, hjoins, rfl⟩ := h
    exact recipe.keeps hjoins
  | .declared attr descriptor hwell, join, h => Joins.keep_ofDescriptor hwell h

/-- Joins are what is kept of what their recipe gives. -/
theorem Joins.Recipe.keeps : ∀ (recipe : Joins.Recipe) {joins : Joins}, recipe.make = .ok joins →
    Joins.Keep recipe.given joins
  | .empty, joins, h => by
    obtain rfl := Except.ok.inj h
    exact Fields.keeps_nil
  | .insert before attr recipe, joins, h => by
    simp only [Joins.Recipe.make, bind_eq_ok_iff, pure_eq_ok_iff] at h
    obtain ⟨first, hfirst, join, hjoin, rfl⟩ := h
    exact (before.keeps hfirst).insert hjoin attr
  | .ofDocument document hwell, joins, h => Joins.keep_ofFields hwell.1 hwell.2 h
  | .ofJoin recipe, joins, h => by
    simp only [Joins.Recipe.make, bind_eq_ok_iff, pure_eq_ok_iff] at h
    obtain ⟨join, hjoin, rfl⟩ := h
    exact recipe.keeps hjoin
  | .ofQuery recipe, joins, h => by
    simp only [Joins.Recipe.make, bind_eq_ok_iff, pure_eq_ok_iff] at h
    obtain ⟨query, hquery, rfl⟩ := h
    exact recipe.keeps hquery

/-- The joins of a query are what is kept of what its recipe gives. -/
theorem Query.Recipe.keeps : ∀ (recipe : Query.Recipe) {query : Query}, recipe.make = .ok query →
    Joins.Keep recipe.given query.joins
  | .all, query, h => by
    obtain rfl := Except.ok.inj h
    exact Fields.keeps_nil
  | .ofFilter filter, query, h => by
    obtain rfl := Except.ok.inj h
    exact Fields.keeps_nil
  | .withFilter before filter, query, h => by
    simp only [Query.Recipe.make, bind_eq_ok_iff, pure_eq_ok_iff] at h
    obtain ⟨first, hfirst, rfl⟩ := h
    exact @Query.Recipe.keeps before first hfirst
  | .withJoin before attr recipe, query, h => by
    simp only [Query.Recipe.make, bind_eq_ok_iff, pure_eq_ok_iff] at h
    obtain ⟨first, hfirst, join, hjoin, rfl⟩ := h
    exact (before.keeps hfirst).insert hjoin attr
  | .withJoins before recipe, query, h => by
    simp only [Query.Recipe.make, bind_eq_ok_iff, pure_eq_ok_iff] at h
    obtain ⟨first, -, joins, hjoins, rfl⟩ := h
    exact recipe.keeps hjoins

end

/-! ## Every level -/

mutual

/-- Whether a join and all joins nested in it are what is kept of what is given: the nested joins are
what is kept of what the recipe of the join gives, and each of them follows the recipe that was given
for its attribute last. -/
def Join.Follows : Join → Join.Recipe → Prop
  | ⟨_, _, joins⟩, recipe => Joins.Keep recipe.given joins ∧ Join.AllFollow joins recipe.given

/-- Whether each of some joins follows the recipe that was given for its attribute last. -/
def Join.AllFollow : List (String × Join) → List (String × Join.Recipe) → Prop
  | [], _ => True
  | (attr, join) :: rest, given =>
    (∃ recipe, Fields.get? given.reverse attr = some recipe ∧ Join.Follows join recipe) ∧
      Join.AllFollow rest given

end

/-- Whether joins are what is kept of what is given, at every depth. -/
def Joins.Follow (joins : Joins) (given : List (String × Join.Recipe)) : Prop :=
  Joins.Keep given joins ∧ Join.AllFollow joins given

mutual

/-- A join follows its recipe. -/
theorem Join.follows : ∀ (join : Join) {recipe : Join.Recipe}, recipe.make = .ok join →
    join.Follows recipe
  | ⟨_, _, joins⟩, recipe, h => by
    have hkept := recipe.keeps h
    rw [Join.Follows]
    exact ⟨hkept, Join.allFollow joins fun _ hentry => hkept.exists_last hentry⟩

/-- Joins that were made by the recipes given last for their attributes follow them. -/
theorem Join.allFollow : ∀ (joins : List (String × Join)) {given : List (String × Join.Recipe)},
    (∀ entry ∈ joins, ∃ recipe, Fields.get? given.reverse entry.1 = some recipe ∧
      recipe.make = .ok entry.2) → Join.AllFollow joins given
  | [], _, _ => trivial
  | (_, join) :: rest, _, h => by
    rw [List.forall_mem_cons] at h
    obtain ⟨recipe, hlast, hmake⟩ := h.1
    exact ⟨⟨recipe, hlast, Join.follows join hmake⟩, Join.allFollow rest h.2⟩

end

/-- What is kept of the joins of one level is what is kept at every depth. -/
theorem Joins.follow_of_keep {given : List (String × Join.Recipe)} {joins : Joins}
    (h : Joins.Keep given joins) : joins.Follow given :=
  ⟨h, Join.allFollow joins fun _ hentry => h.exists_last hentry⟩

/-- Filters and joins are insertion-ordered maps, whatever the calls are that make them.

A filter constrains no field twice, its fields are in the order in which they were first mentioned, and
each has the value that was given for it last. A list becomes one condition for each value, under the
decimal position of the value, and a document one for each field, in order. Joins name no attribute
twice, their attributes are in the order in which they were first given, and each has the join that was
given for it last; and the same holds of the joins that are nested in them, at every depth. -/
theorem insertion_ordered :
    (∀ recipe : Filter.Recipe, Fields.Keeps (· = ·) recipe.given recipe.make.conditions) ∧
    (∀ values : List Value, (Filter.ofList values).size = values.length ∧
      ∀ position : Nat, (Filter.ofList values).conditions[position]? =
        values[position]?.map (Nat.repr position, ·)) ∧
    (∀ document : Document, document.names.Nodup →
      (Filter.ofDocument document).conditions = document) ∧
    (∀ (recipe : Joins.Recipe) (joins : Joins), recipe.make = .ok joins →
      joins.Follow recipe.given) := by
  refine ⟨Filter.Recipe.keeps, fun values => ⟨?_, fun position => ?_⟩,
    fun document => Filter.conditions_ofDocument,
    fun recipe joins h => Joins.follow_of_keep (recipe.keeps h)⟩
  · rw [Filter.size, Filter.conditions_ofList, Filter.length_byPosition]
  · rw [Filter.conditions_ofList, Filter.getElem?_byPosition]

/-- Joins that a document declares, of which one is replaced in its place by a join that gives an
attribute twice in turn. -/
theorem insertion_ordered_replaced : ∃ (document : Document)
    (h : (Value.document document).WellFormed) (recipe : Joins.Recipe) (joins : Joins),
    document = [("rows", .document [("type", .string "A"),
      ("sub", .document [("up", .document [("type", .string "B")])])]),
      ("more", .document [("type", .string "C")])] ∧
    recipe = .insert (.insert (.ofDocument document h) "new" (.ofCollection "D")) "rows"
      (.nest (.nest (.nest (.ofCollection "A") "x" (.ofCollection "B")) "y" (.ofCollection "C")) "x"
        (.ofCollection "D")) ∧
    joins = [("rows", ⟨"A", [], [("x", Join.ofCollection "D"), ("y", Join.ofCollection "C")]⟩),
      ("more", Join.ofCollection "C"), ("new", Join.ofCollection "D")] ∧
    recipe.make = .ok joins ∧ joins.Follow recipe.given ∧
    (Filter.ofDocument document).conditions = document := by
  have hwell : (Value.document [("rows", .document [("type", .string "A"),
      ("sub", .document [("up", .document [("type", .string "B")])])]),
      ("more", .document [("type", .string "C")])]).WellFormed := by
    simp [Value.WellFormed, Value.FieldsWellFormed]
  obtain ⟨-, -, hdocument, hjoins⟩ := insertion_ordered
  exact ⟨_, hwell, _, _, rfl, rfl, rfl, rfl, hjoins _ _ rfl, hdocument _ hwell.1⟩

end DocumentStore
