import DocumentStore.Fault
import DocumentStore.Join.Basic

/-!
# Joins declared by documents

A document declares joins by their attributes. The descriptor of each is a document with the
collection as the string `type`, the pairs of fields as the document `match`, from target fields to
the names of source fields, and nested joins as the document `sub`. The last two may be missing,
and `sub` may be null; all other entries are ignored.

Faults are found in the order of the document: of a descriptor first its shape, then `type`, then
the entries of `match`, then `sub`.
-/

namespace DocumentStore

namespace Join

/-- The pairs that the entries of a mapping declare. -/
def declaredPairs (attr : String) : Document → Except Fault (List (String × String))
  | [] => .ok []
  | (target, .string source) :: rest => do
    return (target, source) :: (← declaredPairs attr rest)
  | (target, _) :: _ => .error (.declaredJoin attr (.sourceNotName target))

/-- The pairs that a descriptor declares. -/
def declaredMatch (attr : String) (descriptor : Document) :
    Except Fault (List (String × String)) :=
  match descriptor.get? "match" with
  | none => .ok []
  | some (.document mapping) => declaredPairs attr mapping
  | some _ => .error (.declaredJoin attr .matchNotDocument)

/-- The collection that a descriptor declares. -/
def declaredCollection (attr : String) (descriptor : Document) : Except Fault String :=
  match descriptor.get? "type" with
  | some (.string collection) => .ok collection
  | _ => .error (.declaredJoin attr .missingType)

mutual

/-- The join that the descriptor of an attribute declares. -/
def declared (attr : String) : Value → Except Fault Join
  | .document descriptor => do
    let collection ← declaredCollection attr descriptor
    let pairs ← declaredMatch attr descriptor
    let joins ← declaredSub attr descriptor
    return ⟨collection, pairs, joins⟩
  | _ => .error (.declaredJoin attr .notDocument)

/-- The nested joins that a descriptor declares. -/
def declaredSub (attr : String) : List (String × Value) → Except Fault (List (String × Join))
  | [] => .ok []
  | (name, value) :: rest =>
    if name = "sub" then
      match value with
      | .document sub => declaredEntries sub
      | .null => .ok []
      | _ => .error (.declaredJoin attr .subNotDocument)
    else declaredSub attr rest

/-- The joins that the fields of a document declare, in order. -/
def declaredEntries : List (String × Value) → Except Fault (List (String × Join))
  | [] => .ok []
  | (attr, descriptor) :: rest => do
    let join ← declared attr descriptor
    return (attr, join) :: (← declaredEntries rest)

end

end Join

/-- The joins that a document declares. -/
def Joins.ofDocument (document : Document) : Except Fault Joins :=
  Join.declaredEntries document

end DocumentStore
