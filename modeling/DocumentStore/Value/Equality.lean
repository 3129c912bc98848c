import DocumentStore.Value.Basic

/-!
# Strict equality of values

Two values are strictly equal when they have the same kind and the same content. Doubles compare
by the rule of the standard, arrays item by item, and documents by name: the order of their fields
does not matter.
-/

namespace DocumentStore.Value

mutual

/-- Strict equality. Of two documents the left one is walked: with as many fields on both sides,
it is enough that each field of the left has an equal one on the right. -/
def equal : Value → Value → Bool
  | null, null => true
  | undefined, undefined => true
  | boolean a, boolean b => a == b
  | int32 m, int32 n => m == n
  | int64 m, int64 n => m == n
  | double x, double y => x.equal y
  | string s, string t => s == t
  | array xs, array ys => equalItems xs ys
  | document xs, document ys => xs.length == ys.length && equalFields xs ys
  | scopedCode s xs, scopedCode t ys => s == t && (xs.length == ys.length && equalFields xs ys)
  | atom a, atom b => a == b
  | _, _ => false

/-- Equality of arrays, item by item. -/
def equalItems : List Value → List Value → Bool
  | [], [] => true
  | x :: xs, y :: ys => equal x y && equalItems xs ys
  | _, _ => false

/-- Each field of the left side has an equal one of the same name on the right side. -/
def equalFields : List (String × Value) → List (String × Value) → Bool
  | [], _ => true
  | (name, x) :: xs, ys => (match Fields.get? ys name with
    | some y => equal x y
    | none => false) && equalFields xs ys

end

end DocumentStore.Value
