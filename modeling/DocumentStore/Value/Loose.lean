import DocumentStore.Number
import DocumentStore.Value.Equality

/-!
# Loose equality of values

The equality that filters use.

* Numbers of all widths compare by exact value.
* A number and a string are equal when the string writes that number.
* Null and undefined are one.
* Arrays compare item by item and documents by name, by these same rules.
* All other values compare strictly, and values of different sorts are never equal.
-/

namespace DocumentStore.Value

/-- Null and undefined both stand for no value. -/
def isNull : Value → Bool
  | null => true
  | undefined => true
  | _ => false

/-- Whether a value is a string that writes the given number. -/
def writes (number : Number) : Value → Bool
  | string text => Number.sameReading (Number.parse text) (some number)
  | _ => false

/-- Loose equality where no array or document is compared with another: a number is sought on
both sides first. -/
def scalarsAgree (a b : Value) : Bool :=
  match Number.ofValue? a, Number.ofValue? b with
  | some m, some n => m.equal n
  | some m, none => b.writes m
  | none, some n => a.writes n
  | none, none => (a.isNull && b.isNull) || a.equal b

mutual

/-- Loose equality. -/
def agrees : Value → Value → Bool
  | array xs, array ys => itemsAgree xs ys
  | document xs, document ys => xs.length == ys.length && fieldsAgree xs ys
  | a, b => scalarsAgree a b

/-- Loose equality of arrays, item by item. -/
def itemsAgree : List Value → List Value → Bool
  | [], [] => true
  | x :: xs, y :: ys => agrees x y && itemsAgree xs ys
  | _, _ => false

/-- Each field of the left side loosely equals the one of the same name on the right side. -/
def fieldsAgree : List (String × Value) → List (String × Value) → Bool
  | [], _ => true
  | (name, x) :: xs, ys => (match Fields.get? ys name with
    | some y => agrees x y
    | none => false) && fieldsAgree xs ys

end

end DocumentStore.Value
