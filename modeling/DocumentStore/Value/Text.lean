import DocumentStore.Binary64.Shortest
import DocumentStore.Text.Hex
import DocumentStore.Value.Basic

/-!
# The text of a value

How a value is shown inside a message. Strings stand in quotes without any escaping, integers and
doubles are written out, arrays and documents show their items in order.
-/

namespace DocumentStore

/-- The text of an atom. -/
def Atom.text : Atom → String
  | minKey => "MinKey"
  | maxKey => "MaxKey"
  | dateTime millis => "DateTime(" ++ toString millis.toInt ++ ")"
  | objectId id => "ObjectId(\"" ++ id.toHex ++ "\")"
  | binary subtype bytes =>
    "Binary(" ++ String.ofList (Hex.ofByte subtype) ++ ", " ++ Hex.ofBytes bytes ++ ")"
  | timestamp time increment =>
    "Timestamp(" ++ Nat.repr time.toNat ++ ", " ++ Nat.repr increment.toNat ++ ")"
  | regex pattern options => "/" ++ pattern ++ "/" ++ options
  | symbol name => "Symbol(\"" ++ name ++ "\")"
  | code text => text
  | decimal128 bytes => "Decimal128(" ++ bytes.toHex ++ ")"
  | dbPointer collection id => "DbPointer(" ++ collection ++ ", " ++ id.toHex ++ ")"

namespace Value

mutual

/-- The text of a value. -/
def text : Value → String
  | null => "null"
  | undefined => "undefined"
  | boolean b => if b then "true" else "false"
  | int32 n => toString n.toInt
  | int64 n => toString n.toInt
  | double x => x.text
  | string s => "\"" ++ s ++ "\""
  | array items => "[" ++ ", ".intercalate (itemTexts items) ++ "]"
  | document [] => "\x7b\x7d"
  | document (entry :: rest) =>
    "\x7b " ++ ", ".intercalate (fieldTexts (entry :: rest)) ++ " \x7d"
  | scopedCode code _ => code
  | atom a => a.text

/-- The texts of the items of an array. -/
def itemTexts : List Value → List String
  | [] => []
  | item :: rest => text item :: itemTexts rest

/-- The texts of the fields of a document. -/
def fieldTexts : List (String × Value) → List String
  | [] => []
  | (name, value) :: rest => ("\"" ++ name ++ "\": " ++ text value) :: fieldTexts rest

end

end Value

end DocumentStore
