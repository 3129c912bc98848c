import DocumentStore.Json.Token

/-!
# Reading JSON

A reader goes over the tokens of a text once. It knows what may come next and which containers are
open around that place; a text is JSON when the reader has one finished value at its end. At most
`maxDepth` containers may be open at a time.
-/

namespace DocumentStore

namespace Json

/-- How many containers may be open at a time. -/
def maxDepth : Nat := 127

/-- A container that waits for the value being read. -/
inductive Container where
  /-- An array, with the items so far, the last one first. -/
  | array (items : List Json)
  /-- An object, with the members so far and the name of the member being read. -/
  | object (members : List (String × Json)) (name : String)

/-- What a reader expects next; `outer` are the open containers, the innermost first. -/
inductive Reader where
  /-- A value. -/
  | value (outer : List Container)
  /-- The first item of an array, or its end. -/
  | firstItem (outer : List Container)
  /-- The name of the first member of an object, or its end. -/
  | firstName (outer : List Container)
  /-- The name of a further member. -/
  | name (members : List (String × Json)) (outer : List Container)
  /-- The colon behind the name of a member. -/
  | colon (members : List (String × Json)) (name : String) (outer : List Container)
  /-- A comma, or the end of the array. -/
  | afterItem (items : List Json) (outer : List Container)
  /-- A comma, or the end of the object. -/
  | afterMember (members : List (String × Json)) (outer : List Container)
  /-- Nothing more. -/
  | finished (value : Json)

namespace Reader

/-- Hands a finished value to the innermost open container. -/
def deliver (json : Json) : List Container → Reader
  | [] => finished json
  | .array items :: outer => afterItem (json :: items) outer
  | .object members title :: outer => afterMember (Fields.insertSorted members title json) outer

/-- Reads the token that a value starts with. -/
def start? (outer : List Container) : Token → Option Reader
  | .beginArray => if outer.length < maxDepth then some (firstItem outer) else none
  | .beginObject => if outer.length < maxDepth then some (firstName outer) else none
  | .string text => some (deliver (.string text) outer)
  | .literal json => some (deliver json outer)
  | _ => none

/-- Reads one token. -/
def step? : Reader → Token → Option Reader
  | value outer, token => start? outer token
  | firstItem outer, .endArray => some (deliver (.array []) outer)
  | firstItem outer, token => start? (.array [] :: outer) token
  | firstName outer, .endObject => some (deliver (.object []) outer)
  | firstName outer, .string title => some (colon [] title outer)
  | name members outer, .string title => some (colon members title outer)
  | colon members title outer, .colon => some (value (.object members title :: outer))
  | afterItem items outer, .comma => some (value (.array items :: outer))
  | afterItem items outer, .endArray => some (deliver (.array items.reverse) outer)
  | afterMember members outer, .comma => some (name members outer)
  | afterMember members outer, .endObject => some (deliver (.object members) outer)
  | _, _ => none

/-- The value that a reader has finished. -/
def finished? : Reader → Option Json
  | finished json => some json
  | _ => none

end Reader

/-- The value that a row of tokens writes. -/
def ofTokens? (tokens : List Token) : Option Json :=
  (tokens.foldlM Reader.step? (.value [])).bind Reader.finished?

/-- The value that a text writes. -/
def ofText? (text : String) : Option Json := (Token.scan? text.toList).bind ofTokens?

end Json

end DocumentStore
