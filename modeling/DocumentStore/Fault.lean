import DocumentStore.Value.Text

/-!
# Faults

Everything that can go wrong, by cause. A missing record and an unknown collection are no faults:
reads answer with nothing and updates with `false`. `Fault.kind` sorts the causes into six kinds
and `Fault.message` is the text that is shown.
-/

namespace DocumentStore

/-- What a fault is about. -/
inductive FaultKind where
  /-- A conversion between forms of a record failed. -/
  | serialization
  /-- The initial data of a database cannot be loaded. -/
  | initialization
  /-- A record does not have the shape that an operation expects. -/
  | invalidRecord
  /-- A declared join is malformed. -/
  | invalidQuery
  /-- The database cannot carry out an operation. -/
  | backend
  /-- Anything else. -/
  | unknown
  deriving DecidableEq, Repr

/-- The words that a message of a kind starts with. -/
def FaultKind.heading : FaultKind → String
  | serialization => "Serialization error: "
  | initialization => "Initialization error: "
  | invalidRecord => "Invalid record: "
  | invalidQuery => "Invalid query: "
  | backend => "Backend error: "
  | unknown => "Unknown error: "

/-- What is wrong with the descriptor of a declared join. -/
inductive JoinFault where
  /-- The descriptor is not a document. -/
  | notDocument
  /-- The collection is not named by a string. -/
  | missingType
  /-- A target field is not mapped to the name of a field. -/
  | sourceNotName (target : String)
  /-- The mapping of fields is not a document. -/
  | matchNotDocument
  /-- The nested joins are not a document. -/
  | subNotDocument
  deriving DecidableEq, Repr

/-- The text of a join fault, for the attribute whose descriptor is at fault. -/
def JoinFault.describe (attr : String) : JoinFault → String
  | notDocument => "join '" ++ attr ++ "' must be a document"
  | missingType => "join '" ++ attr ++ "' is missing a string 'type'"
  | sourceNotName target =>
    "join '" ++ attr ++ "' must map '" ++ target ++ "' to a field name"
  | matchNotDocument => "join '" ++ attr ++ "' has a 'match' that is not a document"
  | subNotDocument => "join '" ++ attr ++ "' has a 'sub' that is not a document"

/-- The causes of failure. -/
inductive Fault where
  /-- A text is not JSON. -/
  | malformedJson
  /-- A JSON integer does not fit into sixty-four bits. -/
  | integerTooLarge (n : Int)
  /-- A value is not of the form that an entity of this collection is read from. -/
  | undecodable (collection : String)
  /-- A record lacks a string in this field. -/
  | missingString (field : String)
  /-- A JSON value does not denote a record. -/
  | notRecord (found : Kind)
  /-- An entity of this collection is not written as a document. -/
  | entityNotRecord (collection : String) (found : Kind)
  /-- A media type has an unknown name. -/
  | unknownMediaName (name : String)
  /-- A media type is not given by a name. -/
  | mediaNotName (found : Value)
  /-- A media type is not given by a code. -/
  | mediaNotCode (found : Value)
  /-- A media type has an unknown code. -/
  | unknownMediaCode (code : Int64)
  /-- The declared join of an attribute is malformed. -/
  | declaredJoin (attr : String) (cause : JoinFault)
  /-- The text of a dataset is not JSON. -/
  | malformedDataset
  /-- A dataset is not an object. -/
  | datasetNotObject
  /-- A collection of a dataset is not an array. -/
  | collectionNotArray (collection : String)
  /-- An element of a collection of a dataset is not a record. -/
  | elementNotRecord (collection : String) (cause : Fault)
  /-- A record carries the largest identifier, so that none can follow. -/
  | idTooLarge (id : Nat) (collection : String)
  /-- Two records carry one identifier. -/
  | repeatedId (id : Nat) (collection : String)
  /-- The identifiers do not suffice for the records that carry none. -/
  | noIdsLeft (collection : String)
  /-- A collection cannot hand out another identifier. -/
  | sequenceExhausted (collection : String)
  /-- Anything else, in the words of a hydrator that turns a record down. -/
  | other (reason : String)

namespace Fault

/-- The kind of a fault. -/
def kind : Fault → FaultKind
  | malformedJson | integerTooLarge _ | undecodable _ | missingString _ => .serialization
  | notRecord _ | entityNotRecord _ _ | unknownMediaName _ | mediaNotName _ | mediaNotCode _
  | unknownMediaCode _ => .invalidRecord
  | declaredJoin _ _ => .invalidQuery
  | malformedDataset | datasetNotObject | collectionNotArray _ | elementNotRecord _ _
  | idTooLarge _ _ | repeatedId _ _ | noIdsLeft _ => .initialization
  | sequenceExhausted _ => .backend
  | other _ => .unknown

/-- The text of a fault without its heading. -/
def describe : Fault → String
  | malformedJson => "the text is not JSON"
  | integerTooLarge n => "the integer " ++ toString n ++ " does not fit into 64 bits"
  | undecodable collection => "the value does not describe an entity of " ++ collection
  | missingString field => "the record has no string in the field " ++ field
  | notRecord found => "expected an object, found " ++ found.label
  | entityNotRecord collection found =>
    collection ++ " serialized to " ++ found.label ++ " instead of a document"
  | unknownMediaName name => "unknown media type '" ++ name ++ "'"
  | mediaNotName found => "media type must be a constant name, found " ++ found.text
  | mediaNotCode found => "media type must be an integer code, found " ++ found.text
  | unknownMediaCode code => "unknown media type code " ++ toString code.toInt
  | declaredJoin attr cause => cause.describe attr
  | malformedDataset => "invalid seed JSON: the text is not JSON"
  | datasetNotObject => "seed data must be an object keyed by collection name"
  | collectionNotArray collection =>
    "seed collection " ++ collection ++ " must be an array of records"
  | elementNotRecord collection cause =>
    "invalid record in " ++ collection ++ ": " ++ cause.kind.heading ++ cause.describe
  | idTooLarge id collection =>
    "id " ++ Nat.repr id ++ " in collection " ++ collection ++ " exhausts the id sequence"
  | repeatedId id collection => "duplicate id " ++ Nat.repr id ++ " in collection " ++ collection
  | noIdsLeft collection => "no ids left for unnumbered records in collection " ++ collection
  | sequenceExhausted collection => "id sequence of collection " ++ collection ++ " is exhausted"
  | other reason => reason

/-- The text that is shown for a fault. -/
def message (fault : Fault) : String := fault.kind.heading ++ fault.describe

end Fault

end DocumentStore
