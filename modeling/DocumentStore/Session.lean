import DocumentStore.Database.Search

/-!
# Sessions

A session is a list of commands that are run on a database one after the other. Only a create and
an update can change the database; every command has a reply, and a command that fails leaves the
database as it is.
-/

namespace DocumentStore

/-- A command to a database. -/
inductive Command where
  /-- Create a record. -/
  | create (name : String) (fields : Document)
  /-- Merge fields into a record. -/
  | update (name : String) (id : Value) (fields : Document)
  /-- Find the records that a query selects. -/
  | find (name : String) (query : Query)
  /-- Count the records that a filter admits. -/
  | count (name : String) (filter : Filter)
  /-- Look up a record. -/
  | load (name : String) (id : Value)
  /-- List all records of a collection. -/
  | records (name : String)
  /-- List the names of all collections. -/
  | names

/-- The reply to a command. -/
inductive Reply where
  /-- A record was created under this identifier. -/
  | created (id : Nat)
  /-- The command failed. -/
  | failed (fault : Fault)
  /-- Whether there was a record to update. -/
  | updated (found : Bool)
  /-- These are the records. -/
  | rows (records : List Document)
  /-- That many records there are. -/
  | number (count : Nat)
  /-- This is the record, if there is one. -/
  | row (record : Option Document)
  /-- These are the names. -/
  | names (names : List String)

namespace Command

/-- Runs a command: its reply, and the database after it. -/
def run (db : Database) : Command → Reply × Database
  | create name fields =>
    match db.create name fields with
    | .ok (id, grown) => (.created id, grown)
    | .error fault => (.failed fault, db)
  | update name id fields =>
    match db.update? name id fields with
    | some changed => (.updated true, changed)
    | none => (.updated false, db)
  | find name query => (.rows (db.find name query), db)
  | count name filter => (.number (db.count name filter), db)
  | load name id => (.row (db.load? name id), db)
  | records name => (.rows (db.records name), db)
  | names => (.names db.names, db)

end Command

/-- Runs commands one after the other: their replies, and the database after all of them. -/
def Database.run (db : Database) : List Command → List Reply × Database
  | [] => ([], db)
  | command :: rest =>
    let (reply, next) := command.run db
    let (replies, last) := Database.run next rest
    (reply :: replies, last)

end DocumentStore
