import DocumentStore.Proofs.Session.Step

/-!
# Collections do not touch one another

A scope is a set of names of collections. A command that names collections in scope only, at every
depth of its joins, cannot see what happens to the others.

* `AgreeOn.reply_eq`: where two databases agree on the scope, it is told the same in both;
* `AgreeOn.run`: the databases agree on the scope after it, too;
* `isolation`: a session may be cut down to the commands that do not write outside the scope.
-/

namespace DocumentStore

/-! ## What a command names -/

mutual

/-- Whether a join, with all joins in it, takes its rows from collections in scope only. -/
def Join.within (scope : String → Bool) : Join → Bool
  | ⟨collection, _, joins⟩ => scope collection && Join.allWithin scope joins

/-- Whether all joins of a list take their rows from collections in scope only. -/
def Join.allWithin (scope : String → Bool) : List (String × Join) → Bool
  | [] => true
  | (_, join) :: rest => Join.within scope join && Join.allWithin scope rest

end

/-- Whether a command names collections in scope only. The list of all names is not such a command,
as it tells of every collection. -/
def Command.within (scope : String → Bool) : Command → Bool
  | .create name _ | .update name _ _ | .count name _ | .load name _ | .records name => scope name
  | .find name query => scope name && Join.allWithin scope query.joins
  | .names => false

/-- Whether a command leaves the collections out of scope alone: it reads, or it writes in scope. -/
def Command.spares (scope : String → Bool) (command : Command) : Bool :=
  command.target?.all scope

/-- The part of a transcript that is about commands in scope. -/
def Transcript.within (transcript : Transcript) (scope : String → Bool) : Transcript :=
  transcript.filter fun entry => entry.1.within scope

/-- Two databases have the same collections in scope. -/
def Database.AgreeOn (scope : String → Bool) (db other : Database) : Prop :=
  ∀ name, scope name → db.collection name = other.collection name

variable {scope : String → Bool} {db other : Database} {command : Command} {name : String}

theorem Command.spares_of_within (h : command.within scope) : command.spares scope := by
  cases command with
  | create | update => exact h
  | find | count | load | records | names => rfl

theorem Command.within_of_target? (h : command.target? = some name) :
    command.within scope = scope name := by
  cases command with
  | create | update =>
    obtain rfl := Option.some.inj h
    rfl
  | find | count | load | records | names => cases h

theorem Transcript.within_cons (command : Command) (reply : Reply) (rest : Transcript)
    (scope : String → Bool) : within ((command, reply) :: rest) scope =
      if command.within scope then (command, reply) :: rest.within scope else rest.within scope :=
  List.filter_cons

/-- A command and the reply to it leave no choice in what becomes of a collection. -/
theorem Collection.Step.unique {c d e : Collection} {entry : Command × Reply}
    (h : Step name c entry d) (h' : Step name c entry e) : d = e := by
  cases h with
  | created h =>
    cases h' with
    | created h' => exact (Prod.mk.inj (Option.some.inj (h.symm.trans h'))).2
    | unrelated h' => exact absurd rfl h'
  | updated hid h =>
    cases h' with
    | updated hid' h' =>
      obtain rfl := Option.some.inj (hid.symm.trans hid')
      exact Option.some.inj (h.symm.trans h')
    | unrelated h' => exact absurd rfl h'
  | exhausted => cases h' <;> rfl
  | missed => cases h' <;> rfl
  | unrelated h =>
    cases h' with
    | unrelated => rfl
    | created | exhausted | updated | missed => exact absurd rfl h

namespace Database

theorem AgreeOn.records_eq (h : AgreeOn scope db other) (hname : scope name) :
    db.records name = other.records name := by
  rw [records, records, h name hname]

theorem AgreeOn.select_eq (h : AgreeOn scope db other) (hname : scope name) (filter : Filter) :
    db.select name filter = other.select name filter := by
  rw [select, select, h.records_eq hname]

/-! ## Joins -/

mutual

/-- A join in scope attaches the same rows. -/
theorem AgreeOn.rows_eq (h : AgreeOn scope db other) : ∀ {join : Join},
    Join.within scope join → ∀ source, db.rows join source = other.rows join source
  | ⟨collection, pairs, joins⟩, hwithin, source => by
    rw [Join.within, Bool.and_eq_true] at hwithin
    rw [rows, rows, h.select_eq hwithin.1]
    exact List.map_congr_left fun row _ => AgreeOn.resolve_eq h hwithin.2 row

/-- Joins in scope are resolved alike. -/
theorem AgreeOn.resolve_eq (h : AgreeOn scope db other) : ∀ {joins : List (String × Join)},
    Join.allWithin scope joins → ∀ record, db.resolve joins record = other.resolve joins record
  | [], _, record => by rw [resolve, resolve]
  | (attr, join) :: rest, hwithin, record => by
    rw [Join.allWithin, Bool.and_eq_true] at hwithin
    rw [resolve, resolve, AgreeOn.rows_eq h hwithin.1, AgreeOn.resolve_eq h hwithin.2]

end

/-! ## One command -/

/-- A query in scope finds the same rows. -/
theorem AgreeOn.find_eq (h : AgreeOn scope db other) (hname : scope name) {query : Query}
    (hjoins : Join.allWithin scope query.joins) : db.find name query = other.find name query := by
  rw [find, find, h.select_eq hname]
  exact List.map_congr_left fun row _ => h.resolve_eq hjoins row

theorem AgreeOn.count_eq (h : AgreeOn scope db other) (hname : scope name) (filter : Filter) :
    db.count name filter = other.count name filter := by
  rw [count, count, h.records_eq hname]

theorem AgreeOn.load?_eq (h : AgreeOn scope db other) (hname : scope name) (value : Value) :
    db.load? name value = other.load? name value := by
  rw [load?, load?, h name hname]

/-- A command in scope is told the same where the collections in scope are the same. -/
theorem AgreeOn.reply_eq (h : AgreeOn scope db other) (hwithin : command.within scope) :
    (command.run db).1 = (command.run other).1 := by
  cases command with
  | create name fields =>
    rw [Command.run, Command.run, create, create, h name hwithin]
    cases (other.collection name).create? fields <;> rfl
  | update name value fields =>
    have hreply (db : Database) : ((Command.update name value fields).run db).1 =
        .updated (db.update? name value fields).isSome := by
      rw [Command.run]
      cases db.update? name value fields <;> rfl
    rw [hreply, hreply, isSome_update?_eq, isSome_update?_eq, h.load?_eq hwithin]
  | find name query =>
    rw [Command.within, Bool.and_eq_true] at hwithin
    rw [Command.run, Command.run, h.find_eq hwithin.1 hwithin.2]
  | count name filter => rw [Command.run, Command.run, h.count_eq hwithin]
  | load name value => rw [Command.run, Command.run, h.load?_eq hwithin]
  | records name => rw [Command.run, Command.run, h.records_eq hwithin]
  | names => cases hwithin

/-- A command does the same to the collections in scope where these are the same. -/
theorem AgreeOn.run (h : AgreeOn scope db other) (command : Command) :
    AgreeOn scope (command.run db).2 (command.run other).2 := by
  intro name hname
  by_cases htarget : command.target? = some name
  · have hwithin : command.within scope := (Command.within_of_target? htarget).trans hname
    have hstep := Command.step db command name
    rw [h name hname, h.reply_eq hwithin] at hstep
    exact hstep.unique (Command.step other command name)
  · rw [Command.collection_run_of_ne db htarget, Command.collection_run_of_ne other htarget]
    exact h name hname

/-- A command that does not write to a collection in scope changes nothing there. -/
theorem agreeOn_run (db : Database) (h : ∀ name, scope name → command.target? ≠ some name) :
    AgreeOn scope (command.run db).2 db :=
  fun name hname => Command.collection_run_of_ne db (h name hname)

/-! ## A session -/

/-- Commands in scope are told the same in a session as in what is left of it without the writes
out of scope. -/
theorem AgreeOn.within_transcript (h : AgreeOn scope db other) (commands : List Command) :
    (db.transcript commands).within scope =
      (other.transcript (commands.filter (Command.spares scope))).within scope := by
  induction commands generalizing db other with
  | nil => rfl
  | cons command rest ih =>
    rw [transcript_cons, Transcript.within_cons]
    by_cases hspares : command.spares scope
    · rw [List.filter_cons_of_pos hspares, transcript_cons, Transcript.within_cons,
        ih (h.run command)]
      by_cases hwithin : command.within scope
      · rw [h.reply_eq hwithin]
      · rw [if_neg hwithin, if_neg hwithin]
    · have hwithin : ¬ command.within scope := fun hw => hspares (Command.spares_of_within hw)
      have htarget : ∀ name, scope name → command.target? ≠ some name := fun name hname heq =>
        hspares (by rw [Command.spares, heq]; exact hname)
      rw [if_neg hwithin, List.filter_cons_of_neg hspares]
      -- the write that is left out changes nothing in scope
      exact ih fun name hname => (agreeOn_run db htarget name hname).trans (h name hname)

/-- What happens out of scope cannot be seen in scope. Without its writes out of scope a session
gives the same replies to all commands in scope; databases that have the same collections in scope
give the same replies to them; and a command that does not write in scope changes neither a
collection in scope nor the reply to any command there. -/
theorem isolation (scope : String → Bool) :
    (∀ (start : Database) (commands : List Command),
      (start.transcript commands).within scope =
        (start.transcript (commands.filter (Command.spares scope))).within scope) ∧
    (∀ db other : Database, (∀ name, scope name → db.collection name = other.collection name) →
      ∀ command : Command, command.within scope → (command.run db).1 = (command.run other).1) ∧
    (∀ (db : Database) (foreign : Command),
      (∀ name, scope name → foreign.target? ≠ some name) →
      (∀ name, scope name → (foreign.run db).2.collection name = db.collection name) ∧
      ∀ command : Command, command.within scope →
        (command.run (foreign.run db).2).1 = (command.run db).1) := by
  refine ⟨fun start => AgreeOn.within_transcript fun _ _ => rfl, fun db other h command => ?_,
    fun db foreign hforeign => ?_⟩
  · exact AgreeOn.reply_eq h
  · have hagree := agreeOn_run db hforeign
    exact ⟨hagree, fun command => hagree.reply_eq⟩

/-- A create in another collection changes neither a create nor a search with a join. -/
theorem isolation_create : ∃ start changed,
    start = ((Command.create "A" [("n", .int32 1)]).run empty).2 ∧
    changed = ((Command.create "B" [("n", .int32 2)]).run start).2 ∧
    ((Command.create "A" []).run changed).1 = .created 2 ∧
    ((Command.find "A" (Query.all.withJoin "peers" (Join.ofCollection "A"))).run changed).1 =
      .rows [[("id", .int64 1), ("n", .int32 1),
        ("peers", .array [.document [("id", .int64 1), ("n", .int32 1)]])]] := by
  let scope : String → Bool := fun name => name == "A"
  let start := ((Command.create "A" [("n", .int32 1)]).run empty).2
  have hforeign : ∀ name, scope name →
      (Command.create "B" [("n", .int32 2)]).target? ≠ some name := by
    rintro name hname ⟨⟩
    cases hname
  obtain ⟨hagree, hreply⟩ := (isolation scope).2.2 start _ hforeign
  refine ⟨start, _, rfl, rfl, ?_, ?_⟩
  · exact hreply (.create "A" []) rfl
  · exact (isolation scope).2.1 _ start hagree (.find "A" _) rfl

end Database

end DocumentStore
