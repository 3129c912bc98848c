import DocumentStore.Proofs.Database.Lookup

/-!
# What a session does to a collection

A session is followed by its transcript, the commands with the replies to them. All that a command
does to one collection is said by `Collection.Step`, in five cases; `Command.step` is the one place
where commands are run to prove it. What holds along a session follows by induction on its commands.

* `Transcript.created` and `Transcript.merged` read the successful writes off a transcript;
* `ids_run`: a session appends the identifiers that its creates hand out, and does nothing else to
  the row of identifiers;
* `nextId_run` and `createReplies_run`: the sequence moves on with every create, as far as it can,
  and every create is told where it stands.
-/

namespace DocumentStore

/-- The commands of a session, each with the reply to it. -/
abbrev Transcript := List (Command × Reply)

/-! ## Writes in a transcript -/

/-- The collection that a command writes to, if it is a write. -/
def Command.target? : Command → Option String
  | .create name _ => some name
  | .update name _ _ => some name
  | _ => none

/-- Whether a command is a create in the named collection. -/
def Command.creates (name : String) : Command → Bool
  | .create target _ => target == name
  | _ => false

/-- The fields that a command has made into a record of the named collection, with the identifier
that the record got. -/
def created? (name : String) : Command × Reply → Option (Document × Nat)
  | (.create target fields, .created id) => if target = name then some (fields, id) else none
  | _ => none

/-- The fields that a command has merged into the record of the named collection with the given
identifier. -/
def merged? (name : String) (id : Nat) : Command × Reply → Option Document
  | (.update target value fields, .updated true) =>
    if target = name ∧ coerceId value = some id then some fields else none
  | _ => none

/-- The reply to a create when the sequence of the named collection stands at `id`. -/
def Reply.ofNext (name : String) (id : Nat) : Reply :=
  if id < maxId then .created id else .failed (.sequenceExhausted name)

namespace Transcript

/-- The records that were created in a collection, in order. -/
def created (transcript : Transcript) (name : String) : List (Document × Nat) :=
  transcript.filterMap (created? name)

/-- The fields that were merged into a record, in order. -/
def merged (transcript : Transcript) (name : String) (id : Nat) : List Document :=
  transcript.filterMap (merged? name id)

/-- The replies to the creates in a collection, in order. -/
def createReplies (transcript : Transcript) (name : String) : List Reply :=
  (transcript.filter fun entry => entry.1.creates name).map Prod.snd

theorem created_cons (entry : Command × Reply) (rest : Transcript) (name : String) :
    created (entry :: rest) name = (created? name entry).toList ++ rest.created name := by
  unfold created
  rw [List.filterMap_cons]
  cases created? name entry <;> rfl

theorem merged_cons (entry : Command × Reply) (rest : Transcript) (name : String) (id : Nat) :
    merged (entry :: rest) name id = (merged? name id entry).toList ++ rest.merged name id := by
  unfold merged
  rw [List.filterMap_cons]
  cases merged? name id entry <;> rfl

theorem createReplies_cons (command : Command) (reply : Reply) (rest : Transcript)
    (name : String) : createReplies ((command, reply) :: rest) name =
      if command.creates name then reply :: rest.createReplies name else rest.createReplies name := by
  unfold createReplies
  rw [List.filter_cons]
  split <;> rfl

end Transcript

/-- Beyond the largest integer nothing is handed out any more. -/
theorem Reply.ofNext_min (name : String) (id : Nat) :
    Reply.ofNext name (min id maxId) = Reply.ofNext name id := by
  unfold Reply.ofNext
  by_cases hid : id < maxId
  · rw [Nat.min_eq_left (by omega)]
  · rw [if_neg (by omega), if_neg hid]

variable {name : String} {command : Command} {reply : Reply} {entry : Command × Reply}

theorem created?_eq_none (h : command.target? ≠ some name) :
    created? name (command, reply) = none := by
  cases command with
  | create target fields =>
    have htarget : target ≠ name := fun heq => h (congrArg some heq)
    cases reply <;> simp [created?, htarget]
  | update | find | count | load | records | names => rfl

theorem merged?_eq_none (h : command.target? ≠ some name) (id : Nat) :
    merged? name id (command, reply) = none := by
  cases command with
  | update target value fields =>
    have htarget : target ≠ name := fun heq => h (congrArg some heq)
    rcases reply with _ | _ | (_ | _) | _ | _ | _ | _ <;> simp [merged?, htarget]
  | create | find | count | load | records | names => rfl

theorem creates_eq_false (h : command.target? ≠ some name) : command.creates name = false := by
  cases command with
  | create target fields =>
    have htarget : target ≠ name := fun heq => h (congrArg some heq)
    simp [Command.creates, htarget]
  | update | find | count | load | records | names => rfl

/-! ## One command -/

/-- What a command, with the reply to it, does to the named collection. -/
inductive Collection.Step (name : String) (c : Collection) : Command × Reply → Collection → Prop
  /-- A create is given an identifier. -/
  | created {fields : Document} {id : Nat} {d : Collection}
      (h : c.create? fields = some (id, d)) : Step name c (.create name fields, .created id) d
  /-- A create finds the sequence at its end. -/
  | exhausted {fields : Document} (h : c.nextId = maxId) :
      Step name c (.create name fields, .failed (.sequenceExhausted name)) c
  /-- An update finds its record. -/
  | updated {value : Value} {fields : Document} {id : Nat} {d : Collection}
      (hid : coerceId value = some id) (h : c.update? id fields = some d) :
      Step name c (.update name value fields, .updated true) d
  /-- An update finds no record. -/
  | missed {value : Value} {fields : Document} (h : (coerceId value).bind c.get? = none) :
      Step name c (.update name value fields, .updated false) c
  /-- The command does not write to the collection. -/
  | unrelated {command : Command} {reply : Reply} (h : command.target? ≠ some name) :
      Step name c (command, reply) c

/-- A command leaves all collections alone but the one that it writes to. -/
theorem Command.collection_run_of_ne (db : Database) (h : command.target? ≠ some name) :
    (command.run db).2.collection name = db.collection name := by
  cases command with
  | create target fields =>
    have htarget : target ≠ name := fun heq => h (congrArg some heq)
    rw [Command.run]
    split
    · next hc =>
      obtain ⟨grown, -, rfl⟩ := Database.create_eq_ok_iff.1 hc
      rw [Database.collection_put, if_neg htarget]
    · rfl
  | update target value fields =>
    have htarget : target ≠ name := fun heq => h (congrArg some heq)
    rw [Command.run]
    split
    · next hu =>
      obtain ⟨id, changed, -, -, rfl⟩ := Database.update?_eq_some_iff.1 hu
      rw [Database.collection_put, if_neg htarget]
    · rfl
  | find | count | load | records | names => rfl

/-- Every command is one of the five steps of every collection. -/
theorem Command.step (db : Database) (command : Command) (name : String) :
    Collection.Step name (db.collection name) (command, (command.run db).1)
      ((command.run db).2.collection name) := by
  by_cases htarget : command.target? = some name
  · cases command with
    | create target fields =>
      obtain rfl := Option.some.inj htarget
      rw [Command.run]
      split
      · next hc =>
        obtain ⟨grown, hgrown, rfl⟩ := Database.create_eq_ok_iff.1 hc
        rw [Database.collection_put, if_pos rfl]
        exact .created hgrown
      · next hc =>
        obtain ⟨hmax, rfl⟩ := Database.create_eq_error_iff.1 hc
        exact .exhausted hmax
    | update target value fields =>
      obtain rfl := Option.some.inj htarget
      rw [Command.run]
      split
      · next hu =>
        obtain ⟨id, changed, hid, hchanged, rfl⟩ := Database.update?_eq_some_iff.1 hu
        rw [Database.collection_put, if_pos rfl]
        exact .updated hid hchanged
      · next hu =>
        have hload : db.load? target value = none := by
          rw [← Option.not_isSome_iff_eq_none, ← Database.isSome_update?_eq, hu]
          exact Bool.false_ne_true
        exact .missed hload
    | find | count | load | records | names => cases htarget
  · rw [Command.collection_run_of_ne db htarget]
    exact .unrelated htarget

namespace Collection.Step

variable {c d : Collection} {id : Nat} {fields : Document}

theorem consistent (h : Step name c entry d) (hc : c.Consistent) : d.Consistent := by
  cases h with
  | created h => exact hc.create? h
  | updated _ h => exact hc.update? h
  | exhausted | missed | unrelated => exact hc

/-- A command appends the identifier that it hands out to the row of identifiers. -/
theorem ids (h : Step name c entry d) (hc : c.Consistent) :
    d.ids = c.ids ++ (created? name entry).toList.map Prod.snd := by
  cases h with
  | created h =>
    obtain ⟨-, rfl, rfl⟩ := create?_eq_some_iff.1 h
    obtain ⟨h0, hle⟩ := hc.nextId_bounds
    rw [created?, if_pos rfl]
    exact ids_push h0 hle _
  | exhausted => simp [created?]
  | updated hid h =>
    obtain ⟨record, -, hr⟩ := update?_eq_some_iff.1 h
    rw [hc.ids_replace? hr]
    simp [created?]
  | missed => simp [created?]
  | unrelated h =>
    rw [created?_eq_none h]
    simp

/-- A create moves the sequence on, as far as it can, and nothing else does. -/
theorem nextId (h : Step name c entry d) (hc : c.Consistent) :
    d.nextId = if entry.1.creates name then min (c.nextId + 1) maxId else c.nextId := by
  have hle := hc.nextId_bounds.2
  cases h with
  | created h =>
    obtain ⟨hmax, rfl, rfl⟩ := create?_eq_some_iff.1 h
    simp [Command.creates]
    omega
  | exhausted h =>
    simp [Command.creates, h]
  | updated _ h =>
    obtain ⟨record, -, hr⟩ := update?_eq_some_iff.1 h
    obtain ⟨position, -, rfl⟩ := replace?_eq_some_iff.1 hr
    rfl
  | missed => rfl
  | unrelated h => simp [creates_eq_false h]

/-- A create is told where the sequence stands. -/
theorem reply_eq (h : Step name c entry d) (hc : c.Consistent) (hcreates : entry.1.creates name) :
    entry.2 = Reply.ofNext name c.nextId := by
  have hle := hc.nextId_bounds.2
  cases h with
  | created h =>
    obtain ⟨hmax, rfl, rfl⟩ := create?_eq_some_iff.1 h
    exact (if_pos (by omega)).symm
  | exhausted h => exact (if_neg (by omega)).symm
  | updated | missed => cases hcreates
  | unrelated h =>
    rw [creates_eq_false h] at hcreates
    cases hcreates

/-- A record that was made from some fields is as if it were made from these and all fields that
are merged into it. -/
theorem get? (h : Step name c entry d) (hc : c.Consistent)
    (hget : c.get? id = some (stored id fields)) :
    d.get? id = some (stored id ((merged? name id entry).toList.foldl Fields.merge fields)) := by
  have hmem : id ∈ c.ids := by
    by_contra hid
    rw [hc.get?_eq_none_iff.2 hid] at hget
    cases hget
  cases h with
  | @created later new d h =>
    -- the identifier that is handed out is none of those in use
    have hne : new ≠ id := by
      rw [(create?_eq_some_iff.1 h).2.1]
      exact Nat.ne_of_gt (hc.lt_nextId hmem)
    rw [hc.get?_create? h, if_neg hne]
    exact hget
  | exhausted | missed => exact hget
  | @updated value later other d hid h =>
    rw [hc.get?_update? h, merged?]
    by_cases hother : other = id
    · subst hother
      rw [if_pos rfl, hget, Option.map_some, stored_merge]
      simp [hid]
    · have hvalue : coerceId value ≠ some id := fun heq =>
        hother (Option.some.inj (hid.symm.trans heq))
      rw [if_neg hother, hget]
      simp [hvalue]
  | unrelated h =>
    rw [merged?_eq_none h]
    exact hget

/-- A record that is created is found under the identifier that it gets. -/
theorem get?_of_created (h : Step name c entry d) (hc : c.Consistent)
    (hcreated : created? name entry = some (fields, id)) : d.get? id = some (stored id fields) := by
  cases h with
  | created h =>
    rw [created?, if_pos rfl, Option.some.injEq, Prod.mk.injEq] at hcreated
    obtain ⟨rfl, rfl⟩ := hcreated
    rw [hc.get?_create? h, if_pos rfl]
  | exhausted | updated | missed => cases hcreated
  | unrelated h =>
    rw [created?_eq_none h] at hcreated
    cases hcreated

/-- Fields are merged into a record that is there. -/
theorem mem_ids_of_merged (h : Step name c entry d) (hc : c.Consistent)
    (hmerged : merged? name id entry = some fields) : id ∈ c.ids := by
  cases h with
  | created | exhausted | missed => cases hmerged
  | updated hid h =>
    obtain ⟨record, hget, -⟩ := update?_eq_some_iff.1 h
    obtain ⟨⟨-, hvalue⟩, -⟩ := Option.ite_none_right_eq_some.1 hmerged
    obtain rfl := Option.some.inj (hid.symm.trans hvalue)
    obtain ⟨hr, hrid⟩ := hc.get?_eq_some_iff.1 hget
    exact mem_ids.2 ⟨record, hr, hrid⟩
  | unrelated h =>
    rw [merged?_eq_none h] at hmerged
    cases hmerged

end Collection.Step

/-! ## Many commands -/

namespace Database

variable {db : Database}

/-- The commands of a session with the replies to them. -/
def transcript (db : Database) (commands : List Command) : Transcript :=
  commands.zip (db.run commands).1

theorem run_cons (db : Database) (command : Command) (rest : List Command) :
    (db.run (command :: rest)).2 = ((command.run db).2.run rest).2 := rfl

theorem transcript_cons (db : Database) (command : Command) (rest : List Command) :
    db.transcript (command :: rest) =
      (command, (command.run db).1) :: (command.run db).2.transcript rest := rfl

theorem run_append (db : Database) (front back : List Command) :
    (db.run (front ++ back)).2 = ((db.run front).2.run back).2 := by
  induction front generalizing db with
  | nil => rfl
  | cons command rest ih => exact ih (command.run db).2

theorem Reachable.session (h : db.Reachable) (commands : List Command) :
    (db.run commands).2.Reachable := by
  induction commands generalizing db with
  | nil => exact h
  | cons command rest ih => exact ih (.run command h)

theorem Consistent.session (h : db.Consistent) (commands : List Command) :
    (db.run commands).2.Consistent := by
  induction commands generalizing db with
  | nil => exact h
  | cons command rest ih => exact ih (h.run command)

/-- A session appends the identifiers that its creates hand out to the row of identifiers. -/
theorem ids_run (h : db.Consistent) (commands : List Command) (name : String) :
    ((db.run commands).2.collection name).ids =
      (db.collection name).ids ++ ((db.transcript commands).created name).map Prod.snd := by
  induction commands generalizing db with
  | nil => exact (List.append_nil _).symm
  | cons command rest ih =>
    have hstep := (Command.step db command name).ids (h.collection name)
    rw [run_cons, ih (h.run command), hstep, transcript_cons, Transcript.created_cons,
      List.map_append, List.append_assoc]

/-- A session moves the sequence on by the number of its creates, as far as it can. -/
theorem nextId_run (h : db.Consistent) (commands : List Command) (name : String) :
    ((db.run commands).2.collection name).nextId =
      min ((db.collection name).nextId + commands.countP (·.creates name)) maxId := by
  induction commands generalizing db with
  | nil => exact (Nat.min_eq_left (h.collection name).nextId_bounds.2).symm
  | cons command rest ih =>
    have hstep := (Command.step db command name).nextId (h.collection name)
    rw [run_cons, ih (h.run command), hstep, List.countP_cons]
    split
    · omega
    · omega

/-- The creates in a collection are told one identifier after the other, up to the end. -/
theorem createReplies_run (h : db.Consistent) (commands : List Command) (name : String)
    (first : Nat) (hfirst : (db.collection name).nextId = min first maxId) :
    (db.transcript commands).createReplies name =
      (List.range' first (commands.countP (·.creates name))).map (Reply.ofNext name) := by
  induction commands generalizing db first with
  | nil => rfl
  | cons command rest ih =>
    have hstep := Command.step db command name
    have hnext := hstep.nextId (h.collection name)
    rw [transcript_cons, Transcript.createReplies_cons, List.countP_cons]
    by_cases hcreates : command.creates name
    · have hreply := hstep.reply_eq (h.collection name) hcreates
      rw [if_pos hcreates] at hnext
      -- at its end the sequence stands still, and so do the replies
      have hrest := ih (h.run command) (first + 1) (by omega)
      rw [hfirst, Reply.ofNext_min] at hreply
      rw [if_pos hcreates, if_pos hcreates, List.range'_succ, List.map_cons, hrest, ← hreply]
    · rw [if_neg hcreates] at hnext
      rw [if_neg hcreates, if_neg hcreates, ih (h.run command) first (by omega)]
      rfl

end Database

end DocumentStore
