import DocumentStore.Proofs.Dataset.Loading
import DocumentStore.Proofs.Session.Effect
import DocumentStore.Proofs.Session.Identifiers
import DocumentStore.Proofs.Text.ByteOrder

/-!
# The names of the collections

A database names the collections that its dataset has named, even without records, and those that a
create has brought into being. Names come and go with nothing else: a create that fails finds its
collection at the end of the sequence, so the collection was there before.

* `mem_names_step`: what one command does to the names;
* `mem_names_session`: what a session does to them, by induction on its commands;
* `names_session` adds their order, and says it for every moment of a session on a loaded dataset.
-/

namespace DocumentStore

theorem Dataset.mem_names_of_load {data : Dataset} {db : Database} (h : data.load = .ok db)
    (name : String) : name ∈ db.names ↔ name ∈ data.names := by
  obtain ⟨hmem, hother⟩ := getElem?_of_loadInto data.nodup_names_toList h name
  rw [Database.names, Std.ExtTreeMap.mem_keys, Std.ExtTreeMap.mem_iff_isSome_getElem?]
  by_cases hname : name ∈ data.names
  · obtain ⟨c, -, hc⟩ := hmem (data.records name) (mem_toList_iff.2 ⟨hname, rfl⟩)
    rw [hc]
    exact iff_of_true rfl hname
  · rw [hother (data.names_toList ▸ hname)]
    exact iff_of_false (by simp [Database.empty]) hname

theorem created?_eq_some_iff {name : String} {entry : Command × Reply} {fields : Document} {id : Nat} :
    created? name entry = some (fields, id) ↔ entry = (.create name fields, .created id) := by
  obtain ⟨command, reply⟩ := entry
  cases command with
  | create target fields =>
    cases reply with
    | created id =>
      rw [created?]
      split
      · next htarget => simp [htarget]
      · next htarget => simp [htarget]
    | failed | updated | rows | number | row | names => simp [created?]
  | update | find | count | load | records | names => simp [created?]

/-- Records were created in a collection when a create there has succeeded. -/
theorem Transcript.created_ne_nil_iff {transcript : Transcript} {name : String} :
    transcript.created name ≠ [] ↔
      ∃ fields id, (Command.create name fields, Reply.created id) ∈ transcript := by
  constructor
  · intro hne
    obtain ⟨⟨fields, id⟩, hmade⟩ := List.exists_mem_of_ne_nil _ hne
    obtain ⟨entry, hmem, hcreated⟩ := List.mem_filterMap.1 hmade
    exact ⟨fields, id, created?_eq_some_iff.1 hcreated ▸ hmem⟩
  · rintro ⟨fields, id, hmem⟩
    exact List.ne_nil_of_mem (List.mem_filterMap.2 ⟨_, hmem, created?_eq_some_iff.2 rfl⟩)

theorem Command.creates_iff {command : Command} {name : String} :
    command.creates name ↔ ∃ fields, command = .create name fields := by
  cases command with
  | create target fields => simp [creates]
  | update | find | count | load | records | names => simp [creates]

namespace Database

variable {data : Dataset} {db start : Database} {name : String}

/-! ## One command -/

/-- An unknown collection stands at the beginning of its sequence. -/
theorem nextId_of_not_mem_names (h : name ∉ db.names) : (db.collection name).nextId = 1 := by
  rw [collection_of_not_mem_names h]
  rfl

/-- A create in an unknown collection succeeds. -/
theorem reply_create_of_not_mem_names (hc : db.Consistent) (h : name ∉ db.names) (fields : Document) :
    ((Command.create name fields).run db).1 = .created 1 := by
  rw [reply_create_eq_created_iff hc, nextId_of_not_mem_names h]
  exact ⟨rfl, by decide⟩

/-- A command keeps all names, and adds that of the collection in which it has created a record. -/
theorem mem_names_step (db : Database) (command : Command) (name : String) :
    name ∈ (command.run db).2.names ↔
      name ∈ db.names ∨ (created? name (command, (command.run db).1)).isSome := by
  cases command with
  | create target fields =>
    rw [Command.run]
    split
    · next id grown hc =>
      obtain ⟨grown, -, rfl⟩ := create_eq_ok_iff.1 hc
      rw [mem_names_put, or_comm, created?]
      split <;> simp [*]
    · next hc => exact (or_iff_left Bool.false_ne_true).symm
  | update target value fields =>
    have hcreates : ¬ (Command.update target value fields).creates name := Bool.false_ne_true
    rw [mem_names_run, or_iff_right hcreates]
    exact (or_iff_left Bool.false_ne_true).symm
  | find | count | load | records | names => exact (or_iff_left Bool.false_ne_true).symm

/-! ## Many commands -/

/-- A session keeps all names, and adds those of the collections in which it has created records. -/
theorem mem_names_session (db : Database) (commands : List Command) (name : String) :
    name ∈ (db.run commands).2.names ↔
      name ∈ db.names ∨ (db.transcript commands).created name ≠ [] := by
  induction commands generalizing db with
  | nil => exact (or_iff_left fun hne => hne rfl).symm
  | cons command rest ih =>
    rw [run_cons, ih, mem_names_step, transcript_cons, Transcript.created_cons, or_assoc]
    cases created? name (command, (command.run db).1) <;> simp

/-- The names at every moment of a session on a dataset that is loaded.

They ascend byte by byte, so that none stands there twice, and they are those that the dataset names,
even without records, and those of the collections in which a create has succeeded so far. No command
takes a name away. No command adds one unless it is a create, and a create that fails adds none; in a
collection whose name is not there, a create succeeds. -/
theorem names_session (h : data.load = .ok start) (commands : List Command) :
    let transcript := start.transcript commands
    let now := (start.run commands).2
    Command.names.run now = (.names now.names, now) ∧
    now.names.Pairwise BytesBelow ∧ now.names.Nodup ∧
    (∀ name : String, name ∈ now.names ↔ name ∈ data.names ∨
      ∃ fields id, (Command.create name fields, Reply.created id) ∈ transcript) ∧
    (∀ command : Command, now.names ⊆ (command.run now).2.names) ∧
    (∀ command : Command, (∀ name fields, command ≠ .create name fields) →
      (command.run now).2.names = now.names) ∧
    (∀ (command : Command) (fault : Fault), (command.run now).1 = .failed fault →
      (command.run now).2.names = now.names) ∧
    ∀ (name : String) (fields : Document), name ∉ now.names →
      ((Command.create name fields).run now).1 = .created 1 := by
  intro transcript now
  have hnow : now.Consistent := ((Reachable.load h).session commands).consistent
  have hascending : now.names.Pairwise BytesBelow := now.ascending_names.imp bytesBelow_of_lt
  refine ⟨rfl, hascending, now.nodup_names, fun name => ?_, fun command name hname => ?_,
    fun command hcreate => ?_, fun command fault hfailed => by rw [run_of_failed hfailed],
    fun name fields hname => reply_create_of_not_mem_names hnow hname fields⟩
  · rw [mem_names_session, Dataset.mem_names_of_load h, Transcript.created_ne_nil_iff]
  · exact (mem_names_step now command name).2 (.inl hname)
  · refine names_eq_of_mem_iff fun name => ?_
    have hother : command.creates name ≠ true := fun hcreates => by
      obtain ⟨fields, heq⟩ := Command.creates_iff.1 hcreates
      exact hcreate name fields heq
    rw [mem_names_run, or_iff_right hother]

/-- A dataset names a collection without records and one at the end of its sequence. Of the commands
that follow, one creates a record, in a collection that was updated and counted before. -/
theorem names_session_exhausted : ∃ start,
    ((Dataset.empty.add "é" []).add "B" [[("id", idValue (maxId - 1))]]).load = .ok start ∧
    (start.run [.update "z" (.int32 1) [("n", .int32 5)], .create "B" [],
      .find "C" (Query.all.withJoin "peers" (Join.ofCollection "D")), .count "z" Filter.empty,
      .create "z" []]).2.names = ["B", "z", "é"] ∧
    ["B", "z", "é"].Pairwise BytesBelow := by
  let commands : List Command := [.update "z" (.int32 1) [("n", .int32 5)], .create "B" [],
    .find "C" (Query.all.withJoin "peers" (Join.ofCollection "D")), .count "z" Filter.empty,
    .create "z" []]
  have hrun : ∃ start,
      ((Dataset.empty.add "é" []).add "B" [[("id", idValue (maxId - 1))]]).load = .ok start ∧
      (start.run commands).2.names = ["B", "z", "é"] := ⟨_, rfl, by decide⟩
  obtain ⟨start, hload, hnames⟩ := hrun
  have hascending := (names_session hload commands).2.1
  rw [hnames] at hascending
  exact ⟨start, hload, hnames, hascending⟩

end Database

end DocumentStore
