import RaftJournal.Command.Replay
import RaftJournal.Proofs.Writer.Confinement
import RaftJournal.Proofs.Writer.Writes

/-! # A copy is a session of a writer

Whatever a source gives, copying it is the run of a writer that is given the entries one by one, up to the
first that it refuses (**`Replay.copied_of_some`**). So the program leaves the files as they were, or
as a writer's session leaves them (**`Replay.exists_session`**), and a session spares what was there:
**`Replay.files_spared`**. -/

namespace RaftJournal

namespace Replay

section Copies

variable {σ : Type} [EntrySource σ]

/-- A copy goes on after every entry that has been written, or that need not be. -/
theorem copy_eq (tree : FileTree) (writer : Option Writer) (s : σ) :
    copy tree writer s =
      match EntrySource.next tree s with
      | (.error e, _) => ⟨[], some e, writer, tree⟩
      | (.ok none, _) => ⟨[], none, writer, tree⟩
      | (.ok (some entry), s') =>
        match writer with
        | none => (copy tree none s').push entry
        | some w =>
          match Writer.writeEntry entry ⟨w, tree⟩ with
          | .error e desk => ⟨[entry], some e, some desk.writer, desk.tree⟩
          | .ok _ desk => (copy desk.tree (some desk.writer) s').push entry := by
  rw [copy]
  split
  next e s' asked => rw [asked]
  next s' asked => rw [asked]
  next entry s' asked =>
    rw [asked]
    cases writer <;> rfl

/-- Without a writer a copy changes no file. -/
theorem copied_of_none (tree : FileTree) (s : σ) :
    (copy tree none s).writer = none ∧ (copy tree none s).tree = tree := by
  rw [copy_eq]
  generalize asked : EntrySource.next tree s = answered
  obtain ⟨pulled, s'⟩ := answered
  rcases pulled with e | - | entry
  · exact ⟨rfl, rfl⟩
  · exact ⟨rfl, rfl⟩
  · exact copied_of_none tree s'
termination_by EntrySource.rank s
decreasing_by
  have less := EntrySource.rank_next_some tree s entry
  rw [asked] at less
  exact less rfl

/-- The desk that some entries leave, whether or not they are refused. -/
def deskAfter (entries : List Entry) (desk : Desk) : Desk :=
  (performAll Writer.perform (Writer.writes entries) desk).2

theorem deskAfter_cons (entry : Entry) (rest : List Entry) (desk : Desk) :
    deskAfter (entry :: rest) desk =
      deskAfter rest (finalState (Writer.writeEntry entry desk)) := by
  rw [deskAfter, Writer.writes, List.map_cons, performAll_cons, Writer.perform, finalState_map]
  rfl

/-- A finish after the entries. -/
theorem desk_finish (entries : List Entry) (desk : Desk) :
    (performAll Writer.perform (Writer.writes entries ++ [.finish]) desk).2 =
      finalState (Writer.finish (deskAfter entries desk)) := by
  rw [performAll_append, performAll_cons]
  show finalState (Writer.perform .finish (deskAfter entries desk)) = _
  rw [Writer.perform, finalState_map]

/-- **A copy is a run of its writer**, which is given the entries that the source gave; an entry that is
refused is the last of them. -/
theorem copied_of_some (s : σ) (desk : Desk) :
    let copied := copy desk.tree (some desk.writer) s
    copied.writer = some (deskAfter copied.entries desk).writer ∧
      copied.tree = (deskAfter copied.entries desk).tree := by
  intro copied
  rw [show copied = copy desk.tree (some desk.writer) s from rfl, copy_eq]
  generalize asked : EntrySource.next desk.tree s = answered
  obtain ⟨pulled, s'⟩ := answered
  rcases pulled with e | - | entry
  · exact ⟨rfl, rfl⟩
  · exact ⟨rfl, rfl⟩
  · simp only
    cases wrote : Writer.writeEntry entry desk with
    | error e after =>
      show some after.writer = some (deskAfter [entry] desk).writer ∧
        after.tree = (deskAfter [entry] desk).tree
      rw [deskAfter_cons, wrote]
      exact ⟨rfl, rfl⟩
    | ok u after =>
      have rest := copied_of_some s' after
      show _ = some (deskAfter (entry :: _) desk).writer ∧ _ = (deskAfter (entry :: _) desk).tree
      rw [deskAfter_cons, wrote]
      exact rest
termination_by EntrySource.rank s
decreasing_by
  have less := EntrySource.rank_next_some desk.tree s entry
  rw [asked] at less
  exact less rfl

/-! ## runs -/

/-- The lines of some entries. -/
def Request.lines (request : Request) (entries : List Entry) : List String :=
  if request.quiet then [] else entries.map Entry.print

/-- How the journal of a request is written. -/
def Request.writing (request : Request) : WriterConfig :=
  { WriterConfig.default with group := request.config.group }

variable {request : Request} {tree made : FileTree} {root : String} {w : Writer}

/-- Without a directory for a journal the program only prints. -/
theorem runSource_of_none (output : request.outputDir = none) (tree : FileTree) (s : σ) :
    runSource request tree s =
      match (copy tree none s).error with
      | some e => .failure program (request.lines (copy tree none s).entries) e.message tree
      | none => .success (request.lines (copy tree none s).entries) tree := by
  obtain ⟨writer, files⟩ := copied_of_none tree s
  rw [runSource, makeWriter, output]
  simp only [writer, files]
  cases (copy tree none s).error <;> rfl

theorem makeWriter_of_some (output : request.outputDir = some root)
    {result : Except JournalError Writer}
    (created : Writer.create tree root request.writing .json = (result, made)) :
    makeWriter request tree = (result.map some, made) := by
  rw [Request.writing] at created
  rw [makeWriter, output]
  simp only [created]

/-- A writer that cannot be created ends the program before anything is printed. -/
theorem runSource_of_refused (output : request.outputDir = some root) {e : JournalError}
    (created : Writer.create tree root request.writing .json = (.error e, made)) (s : σ) :
    runSource request tree s = .failure program [] e.message made := by
  rw [runSource, makeWriter_of_some output created]
  rfl

/-- With a writer the program leaves what the writer does. -/
theorem runSource_of_created (output : request.outputDir = some root)
    (created : Writer.create tree root request.writing .json = (.ok w, made)) (s : σ) :
    let copied := copy made (some w) s
    let desk := deskAfter copied.entries ⟨w, made⟩
    runSource request tree s =
      match copied.error with
      | some e => .failure program (request.lines copied.entries) e.message desk.tree
      | none =>
        match Writer.finish desk with
        | .error e after => .failure program (request.lines copied.entries) e.message after.tree
        | .ok _ after => .success (request.lines copied.entries) after.tree := by
  intro copied desk
  obtain ⟨writer, files⟩ := copied_of_some s ⟨w, made⟩
  rw [runSource, makeWriter_of_some output created]
  simp only [Except.map, writer, files]
  cases copied.error <;> rfl

/-- Printing and writing a source leaves the files as they are or as a writer's session leaves them. -/
theorem exists_session_of_source (request : Request) (tree : FileTree) (s : σ) :
    (runSource request tree s).tree = tree ∨ ∃ root config operations,
      (runSource request tree s).tree = Writer.session tree root config .json operations := by
  cases output : request.outputDir with
  | none =>
    rw [runSource_of_none output]
    split <;> exact .inl rfl
  | some root =>
    refine .inr ⟨root, request.writing, ?_⟩
    unfold Writer.session
    cases created : Writer.create tree root request.writing .json with
    | mk result made =>
      cases result with
      | error e =>
        rw [runSource_of_refused output created]
        exact ⟨[], rfl⟩
      | ok w =>
        rw [runSource_of_created output created]
        generalize copy made (some w) s = copied
        cases copied.error with
        | some e => exact ⟨Writer.writes copied.entries, rfl⟩
        | none =>
          refine ⟨Writer.writes copied.entries ++ [.finish], ?_⟩
          simp only
          rw [desk_finish]
          cases Writer.finish (deskAfter copied.entries ⟨w, made⟩) <;> rfl

end Copies

/-- **The program leaves the files as they are, or as a session leaves them** that writes a new journal. -/
theorem exists_session (texts : List String) (tree : FileTree) :
    (run texts tree).tree = tree ∨ ∃ root config operations,
      (run texts tree).tree = Writer.session tree root config .json operations := by
  rw [run]
  split
  next => exact .inl rfl
  next => exact .inl rfl
  next request _ =>
    unfold answer
    split
    · -- a summary of the records is only printed
      refine .inl ?_
      unfold runRecords
      split
      · rfl
      · simp only
        split <;> rfl
    · unfold runEntries
      split
      · exact .inl rfl
      · split
        · exact exists_session_of_source request tree _
        · split
          · exact .inl rfl
          · exact exists_session_of_source request tree _

/-- **No file that was there is touched.** Take any files. Whatever a writer is told to do with them, with
any root, configuration and codec, whether or not it can be created and whatever becomes of its operations:
all files are afterwards where they were with the same bytes, and every new file is in the directory of the
group and has the name of a segment that does not end before it starts. A writer is not created at all, and
nothing is changed, where something in that directory has a name that is read as one of a segment. So no
run of the program changes a file that was there, whatever its arguments are. -/
theorem files_spared (tree : FileTree) :
    (∀ root config codec operations,
      Writer.Spares (groupDirectory root config.group) tree
        (Writer.session tree root config codec operations)) ∧
    (∀ (root : String) (config : WriterConfig) (codec : Codec) (l : Location) (child : String),
      tree.resolve (groupDirectory root config.group) = .ok l →
      tree.node? l = some .directory → child ∈ tree.children l →
      (SegmentName.parse child).isSome →
      Writer.create tree root config codec =
        (.error (.segmentsAlreadyExist (groupDirectory root config.group)), tree)) ∧
    ∀ texts,
      (∀ l stamp content, tree.node? l = some (.file stamp content) →
        (run texts tree).tree.node? l = some (.file stamp content)) ∧
      ∀ path content, tree.read path = .ok content →
        (run texts tree).tree.read path = .ok content := by
  refine ⟨fun root config codec operations => Writer.spares_session tree root config codec operations,
    fun root config codec l child led found mem named => Writer.create_of_child led found mem named,
    fun texts => ?_⟩
  rcases exists_session texts tree with same | ⟨root, config, operations, same⟩
  · rw [same]
    exact ⟨fun _ _ _ found => found, fun _ _ read => read⟩
  · rw [same]
    have spares := Writer.spares_session tree root config .json operations
    exact ⟨fun l stamp content found => spares.places l _ found, spares.paths⟩

/-- The directory of the usual group in a journal. -/
def currentDirectory : Location := ["j", "raft", Uuid.defaultGroup.render, "current"]

/-- A journal with a file that has the name of a segment. -/
def occupied : FileTree :=
  ⟨[(["j"], .directory), (["j", "raft"], .directory),
    (["j", "raft", Uuid.defaultGroup.render], .directory), (currentDirectory, .directory),
    (currentDirectory ++ ["log_0-0"], .file 0 ⟨[1, 2, 3], 0⟩)], 1⟩

/-- Where there is a file with the name of a segment no writer is created. It can still be read after a
session of a writer elsewhere, and after a run that is to write where it reads. -/
theorem files_spared_of_one :
    occupied.resolve (groupDirectory "j" .defaultGroup) = .ok currentDirectory ∧
    occupied.node? currentDirectory = some .directory ∧
    "log_0-0" ∈ occupied.children currentDirectory ∧
    (SegmentName.parse "log_0-0").isSome ∧
    Writer.create occupied "j" .default .json =
      (.error (.segmentsAlreadyExist (groupDirectory "j" .defaultGroup)), occupied) ∧
    (Writer.session occupied "k" .default .json [.appendRecord .metadata [7], .finish]).read
      (Path.join (groupDirectory "j" .defaultGroup) "log_0-0") = .ok ⟨[1, 2, 3], 0⟩ ∧
    (run ["-i", "j", "-o", "j"] occupied).tree.read
      (Path.join (groupDirectory "j" .defaultGroup) "log_0-0") = .ok ⟨[1, 2, 3], 0⟩ := by
  have led : occupied.resolve (groupDirectory "j" .defaultGroup) = .ok currentDirectory := by
    decide +kernel
  have found : occupied.node? currentDirectory = some .directory := by decide +kernel
  have mem : "log_0-0" ∈ occupied.children currentDirectory := by decide +kernel
  have named : (SegmentName.parse "log_0-0").isSome := by decide +kernel
  have read : occupied.read (Path.join (groupDirectory "j" .defaultGroup) "log_0-0") =
      .ok ⟨[1, 2, 3], 0⟩ := by decide +kernel
  obtain ⟨sessions, refused, runs⟩ := files_spared occupied
  exact ⟨led, found, mem, named, refused "j" .default .json _ _ led found mem named,
    (sessions "k" .default .json _).paths _ _ read, (runs _).2 _ _ read⟩

end Replay

end RaftJournal
