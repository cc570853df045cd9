import RaftJournal.Proofs.Command.Copying
import RaftJournal.Proofs.Command.Lines
import RaftJournal.Proofs.Command.Options
import RaftJournal.Proofs.Stream.Settled
import RaftJournal.Proofs.Writer.Bare
import RaftJournal.Proofs.Writer.Grants
import RaftJournal.Proofs.Writer.Tiling

/-! # What is printed and what is written

What the source of a request gives is settled before anything is written (**`Request.sourced`**), so that
the program prints and writes just that, entry by entry, up to the end or to the first error: of the source
or of the writer (**`Replay.copy_of_pours`**). A run that goes well has printed all entries and written
them all: **`Replay.outputs_agree`**. -/

namespace RaftJournal

namespace Replay

/-- What the source of a request gives, delayed or not: the entries and the error that ends them; or why
there is no such source. -/
def Request.sourced (request : Request) (tree : FileTree) :
    Except String (List Entry × Option JournalError) :=
  match JournalEntries.ofRoot tree request.inputDir request.config .json with
  | .error e => .error e.message
  | .ok source =>
    match request.entryType with
    | none => .ok (EntrySource.drained tree source)
    | some target =>
      match Disruptor.wrap source ⟨target, request.step⟩ with
      | .error fault => .error fault.message
      | .ok disruptor => .ok (EntrySource.drained tree disruptor)

/-- The writer of a request, if one is wanted, can be created and takes the entries. -/
def Request.Takes (request : Request) (tree : FileTree) (entries : List Entry) : Prop :=
  ∀ root, request.outputDir = some root → ∃ w made,
    Writer.create tree root request.writing .json = (.ok w, made) ∧
      ∀ answer ∈ (performAll Writer.perform (Writer.writes entries) ⟨w, made⟩).1, answer.isOk

section Copies

variable {σ : Type} [EntrySource σ] {tree : FileTree} {entries : List Entry}
  {fault : Option JournalError} {s : σ}

/-- At the end of the source nothing more is copied. -/
theorem copy_of_ending (asked : (EntrySource.next tree s).1 = EntrySource.ending fault)
    (writer : Option Writer) : copy tree writer s = ⟨[], fault, writer, tree⟩ := by
  rw [copy_eq]
  generalize EntrySource.next tree s = answered at asked ⊢
  obtain ⟨pulled, s'⟩ := answered
  cases fault with
  | none =>
    obtain rfl : pulled = .ok none := asked
    rfl
  | some e =>
    obtain rfl : pulled = .error e := asked
    rfl

/-- An entry that is handed out is copied, and then the rest. -/
theorem copy_of_entry {entry : Entry} (asked : (EntrySource.next tree s).1 = .ok (some entry))
    (writer : Option Writer) :
    copy tree writer s =
      match writer with
      | none => (copy tree none (EntrySource.next tree s).2).push entry
      | some w =>
        match Writer.writeEntry entry ⟨w, tree⟩ with
        | .error e desk => ⟨[entry], some e, some desk.writer, desk.tree⟩
        | .ok _ desk =>
          (copy desk.tree (some desk.writer) (EntrySource.next tree s).2).push entry := by
  rw [copy_eq]
  generalize EntrySource.next tree s = answered at asked ⊢
  obtain ⟨pulled, s'⟩ := answered
  obtain rfl : pulled = .ok (some entry) := asked
  rfl

/-- Without a writer the whole source is taken. -/
theorem copy_of_pours_of_none {allowed : FileTree → Prop} (can : allowed tree)
    (pours : Pours allowed entries fault s) : copy tree none s = ⟨entries, fault, none, tree⟩ := by
  induction entries generalizing s with
  | nil => exact copy_of_ending (pours tree can) none
  | cons entry rest ih =>
    obtain ⟨asked, pours⟩ := pours tree can
    rw [copy_of_entry asked]
    simp only
    rw [ih pours]
    rfl

/-- **A copy is what the source pours**, if the writer takes it; and if it ends without an error, the
writer has taken it and the source has ended. -/
theorem copy_of_pours {site : Site} {desk : Desk} (kept : tree.Keeps site.tree)
    (stays : Writer.Stays site desk) (pours : Pours tree.Keeps entries fault s) :
    ((∀ answer ∈ (performAll Writer.perform (Writer.writes entries) desk).1, answer.isOk) →
      copy desk.tree (some desk.writer) s =
        ⟨entries, fault, some (deskAfter entries desk).writer, (deskAfter entries desk).tree⟩) ∧
    ((copy desk.tree (some desk.writer) s).error = none → fault = none ∧
      ∀ answer ∈ (performAll Writer.perform (Writer.writes entries) desk).1, answer.isOk) := by
  -- on the entries; the writer is at its site when the next one is asked for, so the source may be asked
  induction entries generalizing s desk with
  | nil =>
    obtain ⟨next, works⟩ := stays
    rw [copy_of_ending (pours desk.tree (kept.trans works.keeps))]
    exact ⟨fun _ => rfl, fun ended => ⟨ended, fun answer mem => absurd mem List.not_mem_nil⟩⟩
  | cons entry rest ih =>
    obtain ⟨next, works⟩ := id stays
    obtain ⟨asked, pours⟩ := pours desk.tree (kept.trans works.keeps)
    have stays' := ((Writer.steady_stays site).writeEntry entry).finalState stays
    rw [copy_of_entry asked]
    simp only
    show ((∀ answer ∈ (performAll Writer.perform (.writeEntry entry :: Writer.writes rest) desk).1,
      answer.isOk) → _) ∧ _
    cases wrote : Writer.writeEntry entry desk with
    | error e after =>
      have failed : Writer.perform (.writeEntry entry) desk = .error e after := by
        rw [Writer.perform, map_apply, wrote]
      rw [performAll_of_error failed]
      refine ⟨fun granted => ?_, by rintro ⟨⟩⟩
      exact absurd (granted _ List.mem_cons_self) Bool.false_ne_true
    | ok u after =>
      have done : Writer.perform (.writeEntry entry) desk = .ok none after := by
        rw [Writer.perform, map_apply, wrote]
      rw [wrote] at stays'
      replace stays' : Writer.Stays site after := stays'
      obtain ⟨whole, ended⟩ := ih stays' pours
      have later : Writer.writes (entry :: rest) = .writeEntry entry :: Writer.writes rest := rfl
      rw [deskAfter_cons, wrote, later, performAll_of_ok done, List.forall_mem_cons]
      refine ⟨fun granted => ?_, fun fine => ?_⟩
      · simp only
        rw [whole granted.2]
        rfl
      · obtain ⟨none, granted⟩ := ended fine
        exact ⟨none, rfl, granted⟩

/-! ## runs -/

variable {request : Request} {made : FileTree} {root : String} {w : Writer} {e : JournalError}

/-- The copy of a source is made with a writer that stays at its site. -/
theorem copied_of_created (created : Writer.create tree root request.writing .json = (.ok w, made))
    (pours : Pours tree.Keeps entries fault s) :
    ((∀ answer ∈ (performAll Writer.perform (Writer.writes entries) ⟨w, made⟩).1, answer.isOk) →
      copy made (some w) s =
        ⟨entries, fault, some (deskAfter entries ⟨w, made⟩).writer,
          (deskAfter entries ⟨w, made⟩).tree⟩) ∧
    ((copy made (some w) s).error = none → fault = none ∧
      ∀ answer ∈ (performAll Writer.perform (Writer.writes entries) ⟨w, made⟩).1, answer.isOk) := by
  have kept : tree.Keeps made := by
    have furnishes := Writer.furnishes_create tree root request.writing .json
    rw [created] at furnishes
    exact furnishes.keeps
  obtain ⟨site, rfl, -, stays⟩ := Writer.exists_stays created
  have fresh : tree.Keeps (Desk.mk w site.tree).tree := kept
  exact copy_of_pours fresh stays pours

/-- A finish after entries that have been taken. -/
theorem performAll_of_finish {desk after : Desk} {summary : WriterSummary}
    (finished : Writer.finish (deskAfter entries desk) = .ok summary after) :
    performAll Writer.perform (Writer.writes entries ++ [.finish]) desk =
      ((performAll Writer.perform (Writer.writes entries) desk).1 ++ [.ok none], after) := by
  have done : Writer.perform .finish (deskAfter entries desk) = .ok none after := by
    rw [Writer.perform, map_apply, finished]
  rw [performAll_append]
  exact congrArg (fun last => ((performAll Writer.perform (Writer.writes entries) desk).1 ++ last.1,
    last.2)) (performAll_of_ok done [])

/-- **A run that goes well** has printed all that the source gives, which has ended without an error, and
its writer, if there is one, has taken and finished all of it. -/
theorem of_status_zero (pours : Pours tree.Keeps entries fault s)
    (fine : (runSource request tree s).status = 0) :
    fault = none ∧ (runSource request tree s).lines = request.lines entries ∧
      ∀ root, request.outputDir = some root → ∃ w made,
        Writer.create tree root request.writing .json = (.ok w, made) ∧
          (∀ answer ∈ (performAll Writer.perform (Writer.writes entries ++ [.finish]) ⟨w, made⟩).1,
            answer.isOk) ∧
          (runSource request tree s).tree =
            (performAll Writer.perform (Writer.writes entries ++ [.finish]) ⟨w, made⟩).2.tree := by
  cases output : request.outputDir with
  | none =>
    rw [runSource_of_none output, copy_of_pours_of_none (.refl tree) pours] at fine ⊢
    cases fault with
    | some e => cases fine
    | none => exact ⟨rfl, rfl, by rintro _ ⟨⟩⟩
  | some root =>
    cases created : Writer.create tree root request.writing .json with
    | mk result made =>
      cases result with
      | error e =>
        rw [runSource_of_refused output created] at fine
        cases fine
      | ok w =>
        obtain ⟨whole, ended⟩ := copied_of_created created pours
        rw [runSource_of_created output created] at fine ⊢
        cases failed : (copy made (some w) s).error with
        | some e =>
          simp only [failed] at fine
          cases fine
        | none =>
          obtain ⟨rfl, granted⟩ := ended failed
          rw [whole granted] at fine ⊢
          simp only at fine ⊢
          cases finished : Writer.finish (deskAfter entries ⟨w, made⟩) with
          | error e after =>
            rw [finished] at fine
            cases fine
          | ok summary after =>
            refine ⟨trivial, rfl, fun other same => ?_⟩
            obtain rfl := Option.some.inj same
            refine ⟨w, made, created, ?_⟩
            rw [performAll_of_finish finished]
            exact ⟨List.forall_mem_append.mpr ⟨granted, List.forall_mem_singleton.mpr rfl⟩, rfl⟩

/-- A run whose source fails, and whose writer has taken all entries before, has printed these. -/
theorem of_fault (pours : Pours tree.Keeps entries (some e) s) (takes : request.Takes tree entries) :
    (runSource request tree s).status = 1 ∧
      (runSource request tree s).lines = request.lines entries := by
  cases output : request.outputDir with
  | none =>
    rw [runSource_of_none output, copy_of_pours_of_none (.refl tree) pours]
    exact ⟨rfl, rfl⟩
  | some root =>
    obtain ⟨w, made, created, granted⟩ := takes root output
    rw [runSource_of_created output created, (copied_of_created created pours).1 granted]
    exact ⟨rfl, rfl⟩

/-- A run whose source ends, and whose writer takes and finishes everything, goes well. -/
theorem of_taken (pours : Pours tree.Keeps entries none s) (output : request.outputDir = some root)
    (created : Writer.create tree root request.writing .json = (.ok w, made))
    (succeeded : ∀ answer ∈
      (performAll Writer.perform (Writer.writes entries ++ [.finish]) ⟨w, made⟩).1, answer.isOk) :
    runSource request tree s =
      .success (request.lines entries)
        (performAll Writer.perform (Writer.writes entries ++ [.finish]) ⟨w, made⟩).2.tree := by
  rw [performAll_append, List.forall_mem_append] at succeeded
  obtain ⟨granted, finishes⟩ := succeeded
  rw [runSource_of_created output created, (copied_of_created created pours).1 granted]
  simp only
  cases finished : Writer.finish (deskAfter entries ⟨w, made⟩) with
  | ok summary after => rw [performAll_of_finish finished]
  | error e after =>
    have failed : Writer.perform .finish (deskAfter entries ⟨w, made⟩) = .error e after := by
      rw [Writer.perform, map_apply, finished]
    rw [show (performAll Writer.perform (Writer.writes entries) ⟨w, made⟩).2 =
      deskAfter entries ⟨w, made⟩ from rfl, performAll_of_error failed] at finishes
    exact absurd (finishes _ List.mem_cons_self) Bool.false_ne_true

end Copies

/-! ## requests -/

variable {texts : List String} {request : Request} {tree : FileTree}

/-- A directory that is asked for has a name. -/
theorem Request.outputDir_ne_empty (asked : Request.ofArguments? texts = some request) {dir : String}
    (output : request.outputDir = some dir) : dir ≠ "" := by
  obtain ⟨given, -, options⟩ := made_iff.mp asked
  have found := options.outputDir
  rw [output, Arguments.optional] at found
  split at found
  · cases found
  · obtain ⟨path, value, same⟩ := Option.map_eq_some_iff.mp found
    rw [Option.some.inj same, Arguments.path?] at value
    split at value
    · cases value
    · obtain rfl := Option.some.inj value
      assumption

/-- A run that is about entries prints and writes a source, unless there is none. -/
theorem exists_source (tree : FileTree) (asked : Request.ofArguments? texts = some request)
    (mode : request.records = false) :
    (∃ message, request.sourced tree = .error message ∧
      run texts tree = .failure program [] message tree) ∨
    ∃ (σ : Type) (_ : EntrySource σ) (s : σ) (entries : List Entry) (fault : Option JournalError),
      request.sourced tree = .ok (entries, fault) ∧ Pours tree.Keeps entries fault s ∧
        run texts tree = runSource request tree s := by
  rw [run_of_request asked, answer, mode, if_neg Bool.false_ne_true, Request.sourced, runEntries]
  cases opened : JournalEntries.ofRoot tree request.inputDir request.config .json with
  | error e => exact .inl ⟨_, rfl, rfl⟩
  | ok source =>
    cases delayed : request.entryType with
    | none =>
      exact .inr ⟨JournalEntries, inferInstance, source, _, _, rfl, JournalEntries.pours opened, rfl⟩
    | some target =>
      simp only
      cases wrapped : Disruptor.wrap source ⟨target, request.step⟩ with
      | error fault => exact .inl ⟨_, rfl, rfl⟩
      | ok disruptor =>
        have fresh : disruptor = Disruptor.ofSource source ⟨target, request.step⟩ := by
          rw [Disruptor.wrap] at wrapped
          cases valid : DisruptorConfig.validate ⟨target, request.step⟩ with
          | error fault =>
            rw [valid] at wrapped
            cases wrapped
          | ok u =>
            rw [valid] at wrapped
            cases wrapped
            rfl
        subst fresh
        exact .inr ⟨Disruptor JournalEntries, inferInstance, _, _, _, rfl,
          JournalEntries.pours_disruptor opened _, rfl⟩

/-- A run goes well if its source ends and its writer takes and finishes everything. -/
theorem run_of_taken {root : String} {entries : List Entry} {w : Writer} {made : FileTree}
    (asked : Request.ofArguments? texts = some request) (mode : request.records = false)
    (sourced : request.sourced tree = .ok (entries, none)) (output : request.outputDir = some root)
    (created : Writer.create tree root request.writing .json = (.ok w, made))
    (succeeded : ∀ answer ∈
      (performAll Writer.perform (Writer.writes entries ++ [.finish]) ⟨w, made⟩).1, answer.isOk) :
    run texts tree = .success (request.lines entries)
      (performAll Writer.perform (Writer.writes entries ++ [.finish]) ⟨w, made⟩).2.tree := by
  rcases exists_source tree asked mode with
    ⟨message, refused, same⟩ | ⟨σ, _, s, given, fault, sourced', pours, same⟩
  · rw [sourced] at refused
    cases refused
  · rw [sourced] at sourced'
    cases sourced'
    rw [same, of_taken pours output created succeeded]

/-! ## a journal of one entry -/

/-- A new writer for a copy, among its files. -/
def copyDesk (tree : FileTree) (root : String) : Desk :=
  ⟨(Writer.freshDesk root .default .json).writer, (Writer.create tree root .default .json).2⟩

/-- What is left of an entry and a finish. -/
def withOne (tree : FileTree) (root : String) (number : Option UInt64) : FileTree :=
  (performAll Writer.perform (Writer.writes [⟨number, none⟩] ++ [.finish]) (copyDesk tree root)).2.tree

/-- A journal of one entry. -/
def oneEntry : FileTree := withOne .empty "j" none

/-- What is left when that has been copied. -/
def copiedOnce : FileTree := withOne oneEntry "k" (some 0)

/-- The request to print a whole journal and to copy it. -/
def copying (input root : String) : Request := ⟨input, .default, none, 1, some root, false, false⟩

/-- The request to print only. -/
def printing : Request := ⟨"j", .default, none, 1, none, false, false⟩

/-- A source of the journal with a file that is no segment. -/
def brokenSource : JournalEntries :=
  .ofRecords (.ofSegments
    [⟨0, some 0, Path.join (groupDirectory "j" .defaultGroup) "log_0-0"⟩] .default) .json

/-- What it fails with. -/
def brokenHeader : JournalError :=
  .invalidSegmentHeader (Path.join (groupDirectory "j" .defaultGroup) "log_0-0")
    "file too short (3 bytes)"

theorem sourced_occupied : printing.sourced occupied = .ok ([], some brokenHeader) := by
  have opened : JournalEntries.ofRoot occupied "j" .default .json = .ok brokenSource := by
    decide +kernel
  have failed : (RecordStream.next occupied brokenSource.records).1 = .error brokenHeader := by
    decide +kernel
  have asked : (EntrySource.next occupied brokenSource).1 = .error brokenHeader := by
    show (JournalEntries.next occupied brokenSource).1 = _
    rw [JournalEntries.next_of_no_batch rfl rfl]
    generalize RecordStream.next occupied brokenSource.records = answered at failed ⊢
    obtain ⟨answer, after⟩ := answered
    obtain rfl : answer = .error brokenHeader := failed
    rfl
  rw [Request.sourced, show printing.inputDir = "j" from rfl, show printing.config = .default from rfl,
    opened]
  simp only
  show Except.ok (EntrySource.drained occupied brokenSource) = _
  rw [EntrySource.drained, EntrySource.drain_eq]
  generalize EntrySource.next occupied brokenSource = answered at asked ⊢
  obtain ⟨pulled, s'⟩ := answered
  obtain rfl : pulled = .error brokenHeader := asked
  rfl

/-- An option that takes a value has what follows it, if that does not look like an option. -/
theorem read_value {specs : List OptionSpec} {spec : OptionSpec} {name text : String}
    (wanting : Arguments.readOne specs name = .wanting [] spec) (more : name.toList ≠ ['-', '-'])
    (plain : Arguments.looksLikeOption text = false) (rest : List String) :
    Arguments.read specs none (name :: text :: rest) =
      (Arguments.read specs none rest).map ((spec.long, text) :: ·) := by
  have may : Arguments.mayFollow spec.arity text = true := by
    rw [Arguments.mayFollow, plain, Bool.not_false, Bool.or_true]
  rw [Arguments.read, if_neg more, wanting]
  simp only
  rw [Arguments.read, if_pos may, Option.map_map]
  rfl

/-- The usual group is read. -/
theorem group?_usual : Arguments.group? Uuid.defaultGroup.render = some .defaultGroup := by
  decide +kernel

/-- Such paths are asked for as they are given. -/
theorem asked_copying {input root : String} (plain : Arguments.looksLikeOption input = false)
    (plain' : Arguments.looksLikeOption root = false) (full : input ≠ "") (full' : root ≠ "") :
    Request.ofArguments? ["-i", input, "-o", root] = some (copying input root) := by
  have read : Arguments.read specs none ["-i", input, "-o", root] =
      some [("input-dir", input), ("output-dir", root)] := by
    rw [read_value rfl (by decide) plain, read_value rfl (by decide) plain']
    rfl
  refine made_iff.mpr ⟨_, by rw [Arguments.parse, read]; rfl, ?_⟩
  exact {
    helpless := rfl
    inputDir := congrArg (Option.map some) (if_neg full)
    group := group?_usual
    start := rfl
    stop := rfl
    entryType := rfl
    step := rfl
    outputDir := congrArg (Option.map some) (if_neg full')
    records := rfl
    quiet := rfl
    alone := by rintro ⟨⟩ }

/-- The ledger of one entry, stamped or not, has one record. -/
theorem exists_ledger_one : ∃ promised : List Answer × Ledger,
    (∀ number, performAll Ledger.perform (Writer.writes [⟨number, none⟩] ++ [.finish])
      (.start .default .json) = promised) ∧
    (∀ answer ∈ promised.1, answer.isOk) ∧ promised.2.Numbered ∧
    promised.2.records.map (fun record => (record.index, record.frame.length)) = [(0, 75)] := by
  refine ⟨performAll Ledger.perform (.writeEntry ⟨none, none⟩ :: [.finish]) (.start .default .json),
    fun number => ?_, by decide +kernel, Ledger.numbered_writes [⟨none, none⟩] .default .json (by decide),
    by decide +kernel⟩
  show performAll Ledger.perform (.writeEntry ⟨number, none⟩ :: [.finish]) _ = _
  have same (l : Ledger) : Ledger.perform (.writeEntry ⟨number, none⟩) l =
    Ledger.perform (.writeEntry ⟨none, none⟩) l := rfl
  rw [performAll_cons _ (.writeEntry ⟨number, none⟩), performAll_cons _ (.writeEntry ⟨none, none⟩), same]

/-- The names in a root that the system takes, with those of the segment of one entry. -/
structure Taken (root name : String) : Prop where
  steps : Path.steps root = [name]
  relative : ¬ Path.isAbsolute root
  plain : Path.Plain name
  short : ∀ part ∈ Writer.groupLocation name .defaultGroup, ¬ Path.longestName < part.utf8ByteSize
  checked : FileTree.checkPath (groupDirectory root .defaultGroup) = .ok ()
  opened : FileTree.Fits (groupDirectory root .defaultGroup) (SegmentName.openName 0)
  closed : FileTree.Fits (groupDirectory root .defaultGroup) (SegmentName.closedName 0 0)

/-- Where nothing was, one entry is written to one segment, and nothing elsewhere. -/
theorem written_one {tree : FileTree} {root name : String} (number : Option UInt64)
    (taken : Taken root name) (clear : tree.Clear [name]) :
    Writer.create tree root .default .json = (.ok (copyDesk tree root).writer, (copyDesk tree root).tree) ∧
      (∀ file bytes, ¬ (copyDesk tree root).tree.HasFile (groupDirectory root .defaultGroup) file bytes) ∧
      (∀ answer ∈ (performAll Writer.perform (Writer.writes [⟨number, none⟩] ++ [.finish])
          (copyDesk tree root)).1, answer.isOk) ∧
      (∀ s ∈ segmentsIn (withOne tree root number) (groupDirectory root .defaultGroup),
        s.start = 0 ∧ s.last = some 0) ∧
      ∀ other, other ≠ name → tree.Clear [other] → (withOne tree root number).Clear [other] := by
  obtain ⟨w, made, created, houses, led⟩ := @Writer.exists_created tree root name .default .json
    taken.steps taken.relative taken.plain taken.short taken.checked clear
  have same : copyDesk tree root = ⟨w, made⟩ := by
    obtain ⟨dir, rfl, -, -, rfl⟩ := Writer.of_create created
    rw [copyDesk, created]
    rfl
  obtain ⟨promised, promise, accepted, numbered, one⟩ := exists_ledger_one
  obtain ⟨record, records, same'⟩ := List.map_eq_singleton_iff.mp one
  obtain ⟨index, length⟩ := Prod.mk.inj same'
  have packed : Packed WriterConfig.default.segmentSize.toNat promised.2.records [[record]] := by
    refine ⟨records.symm, by simp, ?_, List.isChain_singleton _⟩
    rw [List.forall_mem_singleton, length_segmentBytes, List.flatMap_singleton, length]
    decide
  have open_ : ∀ operation ∈ Writer.writes [⟨number, none⟩], ¬ operation.closes :=
    fun _ => Writer.not_closes_of_mem_writes
  have succeeded := Writer.succeeded_of_named created open_ (promise number) accepted numbered rfl
    packed (by
      rw [List.forall_mem_singleton]
      intro first found last found'
      obtain rfl : record = first := Option.some.inj found
      obtain rfl : record = last := Option.some.inj found'
      rw [index]
      exact ⟨taken.opened, taken.closed⟩)
  have closed := Writer.current_of_finish succeeded
  obtain ⟨-, site, volumes, rfl, dir, shows, packed'⟩ := Writer.packed_of_finish created open_
    (fun answer mem => Answer.not_isIo_of_isOk (succeeded answer mem)) (promise number ▸ numbered)
  rw [promise number] at packed'
  rw [withOne, same]
  refine ⟨created, houses.not_hasFile led, succeeded, fun s mem => ?_, fun other apart free => ?_⟩
  · -- the records are packed in one way only
    change site.dir = groupDirectory root .defaultGroup at dir
    rw [← dir, shows.holds.segmentsIn_eq] at mem
    obtain ⟨v, member, rfl⟩ := List.mem_map.mp mem
    obtain ⟨first, last, starts, ends, name, -⟩ := shows.closed_volume closed member
    have only := packed'.unique packed ▸ List.mem_map_of_mem member
    rw [List.mem_singleton.mp only] at starts ends
    obtain rfl : record = first := Option.some.inj starts
    obtain rfl : record = last := Option.some.inj ends
    rw [Volume.segment, name, index]
    exact ⟨rfl, rfl⟩
  · exact houses.clear_of_holds (dir ▸ led) shows.holds apart free

theorem taken_j : Taken "j" "j" :=
  ⟨by decide, by decide, ⟨by decide, by decide, by decide, by decide⟩, by decide +kernel,
    by decide +kernel, by decide +kernel, by decide +kernel⟩

theorem taken_k : Taken "k" "k" :=
  ⟨by decide, by decide, ⟨by decide, by decide, by decide, by decide⟩, by decide +kernel,
    by decide +kernel, by decide +kernel, by decide +kernel⟩

/-- Nothing is in the first tree. -/
theorem clear_empty (name : String) : FileTree.empty.Clear [name] :=
  fun _ mem => absurd mem List.not_mem_nil

/-- A journal of one entry gives it, stamped. -/
theorem sourced_one {tree : FileTree} {root name : String} (number : Option UInt64) (between : String)
    (taken : Taken root name) (clear : tree.Clear [name]) (full : root ≠ "") :
    (copying root between).sourced (withOne tree root number) = .ok ([⟨some 0, none⟩], none) := by
  obtain ⟨created, -, succeeded, -⟩ := written_one number taken clear
  rw [withOne]
  generalize copyDesk tree root = desk at created succeeded ⊢
  have enough : WriterConfig.default.startIndex.toNat + 1 ≤ UInt64.size := by decide
  obtain ⟨source, opened, gives⟩ := Writer.gives_written created succeeded enough enough full
  generalize (performAll Writer.perform _ desk).2.tree = after at opened gives ⊢
  have drained : EntrySource.drained after source = ([⟨some 0, none⟩], none) :=
    EntrySource.drained_of_gives gives
  rw [Request.sourced, show JournalEntries.ofRoot after (copying root between).inputDir
    (copying root between).config .json = .ok source from opened]
  exact congrArg Except.ok drained

/-- Nothing but the journal is there. -/
theorem clear_oneEntry {name : String} (apart : name ≠ "j") : oneEntry.Clear [name] :=
  (written_one none taken_j (clear_empty "j")).2.2.2.2 name apart (clear_empty name)

/-- The entry is what is copied. -/
theorem sourced_oneEntry : (copying "j" "k").sourced oneEntry = .ok ([⟨some 0, none⟩], none) :=
  sourced_one none "k" taken_j (clear_empty "j") (by decide)

/-- A copy of one entry leaves what its writer leaves. -/
theorem run_of_one {tree : FileTree} {input root : String} {desk : Desk}
    (asked : Request.ofArguments? ["-i", input, "-o", root] = some (copying input root))
    (sourced : (copying input root).sourced tree = .ok ([⟨some 0, none⟩], none))
    (created : Writer.create tree root .default .json = (.ok desk.writer, desk.tree))
    (succeeded : ∀ answer ∈
      (performAll Writer.perform (Writer.writes [⟨some 0, none⟩] ++ [.finish]) desk).1, answer.isOk) :
    run ["-i", input, "-o", root] tree = .success ((copying input root).lines [⟨some 0, none⟩])
      (performAll Writer.perform (Writer.writes [⟨some 0, none⟩] ++ [.finish]) desk).2.tree :=
  run_of_taken asked rfl sourced rfl created succeeded

/-- The journal of one entry is copied. -/
theorem run_copying : run ["-i", "j", "-o", "k"] oneEntry =
    .success ((copying "j" "k").lines [⟨some 0, none⟩]) copiedOnce := by
  obtain ⟨created, -, succeeded, -⟩ := written_one (some 0) taken_k (clear_oneEntry (by decide))
  rw [copiedOnce, withOne]
  generalize copyDesk oneEntry "k" = desk at created succeeded ⊢
  exact run_of_one (asked_copying (by decide) (by decide) (by decide) (by decide)) sourced_oneEntry
    created succeeded

/-! ## the outputs -/

/-- A loud run prints the entries. -/
theorem lines_of_loud (loud : request.quiet = false) (entries : List Entry) :
    request.lines entries = entries.map Entry.print := by
  rw [Request.lines, loud, if_neg Bool.false_ne_true]

/-- A run that is about entries and goes well has printed what its source gives, and has written it where a
journal was asked for. -/
theorem printed_of_status_zero (asked : Request.ofArguments? texts = some request)
    (mode : request.records = false) (loud : request.quiet = false)
    (fine : (run texts tree).status = 0) :
    ∃ entries, request.sourced tree = .ok (entries, none) ∧ (run texts tree).Prints entries ∧
      ∀ dir, request.outputDir = some dir → entries.length ≤ UInt64.size →
        ∃ source, JournalEntries.ofRoot (run texts tree).tree dir ⟨request.config.group, 0, none⟩
            .json = .ok source ∧
          Gives (JournalEntries.next (run texts tree).tree)
            (entries.mapIdx fun before entry => entry.stamp (UInt64.ofNat before)) none source := by
  rcases exists_source tree asked mode with
    ⟨message, -, same⟩ | ⟨σ, _, s, entries, fault, sourced, pours, same⟩
  · rw [same] at fine
    cases fine
  · rw [same] at fine ⊢
    obtain ⟨rfl, printed, wrote⟩ := of_status_zero pours fine
    refine ⟨entries, sourced, Outcome.prints_map (printed.trans (lines_of_loud loud entries)), ?_⟩
    intro dir output enough
    obtain ⟨w, made, created, succeeded, files⟩ := wrote dir output
    rw [files]
    obtain ⟨source, opened, gives⟩ := Writer.gives_written created succeeded
      (by rw [show request.writing.startIndex.toNat = 0 from rfl]; omega)
      (by rw [show request.writing.startSequenceNumber.toNat = 0 from rfl]; omega)
      (Request.outputDir_ne_empty asked output)
    refine ⟨source, opened, ?_⟩
    rw [show request.writing.startSequenceNumber.toNat = 0 from rfl] at gives
    simp only [Nat.zero_add] at gives
    exact gives

/-- **The two outputs agree with the source.** Take any files, and any arguments but those that ask for
records or for silence. If the program exits with 0, then either they ask for help, in an argument that says
so, and help is all that it gives; or they make a request, the source of the request has ended without an
error, the lines of standard output are read back as its entries, line by line, and if 64 bits count these
and a directory was given for a journal, then the full group in it gives the same payloads in the same
order, numbered from 0 on, and nothing else. If the source of a request fails after some entries and the
writer, if there is one, has taken all of them, then exactly these are printed and the program exits with
1. -/
theorem outputs_agree (texts : List String) (tree : FileTree)
    (mode : ∀ request, Request.ofArguments? texts = some request →
      request.records = false ∧ request.quiet = false) :
    ((run texts tree).status = 0 →
      (asked? texts = some .help ∧ (∃ text ∈ texts, OptionSpec.asksHelp.NamedIn text) ∧
        run texts tree = .success help tree) ∨
      ∃ request entries, Request.ofArguments? texts = some request ∧
        request.sourced tree = .ok (entries, none) ∧ (run texts tree).Prints entries ∧
        ∀ dir, request.outputDir = some dir → entries.length ≤ UInt64.size →
          ∃ source, JournalEntries.ofRoot (run texts tree).tree dir ⟨request.config.group, 0, none⟩
              .json = .ok source ∧
            Gives (JournalEntries.next (run texts tree).tree)
              (entries.mapIdx fun before entry => entry.stamp (UInt64.ofNat before)) none source) ∧
    ∀ request entries e, Request.ofArguments? texts = some request →
      request.sourced tree = .ok (entries, some e) → request.Takes tree entries →
      (run texts tree).Prints entries ∧ (run texts tree).status = 1 := by
  refine ⟨fun fine => ?_, fun request entries e asked failed takes => ?_⟩
  · cases asked : asked? texts with
    | none =>
      rw [run, asked] at fine
      cases fine
    | some what =>
      cases what with
      | help => exact .inl ⟨rfl, exists_named_of_help asked, by rw [run, asked]⟩
      | request request =>
        have made : Request.ofArguments? texts = some request := by
          rw [Request.ofArguments?, asked]
          rfl
        obtain ⟨entries, sourced, printed, copied⟩ :=
          printed_of_status_zero made (mode request made).1 (mode request made).2 fine
        exact .inr ⟨request, entries, made, sourced, printed, copied⟩
  · rcases exists_source tree asked (mode request asked).1 with
      ⟨message, refused, -⟩ | ⟨σ, _, s, entries', fault, sourced, pours, same⟩
    · cases failed.symm.trans refused
    · cases failed.symm.trans sourced
      obtain ⟨status, printed⟩ := of_fault pours takes
      rw [same]
      exact ⟨Outcome.prints_map (printed.trans (lines_of_loud (mode request asked).2 entries)), status⟩

/-- A journal of one entry is printed and copied. Of a journal with a broken segment nothing is printed,
and the program exits with 1. -/
theorem outputs_agree_of_one :
    (∀ request, Request.ofArguments? ["-i", "j", "-o", "k"] = some request →
      request.records = false ∧ request.quiet = false) ∧
    (run ["-i", "j", "-o", "k"] oneEntry).status = 0 ∧
    (run ["-i", "j", "-o", "k"] oneEntry).Prints [⟨some 0, none⟩] ∧
    (∃ source, JournalEntries.ofRoot (run ["-i", "j", "-o", "k"] oneEntry).tree "k" .default .json =
        .ok source ∧
      Gives (JournalEntries.next (run ["-i", "j", "-o", "k"] oneEntry).tree) [⟨some 0, none⟩] none
        source) ∧
    Request.ofArguments? ["-i", "j"] = some printing ∧
    (run ["-i", "j"] occupied).Prints [] ∧ (run ["-i", "j"] occupied).status = 1 := by
  have asked := @asked_copying "j" "k" (by decide) (by decide) (by decide) (by decide)
  have asked' : Request.ofArguments? ["-i", "j"] = some printing := by decide +kernel
  have mode : ∀ request, Request.ofArguments? ["-i", "j", "-o", "k"] = some request →
      request.records = false ∧ request.quiet = false := by
    intro request made
    cases asked.symm.trans made
    exact ⟨rfl, rfl⟩
  have mode' : ∀ request, Request.ofArguments? ["-i", "j"] = some request →
      request.records = false ∧ request.quiet = false := by
    intro request made
    cases asked'.symm.trans made
    exact ⟨rfl, rfl⟩
  have fine : (run ["-i", "j", "-o", "k"] oneEntry).status = 0 := by
    rw [run_copying]
    rfl
  rcases (outputs_agree ["-i", "j", "-o", "k"] oneEntry mode).1 fine with
    ⟨help, -⟩ | ⟨request, entries, made, same, printed, copied⟩
  · rw [Request.ofArguments?, help] at asked
    cases asked
  · cases asked.symm.trans made
    cases sourced_oneEntry.symm.trans same
    obtain ⟨broken, failed⟩ := (outputs_agree ["-i", "j"] occupied mode').2 printing [] brokenHeader
      asked' sourced_occupied (by rintro root ⟨⟩)
    exact ⟨mode, fine, printed, copied "k" rfl (by decide), asked', broken, failed⟩

/-- **Help is not a journal.** A journal has an entry, and the program is told to read it and to give help: it
exits with 0, and what it prints is not the text of any entries. -/
theorem help_printed_of_one :
    printing.sourced oneEntry = .ok ([⟨some 0, none⟩], none) ∧
    (run ["-i", "j", "--help"] oneEntry).status = 0 ∧
    (run ["-i", "j", "--help"] oneEntry).lines = help ∧
    ∀ entries, ¬ (run ["-i", "j", "--help"] oneEntry).Prints entries := by
  have asked : asked? ["-i", "j", "--help"] = some .help := by decide +kernel
  have told : run ["-i", "j", "--help"] oneEntry = .success help oneEntry := by rw [run, asked]
  refine ⟨sourced_oneEntry, by rw [told]; rfl, by rw [told]; rfl, fun entries printed => ?_⟩
  -- the first line says what the program is for
  have lines := printed.parsed
  rw [told, show (Outcome.success help oneEntry).lines =
    "Read a Raft metadata journal, optionally delaying one entry type" :: help.tail from rfl] at lines
  obtain ⟨entry, rest, read, -, -⟩ := List.forall₂_cons_left_iff.mp lines
  have unread : (Entry.parse "Read a Raft metadata journal, optionally delaying one entry type").isOk =
    false := by decide +kernel
  rw [read] at unread
  cases unread

end Replay

end RaftJournal
