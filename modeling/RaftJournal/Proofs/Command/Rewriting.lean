import RaftJournal.Proofs.Command.Outputs

/-! # Rewriting a journal twice

A copy of a journal has the entries of its source, stamped anew, and the writer that copies it goes by these
entries alone. So a copy of the copy is written like the copy itself: **`Replay.rewriting_idempotent`**.
Only the names of the segments may be too long in the second directory, and then the copy of the copy is
refused (**`Replay.rewriting_refused_of_long_path`**). -/

namespace RaftJournal

/-- The system takes the names of a segment in a directory, while it is open and when it is closed. -/
def LogSegment.FitsIn (s : LogSegment) (dir : String) : Prop :=
  FileTree.Fits dir (SegmentName.openName s.start) ∧
    ∀ last, s.last = some last → FileTree.Fits dir (SegmentName.closedName s.start last)

/-! ## two writers -/

section Files

variable {site : Site} {tree tree' : FileTree} {volumes : List Volume} {desk : Desk}

/-- In a directory other than that of a site there are the same files as before. -/
theorem Holds.hasFile_elsewhere (h : Holds site tree' volumes) (furnished : tree.Furnishes site.tree)
    {dir : String} {l : Location} (led : tree.resolve dir = .ok l) (apart : l ≠ site.location)
    {name : String} {bytes : Bytes} : tree'.HasFile dir name bytes ↔ tree.HasFile dir name bytes := by
  have kept := furnished.keeps.trans h.extends_site.keeps
  refine ⟨?_, kept.hasFile⟩
  rw [FileTree.hasFile_iff (kept.resolve led)]
  rintro ⟨stamp, content, found, same⟩
  rcases h.file_or_volume found with own | ⟨v, -, here, -⟩
  · exact ⟨l, stamp, content, led, furnished.file own, same⟩
  · exact absurd (List.append_inj_left' here rfl) apart

/-- The names of closed segments fit where those of their parts do. -/
theorem Shows.fits_parts (h : Shows site desk volumes) (closed : desk.writer.current = none)
    {dir : String} (named : ∀ s ∈ segmentsIn desk.tree site.dir, s.FitsIn dir) :
    ∀ part ∈ volumes.map (·.records), ∀ first ∈ part.head?, ∀ last ∈ part.getLast?,
      FileTree.Fits dir (SegmentName.openName first.index) ∧
        FileTree.Fits dir (SegmentName.closedName first.index last.index) := by
  rw [h.holds.segmentsIn_eq] at named
  intro part mem first found last found'
  obtain ⟨v, member, rfl⟩ := List.mem_map.mp mem
  obtain ⟨first', last', starts, ends, name, -⟩ := h.closed_volume closed member
  cases starts.symm.trans found
  cases ends.symm.trans found'
  have fits := named _ (List.mem_map_of_mem member)
  rw [Volume.segment, name] at fits
  exact ⟨fits.1, fits.2 last.index rfl⟩

end Files

namespace Writer

variable {tree made made' : FileTree} {root root' : String} {config : WriterConfig} {codec : Codec}
  {w w' : Writer} {operations operations' : List Operation}

/-- **Two writers with one ledger** leave the same files. Take a writer without rolls that has finished, and
then another one, elsewhere, that goes by the same ledger: if the names of the first one's segments fit in
the second directory, the second writer succeeds, and if there were no files in both directories, there are
the same ones. -/
theorem written_alike (created : create tree root config codec = (.ok w, made))
    (open_ : ∀ operation ∈ operations, ¬ operation.closes)
    (succeeded : ∀ answer ∈ (performAll perform (operations ++ [.finish]) ⟨w, made⟩).1, answer.isOk)
    (numbered :
      (performAll Ledger.perform (operations ++ [.finish]) (.start config codec)).2.Numbered)
    (allowed : FileTree.checkLength config.segmentSize.toNat = .ok ())
    (open' : ∀ operation ∈ operations', ¬ operation.closes)
    (alike : performAll Ledger.perform (operations' ++ [.finish]) (.start config codec) =
      performAll Ledger.perform (operations ++ [.finish]) (.start config codec)) {after : FileTree}
    (left : (performAll perform (operations ++ [.finish]) ⟨w, made⟩).2.tree = after)
    (created' : create after root' config codec = (.ok w', made'))
    (named : ∀ s ∈ segmentsIn after (groupDirectory root config.group),
      s.FitsIn (groupDirectory root' config.group)) :
    let run := performAll perform (operations' ++ [.finish]) ⟨w', made'⟩
    (∀ answer ∈ run.1, answer.isOk) ∧
      ((∀ name bytes, ¬ made.HasFile (groupDirectory root config.group) name bytes) →
        (∀ name bytes, ¬ made'.HasFile (groupDirectory root' config.group) name bytes) →
        ∀ name bytes, run.2.tree.HasFile (groupDirectory root config.group) name bytes ↔
          run.2.tree.HasFile (groupDirectory root' config.group) name bytes) := by
  intro run
  have furnished := furnishes_create after root' config codec
  rw [created'] at furnished
  subst left
  have granted := fun answer mem => Answer.not_isIo_of_isOk (succeeded answer mem)
  have closed := current_of_finish succeeded
  obtain ⟨answers, site, volumes, rfl, dir, shows, packed⟩ :=
    packed_of_finish created open_ granted numbered
  rw [← dir] at named ⊢
  have succeeded' : ∀ answer ∈ run.1, answer.isOk :=
    succeeded_of_named created' open' alike (answers ▸ succeeded) numbered allowed packed
      (shows.fits_parts closed named)
  obtain ⟨-, site', volumes', rfl, dir', shows', packed'⟩ := packed_of_finish created' open'
    (fun answer mem => Answer.not_isIo_of_isOk (succeeded' answer mem)) (alike ▸ numbered)
  rw [alike] at packed'
  refine ⟨succeeded', fun bare bare' name bytes => ?_⟩
  rw [← dir'] at bare' ⊢
  have led := shows.holds.extends_site.keeps.resolve site.led
  have files : _ ↔ ∃ part ∈ _, IsFileOf part name bytes := shows.hasFile_iff closed bare
  have files' : _ ↔ ∃ part ∈ _, IsFileOf part name bytes :=
    shows'.hasFile_iff (current_of_finish succeeded') bare'
  rw [packed'.unique packed] at files'
  by_cases same : site.location = site'.location
  · -- both paths lead to one directory
    have kept := furnished.keeps.trans shows'.holds.extends_site.keeps
    rw [FileTree.hasFile_iff (kept.resolve led),
      FileTree.hasFile_iff (shows'.holds.extends_site.keeps.resolve site'.led), same]
  · rw [shows'.holds.hasFile_elsewhere furnished led same]
    exact files.trans files'.symm

end Writer

/-! ## two runs -/

namespace Replay

/-- The first request copies a journal to one directory, and the second one copies the whole copy, without
delays, to another one. -/
structure Request.Recopies (first second : Request) (between root : String) : Prop where
  entries : first.records = false
  output : first.outputDir = some between
  input : second.inputDir = between
  whole : second.config = ⟨first.config.group, 0, none⟩
  undelayed : second.entryType = none
  entries' : second.records = false
  output' : second.outputDir = some root

/-- The writer of a request can be created in a directory, and there are no files then where it writes. -/
def Request.Fresh (request : Request) (tree : FileTree) (root : String) : Prop :=
  ∃ w made, Writer.create tree root request.writing .json = (.ok w, made) ∧
    ∀ name bytes, ¬ made.HasFile (groupDirectory root request.config.group) name bytes

variable {texts texts' : List String} {first second : Request} {between root : String}
  {tree : FileTree} {entries : List Entry}

/-- Both copies are written alike. -/
theorem Request.Recopies.writing (h : first.Recopies second between root) :
    second.writing = first.writing := by
  rw [Request.writing, h.whole]
  rfl

/-- A run that goes well leaves what a writer of the entries leaves, and a copy that gives them, with stamps
that make no difference to a ledger. -/
theorem exists_copy (asked : Request.ofArguments? texts = some first) (mode : first.records = false)
    (output : first.outputDir = some between) (fine : (run texts tree).status = 0)
    (sourced : first.sourced tree = .ok (entries, none)) (enough : entries.length ≤ UInt64.size) :
    ∃ w made stamped, Writer.create tree between first.writing .json = (.ok w, made) ∧
      (∀ answer ∈ (performAll Writer.perform (Writer.writes entries ++ [.finish]) ⟨w, made⟩).1,
        answer.isOk) ∧
      (run texts tree).tree =
        (performAll Writer.perform (Writer.writes entries ++ [.finish]) ⟨w, made⟩).2.tree ∧
      (∃ source, JournalEntries.ofRoot (run texts tree).tree between ⟨first.config.group, 0, none⟩
          .json = .ok source ∧
        Gives (JournalEntries.next (run texts tree).tree) stamped none source) ∧
      ∀ l, performAll Ledger.perform (Writer.writes stamped ++ [.finish]) l =
        performAll Ledger.perform (Writer.writes entries ++ [.finish]) l := by
  rcases exists_source tree asked mode with
    ⟨message, refused, same⟩ | ⟨σ, _, s, given, fault, sourced', pours, same⟩
  · rw [sourced] at refused
    cases refused
  cases sourced.symm.trans sourced'
  rw [same] at fine ⊢
  obtain ⟨-, -, wrote⟩ := of_status_zero pours fine
  obtain ⟨w, made, created, succeeded, files⟩ := wrote between output
  have start : first.writing.startIndex.toNat + entries.length ≤ UInt64.size := by
    rw [show first.writing.startIndex.toNat = 0 from rfl]
    omega
  have gives := Writer.gives_written created succeeded start start
    (Request.outputDir_ne_empty asked output)
  rw [← files] at gives
  exact ⟨w, made, _, created, succeeded, files, gives,
    Ledger.performAll_writes_stamped _ entries [.finish]⟩

/-- **Rewriting is idempotent.** Let a run of the program that is about entries, no more of them than 64
bits count, copy a journal to a fresh directory and exit with 0. Then a second run, which copies the whole
copy to another fresh directory, exits with 0 as well and leaves files with the same names and the same bytes
there, if the names of the segments are not too long in that directory. -/
theorem rewriting_idempotent (asked : Request.ofArguments? texts = some first)
    (asked' : Request.ofArguments? texts' = some second)
    (recopies : first.Recopies second between root) (fresh : first.Fresh tree between)
    (fine : (run texts tree).status = 0) (sourced : first.sourced tree = .ok (entries, none))
    (enough : entries.length ≤ UInt64.size) (fresh' : second.Fresh (run texts tree).tree root)
    (named : ∀ s ∈ segmentsIn (run texts tree).tree (groupDirectory between first.config.group),
      s.FitsIn (groupDirectory root first.config.group)) :
    let after := run texts' (run texts tree).tree
    after.status = 0 ∧ ∀ name bytes,
      after.tree.HasFile (groupDirectory between first.config.group) name bytes ↔
        after.tree.HasFile (groupDirectory root first.config.group) name bytes := by
  intro after
  obtain ⟨w, made, stamped, created, succeeded, files, ⟨source, opened, gives⟩, alike⟩ :=
    exists_copy asked recopies.entries recopies.output fine sourced enough
  -- the second run copies the stamped entries
  have sourced' : second.sourced (run texts tree).tree = .ok (stamped, none) := by
    rw [Request.sourced, recopies.input, recopies.whole, opened, recopies.undelayed]
    exact congrArg Except.ok (EntrySource.drained_of_gives gives)
  obtain ⟨w', made', created', bare'⟩ := fresh'
  rw [recopies.writing] at created'
  have start : first.writing.startIndex.toNat + entries.length ≤ UInt64.size := by
    rw [show first.writing.startIndex.toNat = 0 from rfl]
    omega
  obtain ⟨succeeded', same⟩ := Writer.written_alike created
    (fun _ => Writer.not_closes_of_mem_writes) succeeded
    (Ledger.numbered_writes entries first.writing .json start) rfl
    (fun _ => Writer.not_closes_of_mem_writes) (alike _) files.symm created' named
  have ran := run_of_taken asked' recopies.entries' sourced' recopies.output'
    (recopies.writing ▸ created') succeeded'
  obtain ⟨w'', made'', created'', bare⟩ := fresh
  cases created.symm.trans created''
  have group : second.config.group = first.config.group := by rw [recopies.whole]
  rw [group] at bare'
  show (run texts' (run texts tree).tree).status = 0 ∧ _
  rw [show after = _ from ran, ran]
  exact ⟨rfl, same bare bare'⟩

/-- The request can write to the directory of a root that is taken. -/
theorem fresh_of_taken {root name : String} (input : String) (taken : Taken root name)
    (clear : tree.Clear [name]) : (copying input root).Fresh tree root := by
  obtain ⟨created, bare, -⟩ := written_one none taken clear
  exact ⟨_, _, created, bare⟩

theorem recopies_copying (input between root : String) :
    (copying input between).Recopies (copying between root) between root :=
  ⟨rfl, rfl, rfl, rfl, rfl, rfl, rfl⟩

/-- Nothing but the journal and its copy is there. -/
theorem clear_copiedOnce {name : String} (apart : name ≠ "j") (apart' : name ≠ "k") :
    copiedOnce.Clear [name] :=
  (written_one (some 0) taken_k (clear_oneEntry (by decide))).2.2.2.2 name apart'
    (clear_oneEntry apart)

theorem taken_l : Taken "l" "l" :=
  ⟨by decide, by decide, ⟨by decide, by decide, by decide, by decide⟩, by decide +kernel,
    by decide +kernel, by decide +kernel, by decide +kernel⟩

/-- A journal of one entry is copied, and its copy is copied to the same file. -/
theorem rewriting_idempotent_of_one :
    Request.ofArguments? ["-i", "j", "-o", "k"] = some (copying "j" "k") ∧
    Request.ofArguments? ["-i", "k", "-o", "l"] = some (copying "k" "l") ∧
    (copying "j" "k").Recopies (copying "k" "l") "k" "l" ∧ (copying "j" "k").Fresh oneEntry "k" ∧
    (run ["-i", "j", "-o", "k"] oneEntry).status = 0 ∧
    (copying "j" "k").sourced oneEntry = .ok ([⟨some 0, none⟩], none) ∧ 1 ≤ UInt64.size ∧
    (copying "k" "l").Fresh (run ["-i", "j", "-o", "k"] oneEntry).tree "l" ∧
    (∀ s ∈ segmentsIn (run ["-i", "j", "-o", "k"] oneEntry).tree (groupDirectory "k" .defaultGroup),
      s.FitsIn (groupDirectory "l" .defaultGroup)) ∧
    (run ["-i", "k", "-o", "l"] (run ["-i", "j", "-o", "k"] oneEntry).tree).status = 0 ∧
    ∀ name bytes,
      (run ["-i", "k", "-o", "l"] (run ["-i", "j", "-o", "k"] oneEntry).tree).tree.HasFile
          (groupDirectory "k" .defaultGroup) name bytes ↔
        (run ["-i", "k", "-o", "l"] (run ["-i", "j", "-o", "k"] oneEntry).tree).tree.HasFile
          (groupDirectory "l" .defaultGroup) name bytes := by
  have asked := @asked_copying "j" "k" (by decide) (by decide) (by decide) (by decide)
  have asked' := @asked_copying "k" "l" (by decide) (by decide) (by decide) (by decide)
  have recopies := recopies_copying "j" "k" "l"
  have fresh := fresh_of_taken "j" taken_k (clear_oneEntry (by decide : "k" ≠ "j"))
  have left : (run ["-i", "j", "-o", "k"] oneEntry).tree = copiedOnce := congrArg _ run_copying
  have fine : (run ["-i", "j", "-o", "k"] oneEntry).status = 0 := congrArg Outcome.status run_copying
  have fresh' : (copying "k" "l").Fresh (run ["-i", "j", "-o", "k"] oneEntry).tree "l" := by
    rw [left]
    exact fresh_of_taken "k" taken_l (clear_copiedOnce (by decide) (by decide))
  have named : ∀ s ∈ segmentsIn (run ["-i", "j", "-o", "k"] oneEntry).tree
      (groupDirectory "k" .defaultGroup), s.FitsIn (groupDirectory "l" .defaultGroup) := by
    rw [left]
    intro s mem
    obtain ⟨start, last⟩ :=
      (written_one (some 0) taken_k (clear_oneEntry (by decide))).2.2.2.1 s mem
    rw [LogSegment.FitsIn, start, last]
    refine ⟨taken_l.opened, ?_⟩
    rintro _ ⟨⟩
    exact taken_l.closed
  obtain ⟨done, same⟩ := rewriting_idempotent asked asked' recopies fresh fine sourced_oneEntry
    (by decide) fresh' named
  exact ⟨asked, asked', recopies, fresh, fine, sourced_oneEntry, by decide, fresh', named, done, same⟩

/-! ## a path that is too long -/

/-- A name with slashes behind it. -/
def slashed : Nat → String
  | 0 => "c"
  | n + 1 => slashed n ++ "/"

theorem toList_slashed (n : Nat) : (slashed n).toList = 'c' :: List.replicate n '/' := by
  induction n with
  | zero => rfl
  | succ n ih =>
    rw [slashed, String.toList_append, ih, List.replicate_succ', List.cons_append]
    rfl

theorem utf8ByteSize_slashed (n : Nat) : (slashed n).utf8ByteSize = n + 1 := by
  induction n with
  | zero => decide
  | succ n ih =>
    rw [slashed, String.utf8ByteSize_append, ih]
    rfl

/-- The slashes lead nowhere. -/
theorem steps_slashed (n : Nat) : Path.steps (slashed n) = ["c"] := by
  have parts : Path.parts (slashed n) = "c" :: List.replicate n "" := by
    induction n with
    | zero => decide
    | succ n ih =>
      rw [slashed, ← String.append_empty (s := slashed n ++ "/"), Path.parts_append_slash, ih,
        List.replicate_succ', List.cons_append]
      rfl
  rw [Path.steps, parts, List.filter_cons_of_pos (by decide),
    List.filter_replicate_of_neg (by decide)]

/-- A path to a directory below which there is no room for another name. -/
def farAway : String := slashed 4044

theorem groupDirectory_farAway : groupDirectory farAway .defaultGroup =
    farAway ++ "raft" ++ "/" ++ Uuid.defaultGroup.render ++ "/" ++ "current" := by
  have slash : farAway.toList.getLast? = some '/' := by
    rw [farAway, toList_slashed, List.replicate_succ', ← List.cons_append]
    exact List.getLast?_concat
  have open_ {dir name : String} (plain : Path.Plain name) (noEnd : name.toList.getLast? ≠ some '/')
      (other : String) (plain' : Path.Plain other) :
      Path.join (Path.join dir name) other = Path.join dir name ++ "/" ++ other := by
    refine Path.join_of_open plain' (fun none => ?_) (Path.getLast?_join plain dir ▸ noEnd)
    have last := Path.getLast?_join plain dir
    rw [none] at last
    exact plain.full (String.toList_eq_nil_iff.mp (List.getLast?_eq_none_iff.mp last.symm))
  rw [groupDirectory, open_ Uuid.defaultGroup.plain_render (by decide +kernel) _ plain_current,
    open_ plain_raft (by decide) _ Uuid.defaultGroup.plain_render, Path.join_of_plain plain_raft,
    if_pos (.inr slash)]

/-- Its path has one byte less than a path may have. -/
theorem utf8ByteSize_farAway :
    (groupDirectory farAway .defaultGroup).utf8ByteSize + 1 = Path.longest := by
  have group : Uuid.defaultGroup.render.utf8ByteSize = 36 := by decide +kernel
  have raft : "raft".utf8ByteSize = 4 := rfl
  have slash : "/".utf8ByteSize = 1 := rfl
  have current : "current".utf8ByteSize = 7 := rfl
  rw [groupDirectory_farAway]
  simp only [String.utf8ByteSize_append, farAway, utf8ByteSize_slashed, group, raft, slash, current]
  rfl

/-- The directory itself is not too far away. -/
theorem checkPath_farAway :
    FileTree.checkPath (groupDirectory farAway .defaultGroup) = .ok () := by
  have size := utf8ByteSize_farAway
  have group : '\x00' ∉ Uuid.defaultGroup.render.toList := by decide +kernel
  have clear : '\x00' ∉ (groupDirectory farAway .defaultGroup).toList := by
    rw [groupDirectory_farAway]
    simp only [String.toList_append, farAway, toList_slashed, List.mem_append, List.mem_cons,
      List.mem_replicate, group]
    decide
  rw [FileTree.checkPath, if_neg clear, if_neg (by omega)]

/-- But every name in it is. -/
theorem not_fits_farAway {name : String} (plain : Path.Plain name) :
    ¬ FileTree.Fits (groupDirectory farAway .defaultGroup) name := by
  have size := utf8ByteSize_farAway
  have some_ : name.utf8ByteSize ≠ 0 := fun none => plain.full (String.utf8ByteSize_eq_zero_iff.mp none)
  have long : Path.longest < (Path.join (groupDirectory farAway .defaultGroup) name).utf8ByteSize := by
    rw [Path.join_of_open plain (groupDirectory_ne_empty _ _)
      (by rw [getLast?_groupDirectory]; decide), String.utf8ByteSize_append,
      String.utf8ByteSize_append, show "/".utf8ByteSize = 1 from rfl]
    omega
  rintro ⟨checked, -⟩
  rw [FileTree.checkPath, if_pos long] at checked
  split at checked <;> cases checked

/-- A run that goes well writes a segment for an entry, with a name that fits. -/
theorem exists_fits {texts : List String} {input root : String} {number : Option UInt64}
    (asked : Request.ofArguments? texts = some (copying input root))
    (sourced : (copying input root).sourced tree = .ok ([⟨number, none⟩], none))
    (fine : (run texts tree).status = 0) :
    ∃ name, Path.Plain name ∧ FileTree.Fits (groupDirectory root .defaultGroup) name := by
  have enough : [(⟨number, none⟩ : Entry)].length ≤ UInt64.size := Nat.le_of_ble_eq_true rfl
  obtain ⟨w, made, -, created, succeeded, -⟩ := exists_copy asked rfl rfl fine sourced enough
  rw [show (copying input root).writing = WriterConfig.default from rfl] at created
  obtain ⟨promised, promise, -, numbered, one⟩ := exists_ledger_one
  obtain ⟨-, site, volumes, -, dir, shows, packed⟩ := Writer.packed_of_finish created
    (fun _ => Writer.not_closes_of_mem_writes)
    (fun answer mem => Answer.not_isIo_of_isOk (succeeded answer mem)) (promise number ▸ numbered)
  rw [promise number] at packed
  -- the one record is in a volume
  obtain ⟨record, records, -⟩ := List.map_eq_singleton_iff.mp one
  have mem : record ∈ (volumes.map (·.records)).flatten := by
    rw [packed.records, records]
    exact List.mem_singleton_self record
  obtain ⟨part, inside, -⟩ := List.mem_flatten.mp mem
  obtain ⟨v, member, -⟩ := List.mem_map.mp inside
  exact ⟨_, v.name.plain_render, dir ▸ shows.holds.fits v member⟩

/-- **There may be no room for the copy of a copy.** A journal of one entry is copied, but its copy is not
copied to a fresh directory whose path leaves no room for the name of a segment. -/
theorem rewriting_refused_of_long_path :
    Request.ofArguments? ["-i", "j", "-o", "k"] = some (copying "j" "k") ∧
    Request.ofArguments? ["-i", "k", "-o", farAway] = some (copying "k" farAway) ∧
    (copying "j" "k").Recopies (copying "k" farAway) "k" farAway ∧
    (copying "j" "k").Fresh oneEntry "k" ∧ (run ["-i", "j", "-o", "k"] oneEntry).status = 0 ∧
    (copying "j" "k").sourced oneEntry = .ok ([⟨some 0, none⟩], none) ∧
    (copying "k" farAway).Fresh (run ["-i", "j", "-o", "k"] oneEntry).tree farAway ∧
    (run ["-i", "k", "-o", farAway] (run ["-i", "j", "-o", "k"] oneEntry).tree).status ≠ 0 := by
  have plain : Arguments.looksLikeOption farAway = false := by
    rw [Arguments.looksLikeOption, farAway, toList_slashed]
    rfl
  have full : farAway ≠ "" := by
    intro empty
    have text := toList_slashed 4044
    rw [show slashed 4044 = "" from empty] at text
    cases text
  have relative : ¬ Path.isAbsolute farAway := by
    rw [Path.isAbsolute, farAway, toList_slashed, List.head?_cons]
    decide
  have asked := @asked_copying "j" "k" (by decide) (by decide) (by decide) (by decide)
  have asked' := @asked_copying "k" farAway (by decide) plain (by decide) full
  have left : (run ["-i", "j", "-o", "k"] oneEntry).tree = copiedOnce := congrArg _ run_copying
  have fine : (run ["-i", "j", "-o", "k"] oneEntry).status = 0 := congrArg Outcome.status run_copying
  have sourced := sourced_one (some 0) farAway taken_k (clear_oneEntry (by decide)) (by decide)
  obtain ⟨w, made, created, houses, led⟩ := @Writer.exists_created copiedOnce farAway "c" .default
    .json (steps_slashed 4044) relative ⟨by decide, by decide, by decide, by decide⟩ (by decide +kernel)
    checkPath_farAway (clear_copiedOnce (by decide) (by decide))
  refine ⟨asked, asked', recopies_copying "j" "k" farAway,
    fresh_of_taken "j" taken_k (clear_oneEntry (by decide)), fine, sourced_oneEntry, ?_, fun fine' => ?_⟩
  · rw [left]
    exact ⟨w, made, created, houses.not_hasFile led⟩
  · rw [left] at fine'
    obtain ⟨name, plain', fits⟩ := exists_fits asked' sourced fine'
    exact not_fits_farAway plain' fits

end Replay

end RaftJournal
