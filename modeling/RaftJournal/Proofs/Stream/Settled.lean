import RaftJournal.Proofs.Segment.Listing
import RaftJournal.Proofs.Segment.Names
import RaftJournal.Proofs.Stream.Sources

/-! # What a source gives is settled when it is opened

A source of a journal reads the segments that were listed when it was opened. Each of them has been there
since then, so that a file is read as it would have been at once, or cannot be read for the same reason,
whatever has been added in the meantime (**`FileTree.settles_of_listSegments`**). Asked call by call while
files are added, the source hands out what it would have handed out without them, up to the end or to the
first error (**`Pours`**), and so does a disruptor over it: **`JournalEntries.pours`** and
**`JournalEntries.pours_disruptor`**. -/

namespace RaftJournal

/-! ## files that are listed -/

/-- A file whose name is read as that of a segment has a plain name. -/
theorem SegmentName.plain_of_parse {name : String} {found : SegmentName}
    (h : parse name = some found) : Path.Plain name := by
  obtain ⟨lead, noSlash⟩ := of_parse h
  have letter : 'l' ∈ closedLead := by decide
  exact Path.plain_of_mem noSlash (lead.subset letter) (by decide)

namespace FileTree

variable {tree : FileTree} {dir root : String} {l : Location}

/-- Whatever is added to the tree, the path is read as it is now, or cannot be read either. -/
def Settles (tree : FileTree) (path : String) : Prop :=
  ∀ later, tree.Keeps later → later.read path = tree.read path

/-- What is a child of a directory is in the tree. -/
theorem node?_of_mem_children {name : String} (plain : Path.Plain name)
    (mem : name ∈ tree.children l) : ∃ node, tree.node? (l ++ [name]) = some node := by
  obtain ⟨⟨m, node⟩, entry, child⟩ := List.mem_filterMap.mp mem
  simp only at child
  split at child
  · rename_i inside
    obtain ⟨full, rfl⟩ := inside
    rw [List.getLast?_eq_some_getLast full, Option.some.injEq] at child
    have there : m.dropLast ++ [name] = m := by rw [← child, List.dropLast_concat_getLast]
    rw [node?_of_not_fixed (not_isFixed_append plain _), ← Option.isSome_iff_exists]
    rw [List.lookup_isSome_iff]
    exact ⟨_, entry, by rw [there]; exact beq_self_eq_true m⟩
  · cases child

/-- A file that is listed in a directory is read as it was, whatever has been added. -/
theorem settles_of_mem_children (full : dir ≠ "") (noEnd : dir.toList.getLast? ≠ some '/')
    (led : tree.resolve dir = .ok l) (found : tree.node? l = some .directory) {name : String}
    (plain : Path.Plain name) (mem : name ∈ tree.children l) :
    tree.Settles (Path.join dir name) := by
  intro later kept
  obtain ⟨node, here⟩ := node?_of_mem_children plain mem
  rw [read, read, resolve_join plain full noEnd led found,
    resolve_join plain full noEnd (kept.resolve led) (kept _ _ found)]
  -- the path is refused in both trees, or leads to what is there in both
  cases checkPath (Path.join dir name) with
  | error fault => rfl
  | ok u =>
    by_cases long : Path.longestName < name.utf8ByteSize
    · simp only [if_pos long]
    · simp only [if_neg long]
      rw [here, kept _ _ here]

/-- The path of a directory leads to one. -/
theorem exists_of_isDirectory {path : String} (h : tree.isDirectory path) :
    ∃ l, tree.resolve path = .ok l ∧ tree.node? l = some .directory := by
  rw [isDirectory] at h
  split at h
  · exact ⟨_, ‹_›, of_decide_eq_true h⟩
  · cases h

/-- **The segments of a listing are settled.** -/
theorem settles_of_listSegments {group : Uuid} {segments : List LogSegment}
    (listed : listSegments tree root group = .ok segments) {segment : LogSegment}
    (mem : segment ∈ segments) : tree.Settles segment.path := by
  rw [listSegments] at listed
  split at listed
  · cases listed
  · split at listed
    · cases listed
    · rename_i there
      rw [Bool.not_eq_true', Bool.not_eq_false] at there
      obtain ⟨l, led, found⟩ := exists_of_isDirectory there
      obtain rfl := Except.ok.inj listed
      rw [segmentsIn, led] at mem
      simp only at mem
      rw [List.mem_mergeSort, List.mem_filterMap] at mem
      obtain ⟨child, member, named⟩ := mem
      obtain ⟨name, parsed, rfl⟩ := Option.map_eq_some_iff.mp named
      have noEnd : (groupDirectory root group).toList.getLast? ≠ some '/' := by
        rw [getLast?_groupDirectory]
        decide
      exact settles_of_mem_children (groupDirectory_ne_empty root group) noEnd led found
        (SegmentName.plain_of_parse parsed) member

end FileTree

/-! ## streams over settled segments -/

variable {tree later : FileTree}

/-- The segments are opened alike with both trees. -/
def OpenedAlike (tree later : FileTree) (segments : List LogSegment) : Prop :=
  ∀ segment ∈ segments, segment.reader later = segment.reader tree

/-- Segments whose files are settled are opened alike in every tree that keeps them. -/
theorem openedAlike_of_settles {segments : List LogSegment}
    (settles : ∀ segment ∈ segments, tree.Settles segment.path) (kept : tree.Keeps later) :
    OpenedAlike tree later segments := by
  intro segment mem
  rw [LogSegment.reader, LogSegment.reader, settles segment mem later kept]

namespace RecordStream

/-- A stream takes the segments from the front of those that are unopened. -/
theorem openNext_of_openedAlike (s : RecordStream) (unopened : List LogSegment)
    (alike : OpenedAlike tree later unopened) :
    s.openNext later unopened = s.openNext tree unopened ∧
      (s.openNext tree unopened).2.unopened <:+ unopened := by
  fun_induction openNext tree s unopened with
  | case1 s => exact ⟨by rw [openNext], List.suffix_refl _⟩
  | case2 s segment rest e failed =>
    rw [openNext, alike segment List.mem_cons_self, failed]
    exact ⟨rfl, List.suffix_refl _⟩
  | case3 s segment rest reader opened s' e failed =>
    rw [openNext, alike segment List.mem_cons_self, opened]
    simp only [failed, s']
    exact ⟨trivial, List.suffix_cons _ _⟩
  | case4 s segment rest reader opened s' ended ih =>
    obtain ⟨same, suffix⟩ := ih fun other mem => alike other (List.mem_cons_of_mem _ mem)
    rw [openNext, alike segment List.mem_cons_self, opened]
    simp only [ended, s']
    exact ⟨same, suffix.trans (List.suffix_cons _ _)⟩
  | case5 s segment rest reader opened s' record reader' found =>
    rw [openNext, alike segment List.mem_cons_self, opened]
    simp only [found, s']
    refine ⟨trivial, ?_⟩
    rw [deliver]
    split <;> exact List.suffix_cons _ _

/-- A stream over segments that are opened alike answers alike, and has no further ones afterwards. -/
theorem next_of_openedAlike (s : RecordStream) (alike : OpenedAlike tree later s.unopened) :
    s.next later = s.next tree ∧ (s.next tree).2.unopened <:+ s.unopened := by
  rw [next, next]
  by_cases ended : s.done = true
  · rw [if_pos ended, if_pos ended]
    exact ⟨rfl, List.suffix_refl _⟩
  · rw [if_neg ended, if_neg ended]
    cases s.reader with
    | none => exact openNext_of_openedAlike s s.unopened alike
    | some reader =>
      simp only
      cases reader.nextFrom s.config.start with
      | error e => exact ⟨rfl, List.suffix_refl _⟩
      | ok found? =>
        cases found? with
        | none => exact openNext_of_openedAlike s s.unopened alike
        | some pair =>
          refine ⟨rfl, ?_⟩
          show (s.deliver pair.1 pair.2).2.unopened <:+ _
          rw [deliver]
          split <;> exact List.suffix_refl _

end RecordStream

namespace JournalEntries

/-- **A call gives the same with both trees** if what is still to be opened is opened alike. -/
theorem next_of_openedAlike (s : JournalEntries)
    (alike : OpenedAlike tree later s.records.unopened) :
    s.next later = s.next tree ∧ (s.next tree).2.records.unopened <:+ s.records.unopened := by
  -- on the records passed over in this call
  have running {s : JournalEntries} (h : ¬ s.done = true) : s.done = false := by simpa using h
  have records {s : JournalEntries} {answer : Except JournalError (Option LogRecord)}
      {after : RecordStream} (alike : OpenedAlike tree later s.records.unopened)
      (asked : s.records.next tree = (answer, after)) :
      s.records.next later = (answer, after) ∧ after.unopened <:+ s.records.unopened := by
    have both := s.records.next_of_openedAlike alike
    rw [asked] at both
    exact both
  fun_induction next tree s with
  | case1 s ended => exact ⟨by rw [next, if_pos ended], List.suffix_refl _⟩
  | case2 s going entry rest batch =>
    exact ⟨next_of_batch (running going) batch, List.suffix_refl _⟩
  | case3 s going batch e after asked =>
    obtain ⟨same, suffix⟩ := records alike asked
    rw [next_of_no_batch (running going) batch, same]
    exact ⟨rfl, suffix⟩
  | case4 s going batch after asked =>
    obtain ⟨same, suffix⟩ := records alike asked
    rw [next_of_no_batch (running going) batch, same]
    exact ⟨rfl, suffix⟩
  | case5 s going batch record after asked machine fault undecoded =>
    obtain ⟨same, suffix⟩ := records alike asked
    rw [next_of_no_batch (running going) batch, same]
    simp only [if_pos machine, undecoded]
    exact ⟨trivial, suffix⟩
  | case6 s going batch record after asked machine found decoded ih =>
    obtain ⟨same, suffix⟩ := records alike asked
    rw [next_of_no_batch (running going) batch, same]
    simp only [if_pos machine, decoded]
    obtain ⟨same, suffix'⟩ := ih fun segment mem => alike segment (suffix.subset mem)
    exact ⟨same, suffix'.trans suffix⟩
  | case7 s going batch record after asked foreign ih =>
    obtain ⟨same, suffix⟩ := records alike asked
    rw [next_of_no_batch (running going) batch, same]
    simp only [if_neg foreign]
    obtain ⟨same, suffix'⟩ := ih fun segment mem => alike segment (suffix.subset mem)
    exact ⟨same, suffix'.trans suffix⟩

end JournalEntries

/-! ## asking until the end -/

namespace EntrySource

variable {σ : Type} [EntrySource σ]

/-- How a source answers when it has nothing more: with its end or with an error. -/
def ending : Option JournalError → Pulled
  | none => .ok none
  | some e => .error e

/-- A source is drained from its first answer on. -/
theorem drain_eq (tree : FileTree) (s : σ) :
    drain tree s =
      match next tree s with
      | (.ok none, s') => ([], none, s')
      | (.error e, s') => ([], some e, s')
      | (.ok (some entry), s') =>
        (entry :: (drain tree s').1, (drain tree s').2.1, (drain tree s').2.2) := by
  rw [drain]
  split
  next s' asked => rw [asked]
  next e s' asked => rw [asked]
  next entry s' asked => rw [asked]

/-- What a source hands out up to its end or its first error, and the error. -/
def drained (tree : FileTree) (s : σ) : List Entry × Option JournalError :=
  ((drain tree s).1, (drain tree s).2.1)

/-- A source that gives some entries and then nothing is drained of these. -/
theorem drained_of_gives {tree : FileTree} {entries : List Entry} {s : σ}
    (h : Gives (next tree) entries none s) : drained tree s = (entries, none) := by
  induction entries generalizing s with
  | nil =>
    obtain ⟨ended, -⟩ := gives_nil_iff.mp h
    rw [drained, drain_eq]
    generalize next tree s = answered at ended ⊢
    obtain ⟨pulled, s'⟩ := answered
    obtain rfl : pulled = .ok none := ended
    rfl
  | cons entry rest ih =>
    obtain ⟨head, rest⟩ := gives_cons_iff.mp h
    have tail := ih rest
    rw [drained] at tail ⊢
    rw [drain_eq]
    generalize next tree s = answered at head tail ⊢
    obtain ⟨pulled, s'⟩ := answered
    obtain rfl : pulled = .ok (some entry) := head
    obtain ⟨entries, fault⟩ := Prod.mk.inj tail
    show (entry :: (drain tree s').1, (drain tree s').2.1) = _
    rw [entries, fault]

end EntrySource

/-- As long as the files that a call sees are among those allowed, a source hands out the entries and then
ends, or fails with the error. -/
def Pours {σ : Type} [EntrySource σ] (allowed : FileTree → Prop) :
    List Entry → Option JournalError → σ → Prop
  | [], fault, s => ∀ tree, allowed tree → (EntrySource.next tree s).1 = EntrySource.ending fault
  | entry :: rest, fault, s => ∀ tree, allowed tree →
    (EntrySource.next tree s).1 = .ok (some entry) ∧
      Pours allowed rest fault (EntrySource.next tree s).2

section Pouring

variable {σ : Type} [EntrySource σ] {R : σ → σ → Prop}

/-- A source that answers the same whatever is added pours what it is drained to at once. -/
theorem pours_of_relation
    (step : ∀ s t later, tree.Keeps later → R s t →
      (EntrySource.next tree s).1 = (EntrySource.next later t).1 ∧
        R (EntrySource.next tree s).2 (EntrySource.next later t).2)
    (s t : σ) (h : R s t) :
    Pours tree.Keeps (EntrySource.drained tree s).1 (EntrySource.drained tree s).2 t := by
  rw [EntrySource.drained, EntrySource.drain_eq]
  generalize asked : EntrySource.next tree s = answered
  obtain ⟨pulled, s'⟩ := answered
  have alike (later : FileTree) (kept : tree.Keeps later) :
      pulled = (EntrySource.next later t).1 ∧ R s' (EntrySource.next later t).2 := by
    have both := step s t later kept h
    rw [asked] at both
    exact both
  rcases pulled with e | - | entry
  · exact fun later kept => (alike later kept).1.symm
  · exact fun later kept => (alike later kept).1.symm
  · exact fun later kept =>
      ⟨(alike later kept).1.symm, pours_of_relation step s' _ (alike later kept).2⟩
termination_by EntrySource.rank s
decreasing_by
  have less := EntrySource.rank_next_some tree s entry
  rw [asked] at less
  exact less rfl

end Pouring

/-- What a source of a journal still has to open is settled, and it is in the state of the other one. -/
def JournalEntries.Settled (tree : FileTree) (s t : JournalEntries) : Prop :=
  s = t ∧ ∀ segment ∈ s.records.unopened, tree.Settles segment.path

/-- Settled sources answer alike and stay settled. -/
theorem JournalEntries.settled_next (s t : JournalEntries) (kept : tree.Keeps later)
    (h : Settled tree s t) :
    (EntrySource.next tree s).1 = (EntrySource.next later t).1 ∧
      Settled tree (EntrySource.next tree s).2 (EntrySource.next later t).2 := by
  obtain ⟨rfl, settles⟩ := h
  obtain ⟨same, suffix⟩ := next_of_openedAlike s (openedAlike_of_settles settles kept)
  show (s.next tree).1 = (s.next later).1 ∧ Settled tree (s.next tree).2 (s.next later).2
  rw [same]
  exact ⟨rfl, rfl, fun segment mem => settles segment (suffix.subset mem)⟩

section Opened

variable {root : String} {config : StreamConfig} {codec : Codec} {source : JournalEntries}

/-- A source that has been opened is settled. -/
theorem JournalEntries.settled_of_ofRoot (opened : ofRoot tree root config codec = .ok source) :
    Settled tree source source := by
  refine ⟨rfl, fun segment mem => ?_⟩
  rw [ofRoot, RecordStream.ofRoot] at opened
  cases listed : listSegments tree root config.group with
  | error e =>
    rw [listed] at opened
    cases opened
  | ok segments =>
    rw [listed] at opened
    cases opened
    exact FileTree.settles_of_listSegments listed ((List.mem_filter.mp mem).1)

/-- **A source of a journal pours what it has when it is opened**, whatever is added. -/
theorem JournalEntries.pours (opened : ofRoot tree root config codec = .ok source) :
    Pours tree.Keeps (EntrySource.drained tree source).1 (EntrySource.drained tree source).2 source :=
  pours_of_relation (fun s t _ kept h => settled_next s t kept h) source source
    (settled_of_ofRoot opened)

/-- **A disruptor over a source of a journal pours what it has**, whatever is added. -/
theorem JournalEntries.pours_disruptor (opened : ofRoot tree root config codec = .ok source)
    (disrupting : DisruptorConfig) :
    Pours tree.Keeps (EntrySource.drained tree (Disruptor.ofSource source disrupting)).1
      (EntrySource.drained tree (Disruptor.ofSource source disrupting)).2
      (Disruptor.ofSource source disrupting) := by
  refine pours_of_relation (R := Disruptor.Like (Settled tree)) (fun d m later kept like => ?_) _ _
    ⟨settled_of_ofRoot opened, rfl, rfl, rfl⟩
  obtain ⟨answer, like⟩ := Disruptor.next_alike (fun s t h => settled_next s t kept h) like
  exact ⟨answer, like⟩

end Opened

end RaftJournal
