import RaftJournal.Stream.Disruptor
import RaftJournal.Stream.Journal
import RaftJournal.Writer.Basic

/-! # Sources under disruptors

A disruptor may delay the entries of another disruptor, so a session can put any number of them over
the source that it started with. **`Layered depth`** is a source of entries under so many disruptors,
and **`Layers`** is one under some number of them: **`Layers.wrap`** puts one more on it and
**`Layers.unwrap?`** takes the last one off. -/

namespace RaftJournal

/-! ## the source at the bottom -/

/-- A source that reads no other source. -/
inductive GroundSource
  | memory (entries : MemoryEntries)
  | journal (entries : JournalEntries)
  deriving DecidableEq

namespace GroundSource

/-- The next entry. -/
def next (tree : FileTree) : GroundSource → Pulled × GroundSource
  | .memory s => ((EntrySource.next tree s).1, .memory (EntrySource.next tree s).2)
  | .journal s => ((EntrySource.next tree s).1, .journal (EntrySource.next tree s).2)

/-- What the source still has. -/
def rank : GroundSource → Rank
  | .memory s => EntrySource.rank s
  | .journal s => EntrySource.rank s

instance : EntrySource GroundSource where
  next := next
  rank := rank
  rank_next tree s := by
    cases s with
    | memory s => exact EntrySource.rank_next tree s
    | journal s => exact EntrySource.rank_next tree s
  rank_next_some tree s entry h := by
    cases s with
    | memory s => exact EntrySource.rank_next_some tree s entry h
    | journal s => exact EntrySource.rank_next_some tree s entry h

end GroundSource

/-! ## layers -/

/-- A source under so many disruptors. -/
def Layered : (depth : Nat) → Type
  | 0 => GroundSource
  | depth + 1 => Disruptor (Layered depth)

/-- How the entries of a source under disruptors are handed out. -/
@[reducible] def Layered.entrySource : (depth : Nat) → EntrySource (Layered depth)
  | 0 => inferInstanceAs (EntrySource GroundSource)
  | depth + 1 =>
    letI := Layered.entrySource depth
    inferInstanceAs (EntrySource (Disruptor (Layered depth)))

instance (depth : Nat) : EntrySource (Layered depth) := Layered.entrySource depth

/-- A source under some number of disruptors. -/
structure Layers where
  depth : Nat
  source : Layered depth

namespace Layers

/-- A source under no disruptor. -/
def ofGround (source : GroundSource) : Layers := ⟨0, source⟩

/-- What is on top of a source: nothing, so that it is the ground source, or a disruptor. -/
inductive View
  | ground (source : GroundSource)
  | disruptor {depth : Nat} (top : Disruptor (Layered depth))

/-- What is on top of the source. -/
def view : Layers → View
  | ⟨0, source⟩ => .ground source
  | ⟨_ + 1, top⟩ => .disruptor top

/-- A disruptor with what is below it. -/
def ofDisruptor {depth : Nat} (top : Disruptor (Layered depth)) : Layers := ⟨depth + 1, top⟩

/-- Puts a disruptor on top, if the configuration is valid. -/
def wrap (s : Layers) (config : DisruptorConfig) : Except DisruptorConfig.Fault Layers :=
  (Disruptor.wrap s.source config).map ofDisruptor

/-- Takes the disruptor on top away, with the entries that it keeps. -/
def unwrap? (s : Layers) : Option Layers :=
  match s.view with
  | .ground _ => none
  | .disruptor top => some ⟨_, top.source⟩

/-- The next entry. -/
def next (tree : FileTree) (s : Layers) : Pulled × Layers :=
  let (pulled, source) := EntrySource.next tree s.source
  (pulled, ⟨s.depth, source⟩)

/-- The entries up to the end or the first error, the error, and the source afterwards. -/
def drain (tree : FileTree) (s : Layers) : List Entry × Option JournalError × Layers :=
  let (entries, error, source) := EntrySource.drain tree s.source
  (entries, error, ⟨s.depth, source⟩)

/-- Writes every entry of the disruptor on top and flushes the writer; nothing where there is no
disruptor. -/
def disruptInto? (s : Layers) (desk : Desk) :
    Option (Except JournalError DisruptionSummary × Layers × Desk) :=
  match s.view with
  | .ground _ => none
  | .disruptor top =>
    let (result, top, desk) := top.disruptInto desk
    some (result, ofDisruptor top, desk)

/-- Taking off what was put on gives back what was there. -/
theorem unwrap?_wrap {s t : Layers} {config : DisruptorConfig} (h : s.wrap config = .ok t) :
    t.unwrap? = some s := by
  unfold wrap Disruptor.wrap at h
  cases hv : config.validate with
  | error fault => simp [hv, Except.map] at h
  | ok _ =>
    simp only [hv, Except.map, Except.ok.injEq] at h
    subst h
    rfl

end Layers

end RaftJournal
