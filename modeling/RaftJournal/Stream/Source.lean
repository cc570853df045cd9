import RaftJournal.Entry.Basic
import RaftJournal.Error
import RaftJournal.Storage.FileTree
import RaftJournal.Stream.Rank

/-! # Sources of entries

Whatever hands out entries one at a time is an **`EntrySource`**: entries kept in memory, the entries
of a journal, or another source whose entries are delayed. A source may look at the files of the
session, and it gives its next entry, or nothing at its end, or an error. Handing out an entry takes
its rank down, so every source can be drained (**`EntrySource.drain`**). -/

namespace RaftJournal

/-- What a source gives when it is asked for an entry. -/
abbrev Pulled := Except JournalError (Option Entry)

/-- A source of entries. -/
class EntrySource (σ : Type) where
  /-- The next entry, nothing at the end, or an error; and the source afterwards. -/
  next : FileTree → σ → Pulled × σ
  /-- What the source still has. -/
  rank : σ → Rank
  /-- Asking for an entry never adds to what the source has. -/
  rank_next : ∀ tree s, (rank (next tree s).2).AtMost (rank s)
  /-- An entry that is handed out is no longer there. -/
  rank_next_some : ∀ tree s entry, (next tree s).1 = .ok (some entry) →
    (rank (next tree s).2).Less (rank s)

namespace EntrySource

variable {σ : Type} [EntrySource σ]

/-- The entries up to the end or the first error, the error, and the source afterwards. -/
def drain (tree : FileTree) (s : σ) : List Entry × Option JournalError × σ :=
  match _h : next tree s with
  | (.ok none, s') => ([], none, s')
  | (.error e, s') => ([], some e, s')
  | (.ok (some entry), s') =>
    let (more, error, s'') := drain tree s'
    (entry :: more, error, s'')
termination_by rank s
decreasing_by
  have := rank_next_some tree s entry
  rw [_h] at this
  exact this rfl

end EntrySource

/-- Entries kept in memory, handed out from the front. -/
structure MemoryEntries where
  entries : List Entry
  deriving DecidableEq

namespace MemoryEntries

/-- The first entry left. -/
def next (s : MemoryEntries) : Pulled × MemoryEntries :=
  match s.entries with
  | [] => (.ok none, s)
  | entry :: rest => (.ok (some entry), ⟨rest⟩)

instance : EntrySource MemoryEntries where
  next _ s := s.next
  rank s := ⟨0, 0, s.entries.length⟩
  rank_next tree s := by
    unfold next
    split
    · exact .refl _
    · rename_i entry rest h
      exact .inl (.inr ⟨rfl, .inr ⟨rfl, by simp [h]⟩⟩)
  rank_next_some tree s entry := by
    unfold next
    split
    · simp
    · rename_i first rest h
      exact fun _ => .inr ⟨rfl, .inr ⟨rfl, by simp [h]⟩⟩

end MemoryEntries

end RaftJournal
