import RaftJournal.Proofs.Writer.Tallies

/-! # What does not look at the buffer

Entries wait in the buffer of a writer, numbered, and are counted when they leave it. What is done to
the files, to the segments and to the indices takes no notice of the buffer, of the next sequence number
or of the counter of the entries. An action is **`Blind`** if it does the same to a desk whose writer is
**`ahead`** of another one in these: the answer is the same, and the desk that it leaves is ahead of the
one that it leaves otherwise. -/

namespace RaftJournal

/-- Events that are counted one part after the other are counted. -/
theorem tickBy_tickBy (n : UInt64) (count more : Nat) :
    tickBy (tickBy n count) more = tickBy n (count + more) := by
  induction more with
  | zero => rw [tickBy_zero, Nat.add_zero]
  | succ more ih => rw [tickBy_succ, ih, ← Nat.add_assoc, tickBy_succ]

/-- One event is counted by one tick. -/
theorem tickBy_one (n : UInt64) : tickBy n 1 = tick n := by rw [tickBy_succ, tickBy_zero]

/-- A result with another state. -/
def mapState {ε σ α : Type} (f : σ → σ) : EStateM.Result ε σ α → EStateM.Result ε σ α
  | .ok a s => .ok a (f s)
  | .error e s => .error e (f s)

namespace Writer

/-- The desk of a writer with another buffer and another next sequence number that has counted so many
entries more. -/
def ahead (pending : List Entry) (number : UInt64) (more : Nat) (desk : Desk) : Desk :=
  { desk with
    writer := { desk.writer with
      pending
      nextSequenceNumber := number
      summary := { desk.writer.summary with
        entries := tickBy desk.writer.summary.entries more } } }

/-- The action takes no notice of the buffer, of the next sequence number and of the counted entries. -/
def Blind {α : Type} (x : WriterM α) : Prop :=
  ∀ pending number more desk,
    x (ahead pending number more desk) = mapState (ahead pending number more) (x desk)

section Actions

variable {α β : Type}

/-- An answer that is given without looking at the desk is the same on every desk. -/
theorem blind_pure (a : α) : Blind (pure a) := fun _ _ _ _ => rfl

/-- So is an error. -/
theorem blind_throw (e : JournalError) : Blind (throw e : WriterM α) := fun _ _ _ _ => rfl

/-- A change of the desk is blind if it commutes with what puts a desk ahead. -/
theorem blind_modify {g : Desk → Desk}
    (h : ∀ pending number more desk,
      g (ahead pending number more desk) = ahead pending number more (g desk)) :
    Blind (modify g) := by
  intro pending number more desk
  show EStateM.Result.ok () (g (ahead pending number more desk)) = .ok () _
  rw [h]

/-- Blind actions one after the other are blind, whatever the second makes of the first answer. -/
theorem Blind.bind {x : WriterM α} {f : α → WriterM β} (hx : Blind x) (hf : ∀ a, Blind (f a)) :
    Blind (x >>= f) := by
  intro pending number more desk
  rw [bind_apply, bind_apply, hx]
  cases x desk with
  | error e after => rfl
  | ok a after => exact hf a pending number more after

/-- What becomes of the answer does not matter. -/
theorem Blind.map {x : WriterM α} (hx : Blind x) (f : α → β) : Blind (f <$> x) := by
  rw [map_eq_pure_bind]
  exact hx.bind fun a => blind_pure (f a)

/-- What succeeds on a desk that is ahead of another one succeeds on that one, and stays as far ahead. -/
theorem Blind.of_ok {x : WriterM α} (hx : Blind x) {pending : List Entry} {number : UInt64} {more : Nat}
    {desk after : Desk} {a : α} (done : x (ahead pending number more desk) = .ok a after) :
    ∃ alone, x desk = .ok a alone ∧ after = ahead pending number more alone := by
  rw [hx] at done
  cases result : x desk with
  | error e alone =>
    rw [result] at done
    cases done
  | ok a' alone =>
    rw [result] at done
    cases done
    exact ⟨alone, rfl, rfl⟩

/-- An action may look at the rest of the desk. -/
theorem blind_get_bind {f : Desk → WriterM α}
    (same : ∀ pending number more desk, f (ahead pending number more desk) = f desk)
    (h : ∀ desk, Blind (f desk)) : Blind (get >>= f) := by
  intro pending number more desk
  show f (ahead pending number more desk) (ahead pending number more desk) = _
  rw [same]
  exact h desk pending number more desk

end Actions

/-! ## files and segments -/

/-- An access to the files sees only the tree. -/
theorem blind_onFiles (path : String) (act : FileTree → Except FileFault FileTree) :
    Blind (onFiles path act) := by
  refine blind_get_bind (fun _ _ _ _ => rfl) fun desk => ?_
  cases act desk.tree with
  | ok tree => exact blind_modify fun _ _ _ _ => rfl
  | error fault => exact blind_throw _

/-- Which segment is open is none of the fields that are ahead. -/
theorem blind_setCurrent (segment : Option OpenSegment) : Blind (setCurrent segment) :=
  blind_modify fun _ _ _ _ => rfl

/-- Closing a segment looks at the open segment, at the directory and at the tree. -/
theorem blind_roll : Blind roll := by
  refine blind_get_bind (fun _ _ _ _ => rfl) fun desk => ?_
  cases desk.writer.current with
  | none => exact blind_pure ()
  | some segment =>
    refine (blind_setCurrent none).bind fun _ => (blind_onFiles _ _).bind fun _ => ?_
    refine blind_get_bind (fun _ _ _ _ => rfl) fun _ => (blind_onFiles _ _).bind fun _ => ?_
    exact blind_modify fun _ _ _ _ => rfl

/-- So does closing it only if it is full. -/
theorem blind_rollIfFull (size : Nat) : Blind (rollIfFull size) := by
  refine blind_get_bind (fun _ _ _ _ => rfl) fun desk => ?_
  cases desk.writer.current with
  | none => exact blind_pure ()
  | some segment =>
    simp only
    split
    · exact blind_roll
    · exact blind_pure ()

/-- Making a segment looks at the directory, at the segment size and at the first record. -/
theorem blind_openSegment (first : LogRecord) : Blind (openSegment first) := by
  refine blind_get_bind (fun _ _ _ _ => by simp only [ahead]) fun desk => ?_
  refine blind_get_bind (fun _ _ _ _ => by simp only [ahead]) fun _ => ?_
  simp only
  split
  · exact blind_throw _
  · refine Blind.bind (blind_modify fun _ _ _ _ => rfl) fun _ => ?_
    split
    · exact (blind_throw _).bind fun _ => blind_pure _
    · exact blind_pure _

/-- Putting a record in its place looks at the open segment, and makes one where there is none. -/
theorem blind_place (record : LogRecord) : Blind (place record) := by
  have placed (segment : OpenSegment) : Blind (modify fun desk =>
      { writer := { desk.writer with current := some segment }
        tree := desk.tree.store segment.handle segment.content }) :=
    blind_modify fun _ _ _ _ => rfl
  refine blind_get_bind (fun _ _ _ _ => rfl) fun desk => ?_
  simp only
  split
  · exact (blind_pure _).bind fun _ => placed _
  · exact (blind_openSegment record).bind fun _ => placed _

/-! ## records -/

/-- Appending a record looks at the term and at the next index besides. -/
theorem blind_appendRecord (kind : RecordKind) (payload : Bytes) :
    Blind (appendRecord kind payload) := by
  intro pending number more desk
  have same : (ahead pending number more desk).writer.record kind payload =
      desk.writer.record kind payload := rfl
  have room : (ahead pending number more desk).writer.emptyRoom = desk.writer.emptyRoom := rfl
  have placed (record : LogRecord) : Blind (do
      rollIfFull record.frame.length
      place record
      count record
      pure record.index) :=
    (blind_rollIfFull _).bind fun _ => (blind_place _).bind fun _ =>
      Blind.bind (blind_modify fun _ _ _ _ => rfl) fun _ => blind_pure _
  rw [appendRecord_apply, appendRecord_apply, same, room]
  simp only
  split
  · rfl
  · split
    · rfl
    · exact placed _ pending number more desk

/-- The entries of a batch are counted besides those that have been counted before. -/
theorem blind_appendEncoded (batch : Batch) : Blind (appendEncoded batch) := by
  refine blind_get_bind (fun _ _ _ _ => rfl) fun desk => (blind_appendRecord _ _).bind fun index => ?_
  refine Blind.bind (blind_modify fun pending number more desk => ?_) fun _ => blind_pure _
  have counted : tickBy (tickBy desk.writer.summary.entries more) batch.entries.length =
      tickBy (tickBy desk.writer.summary.entries batch.entries.length) more := by
    rw [tickBy_tickBy, tickBy_tickBy, Nat.add_comm]
  rw [ahead, ahead]
  simp only
  rw [counted]

end Writer

end RaftJournal
