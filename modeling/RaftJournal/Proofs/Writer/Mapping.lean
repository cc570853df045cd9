import RaftJournal.Proofs.Writer.Confinement

/-! # The mapped file of the open segment

A writer keeps the file of its open segment mapped: **`Mapping`** is that file with the position up to
which it is written. A slice of the mapping is written only if it lies inside (**`Mapping.put`**), and a
record is checked once more against the bytes that are left (**`Mapping.write`**), although its size has
been checked against an empty segment before.

Neither the slices nor the second check ever fail: in every state of a writer its open segment has the size
of all segments and ends with its records inside (**`Writer.Bounded`**), so that a record which has passed the
first check is written as it is to the mapping (**`Writer.append_all_or_nothing`**). -/

namespace RaftJournal

/-- A mapped file and the position up to which it is written. -/
structure Mapping where
  bytes : Bytes
  position : Nat
  deriving DecidableEq, Repr

namespace Mapping

/-- Bytes with a slice of them replaced, unless the slice does not lie inside or is not as long as what
comes in its place. -/
def put (bytes : Bytes) (start stop : Nat) (others : Bytes) : Option Bytes :=
  if start ≤ stop ∧ stop ≤ bytes.length ∧ others.length = stop - start then
    some (bytes.take start ++ others ++ bytes.drop stop)
  else none

/-- A file of the given length, zero but for the header of a segment. -/
def create (capacity : Nat) : Option Mapping :=
  (put (List.replicate capacity 0) 0 LogRecord.segmentHeaderSize LogRecord.segmentHeader).map
    fun bytes => ⟨bytes, LogRecord.segmentHeaderSize⟩

/-- The mapping with one more frame, unless there is no room for it. -/
def write (m : Mapping) (frame : Bytes) : Option (Except JournalError Mapping) :=
  let stop := m.position + frame.length
  if m.bytes.length < stop then
    some (.error (.entryTooLarge frame.length (UInt64.ofNat m.bytes.length)))
  else (put m.bytes m.position stop frame).map fun bytes => .ok ⟨bytes, stop⟩

/-- Written bytes and zeros after them, some of which are replaced. -/
theorem put_append_replicate (written others : Bytes) {room : Nat} (fits : others.length ≤ room) :
    put (written ++ List.replicate room 0) written.length (written.length + others.length) others =
      some (written ++ others ++ List.replicate (room - others.length) 0) := by
  have inside : written.length + others.length ≤ (written ++ List.replicate room (0 : UInt8)).length := by
    rw [List.length_append, List.length_replicate]
    omega
  rw [put, if_pos ⟨by omega, inside, by omega⟩, List.take_left, List.drop_append,
    List.drop_eq_nil_of_le (by omega), List.nil_append, List.drop_replicate, Nat.add_sub_cancel_left]

end Mapping

/-- The mapped file of a segment. -/
def OpenSegment.mapping (segment : OpenSegment) : Mapping :=
  ⟨segment.content.toList, segment.written.length⟩

/-- The file of a segment has the given size, and its records are inside. -/
structure OpenSegment.Within (size : Nat) (segment : OpenSegment) : Prop where
  capacity : segment.capacity = size
  written : segment.written.length ≤ size

namespace OpenSegment

variable {segment : OpenSegment} {size : Nat}

theorem Within.length_mapping (h : segment.Within size) : segment.mapping.bytes.length = size := by
  show segment.content.toList.length = size
  rw [Content.length_toList]
  show segment.written.length + (segment.capacity - segment.written.length) = size
  have := h.written
  rw [h.capacity]
  omega

/-- A record that fits into what is left is written, and stays within. -/
theorem Within.append (h : segment.Within size) (record : LogRecord)
    (room : record.frame.length ≤ segment.remaining) :
    (segment.append record).Within size ∧
      segment.mapping.write record.frame = some (.ok (segment.append record).mapping) := by
  have inside : segment.written.length + record.frame.length ≤ size := by
    have := h.written
    rw [remaining, h.capacity] at room
    omega
  have length : (segment.append record).written.length =
      segment.written.length + record.frame.length := List.length_append
  refine ⟨⟨h.capacity, length ▸ inside⟩, ?_⟩
  have checked : ¬ segment.mapping.bytes.length < segment.mapping.position + record.frame.length := by
    rw [h.length_mapping]
    exact Nat.not_lt.mpr inside
  have after : (segment.append record).mapping =
      ⟨segment.written ++ record.frame ++
        List.replicate (segment.remaining - record.frame.length) 0,
        segment.written.length + record.frame.length⟩ := by
    have left : (segment.append record).remaining = segment.remaining - record.frame.length := by
      rw [remaining, remaining, length, Nat.sub_add_eq]
      rfl
    rw [mapping, content, Content.toList, left, length]
    rfl
  rw [Mapping.write, if_neg checked, after]
  exact congrArg _ (Mapping.put_append_replicate segment.written record.frame room)

end OpenSegment

namespace Mapping

/-- A segment without records. -/
theorem create_eq {size : Nat} (header : LogRecord.segmentHeaderSize ≤ size) (path : String)
    (handle : FileTree.Handle) (start last : UInt64) :
    create size = some
      (OpenSegment.mapping ⟨path, handle, size, LogRecord.segmentHeader, start, last⟩) := by
  have zeros := put_append_replicate [] LogRecord.segmentHeader header
  rw [List.nil_append, List.nil_append, List.length_nil, Nat.zero_add] at zeros
  rw [create, LogRecord.segmentHeaderSize, zeros]
  rfl

end Mapping

namespace Writer

/-- The mapping that a record of the given size is written to: that of the open segment if there is room
for the record, else a new one. -/
def mappingFor (w : Writer) (size : Nat) : Option Mapping :=
  match w.current with
  | some segment =>
    if segment.remaining < size then Mapping.create w.config.segmentSize.toNat
    else some segment.mapping
  | none => Mapping.create w.config.segmentSize.toNat

/-- The open segment is within the size that the configuration gives to segments. -/
structure Bounded (config : WriterConfig) (desk : Desk) : Prop where
  configured : desk.writer.config = config
  current : ∀ segment, desk.writer.current = some segment → segment.Within config.segmentSize.toNat

variable {config : WriterConfig} {desk : Desk} {record : LogRecord}

theorem Bounded.closed (h : Bounded config desk) (tree : FileTree) (summary : WriterSummary) :
    Bounded config ⟨{ desk.writer with current := none, summary }, tree⟩ :=
  ⟨h.configured, fun _ none => by cases none⟩

/-- After closing there is no open segment. -/
theorem bounded_roll (h : Bounded config desk) :
    Ends (roll desk) (fun _ after => Bounded config after ∧ after.writer.current = none)
      (Bounded config) := by
  have files (path : String) (act : FileTree → Except FileFault FileTree) (desk : Desk)
      (h : Bounded config desk ∧ desk.writer.current = none) :
      Ends (onFiles path act desk)
        (fun _ after => Bounded config after ∧ after.writer.current = none) (Bounded config) := by
    rw [onFiles_apply]
    cases act desk.tree with
    | ok tree => exact .ok ⟨⟨h.1.configured, h.1.current⟩, h.2⟩
    | error fault => exact .error h.1
  apply Ends.get_bind
  cases current : desk.writer.current with
  | none => exact .ok ⟨h, current⟩
  | some segment =>
    refine Ends.modify_bind ((files _ _ _ ⟨h.closed _ _, rfl⟩).bind fun _ cut h => ?_)
    refine Ends.get_bind ((files _ _ _ h).bind fun _ renamed h => ?_)
    exact .ok ⟨⟨h.1.configured, h.1.current⟩, h.2⟩

/-- There is room for a record of the given size if there is an open segment. -/
def Ready (size : Nat) (desk : Desk) : Prop :=
  ∀ segment, desk.writer.current = some segment → size ≤ segment.remaining

/-- Room is made for a record, in the same mapping as was to be written to. -/
theorem bounded_rollIfFull (h : Bounded config desk) (size : Nat) :
    Ends (rollIfFull size desk)
      (fun _ after => Bounded config after ∧ Ready size after ∧
        after.writer.mappingFor size = desk.writer.mappingFor size) (Bounded config) := by
  apply Ends.get_bind
  cases current : desk.writer.current with
  | none =>
    refine .ok ⟨h, fun segment same => ?_, rfl⟩
    rw [current] at same
    cases same
  | some segment =>
    simp only
    split
    · rename_i full
      -- once the segment is closed a new one is written to, as it was to be
      refine (bounded_roll h).mono ?_ fun _ h => h
      rintro - after ⟨h', closed⟩
      refine ⟨h', fun segment same => ?_, ?_⟩
      · rw [closed] at same
        cases same
      · rw [mappingFor, mappingFor, closed, current, h'.configured, h.configured]
        simp only
        rw [if_pos full]
    · rename_i room
      refine .ok ⟨h, fun segment' same => ?_, rfl⟩
      rw [current] at same
      cases same
      exact Nat.not_lt.mp room

/-- A new segment is one with the header alone to which its first record has been appended. -/
theorem bounded_openSegment (h : Bounded config desk)
    (small : LogRecord.segmentHeaderSize + record.frame.length ≤ config.segmentSize.toNat) :
    Ends (openSegment record desk)
      (fun segment after => Bounded config after ∧ segment.Within config.segmentSize.toNat ∧
        ∃ mapping, Mapping.create config.segmentSize.toNat = some mapping ∧
          mapping.write record.frame = some (.ok segment.mapping)) (Bounded config) := by
  apply Ends.get_bind
  apply Ends.get_bind
  rw [h.configured]
  cases desk.tree.create (Path.join desk.writer.dir (SegmentName.openName record.index)) with
  | error fault => exact .error h
  | ok made =>
    obtain ⟨handle, tree⟩ := made
    have kept : Bounded config { desk with tree } := ⟨h.configured, h.current⟩
    refine Ends.modify_bind ?_
    cases FileTree.checkLength _ with
    | error fault => exact .error kept
    | ok u =>
      have header : OpenSegment.Within config.segmentSize.toNat
          ⟨Path.join desk.writer.dir (SegmentName.openName record.index), handle,
            config.segmentSize.toNat, LogRecord.segmentHeader, record.index, record.index⟩ :=
        ⟨rfl, Nat.le_trans (Nat.le_add_right _ _) small⟩
      obtain ⟨within, written⟩ := header.append record (Nat.le_sub_of_add_le' small)
      exact .ok ⟨kept, within, _, Mapping.create_eq header.written _ _ _ _, written⟩

/-- A record for which there is room is written to the mapping. -/
theorem bounded_place (h : Bounded config desk) (ready : Ready record.frame.length desk)
    (small : LogRecord.segmentHeaderSize + record.frame.length ≤ config.segmentSize.toNat) :
    Ends (place record desk)
      (fun _ after => Bounded config after ∧ ∃ mapping segment,
        desk.writer.mappingFor record.frame.length = some mapping ∧
          after.writer.current = some segment ∧
          mapping.write record.frame = some (.ok segment.mapping)) (Bounded config) := by
  have bounded {desk : Desk} (h : Bounded config desk) {segment : OpenSegment}
      (within : segment.Within config.segmentSize.toNat) (tree : FileTree) :
      Bounded config ⟨{ desk.writer with current := some segment }, tree⟩ := by
    refine ⟨h.configured, ?_⟩
    rintro _ ⟨⟩
    exact within
  apply Ends.get_bind
  cases current : desk.writer.current with
  | some segment =>
    have room := ready segment current
    obtain ⟨within, written⟩ := (h.current segment current).append record room
    refine .ok ⟨bounded h within _, segment.mapping, _, ?_, rfl, written⟩
    rw [mappingFor, current]
    simp only
    rw [if_neg (Nat.not_lt.mpr room)]
  | none =>
    refine (bounded_openSegment h small).bind ?_
    rintro segment after ⟨h', within, mapping, created, written⟩
    refine .ok ⟨bounded h' within _, mapping, segment, ?_, rfl, written⟩
    rw [mappingFor, current, h.configured]
    exact created

/-- Room is made for a record and it is written to the mapping. -/
theorem bounded_append (h : Bounded config desk)
    (small : LogRecord.segmentHeaderSize + record.frame.length ≤ config.segmentSize.toNat) :
    Ends ((rollIfFull record.frame.length >>= fun _ => place record) desk)
      (fun _ after => Bounded config after ∧ ∃ mapping segment,
        desk.writer.mappingFor record.frame.length = some mapping ∧
          after.writer.current = some segment ∧
          mapping.write record.frame = some (.ok segment.mapping)) (Bounded config) := by
  refine (bounded_rollIfFull h _).bind ?_
  rintro - ready ⟨h', room, same⟩
  exact same ▸ bounded_place h' room small

/-- A record that passes the first check fits behind the header of a segment, which it therefore has. -/
theorem Bounded.small (h : Bounded config desk) {record : LogRecord}
    (room : ¬ desk.writer.emptyRoom < record.frame.length) :
    LogRecord.segmentHeaderSize + record.frame.length ≤ config.segmentSize.toNat := by
  rw [emptyRoom, h.configured] at room
  have filled : 0 < record.frame.length := by
    rw [LogRecord.length_frame, LogRecord.overhead_eq]
    omega
  omega

/-- It passes the second one as well, in whichever segment it is to be. -/
theorem Bounded.exists_written (h : Bounded config desk) {record : LogRecord}
    (small : LogRecord.segmentHeaderSize + record.frame.length ≤ config.segmentSize.toNat) :
    ∃ mapping next, desk.writer.mappingFor record.frame.length = some mapping ∧
      mapping.write record.frame = some (.ok next) := by
  have header : OpenSegment.Within config.segmentSize.toNat
      ⟨"", ⟨[], 0⟩, config.segmentSize.toNat, LogRecord.segmentHeader, 0, 0⟩ :=
    ⟨rfl, Nat.le_trans (Nat.le_add_right _ _) small⟩
  have fresh := header.append record (Nat.le_sub_of_add_le' small)
  have created := Mapping.create_eq header.written "" ⟨[], 0⟩ 0 0
  rw [mappingFor, h.configured]
  -- in a new mapping there is the header alone; in the old one there is room, or it is not used
  cases current : desk.writer.current with
  | none => exact ⟨_, _, created, fresh.2⟩
  | some segment =>
    simp only
    split
    · exact ⟨_, _, created, fresh.2⟩
    · rename_i room
      exact ⟨_, _, rfl, ((h.current segment current).append record (Nat.not_lt.mp room)).2⟩

theorem steady_bounded (config : WriterConfig) : Steady (Bounded config) where
  appendRecord kind payload desk h := by
    refine ends_appendRecord h (fun room => ?_)
      fun placed (h : Bounded config placed) => ⟨h.configured, h.current⟩
    exact (bounded_append h (h.small room)).mono (fun _ _ h => h.1) fun _ h => h
  roll desk h := (bounded_roll h).mono (fun _ _ h => h.1) fun _ h => h
  book _ _ _ _ h := ⟨h.configured, h.current⟩

variable {tree made : FileTree} {root : String} {codec : Codec} {w : Writer}

/-- A writer starts without an open segment. -/
theorem bounded_create (created : create tree root config codec = (.ok w, made)) :
    Bounded config ⟨w, made⟩ := by
  obtain ⟨path, eq, -, -, rfl⟩ := of_create created
  exact ⟨rfl, fun _ none => by cases none⟩

/-- **An append is all or nothing and never out of bounds.** In every state of a writer its open segment
has the size of all segments and ends inside. A record is refused for its size just where it does not fit
behind the header of an empty segment (if its length fits its 32 bits, otherwise it cannot be framed), and
an append that is refused, but not by the file system, leaves everything as it was. Any other record is
written, inside the bounds and with room left for it, to the mapping of the open segment or of a new one;
unless the file system refuses, the append gives the next index. -/
theorem append_all_or_nothing (created : create tree root config codec = (.ok w, made))
    (operations : List Operation) (kind : RecordKind) (payload : Bytes) :
    let desk := (performAll perform operations ⟨w, made⟩).2
    let record := desk.writer.record kind payload
    (∀ segment, desk.writer.current = some segment →
        segment.mapping.bytes.length = config.segmentSize.toNat ∧
          segment.mapping.position ≤ config.segmentSize.toNat) ∧
      ((∃ size limit after,
          appendRecord kind payload desk = .error (.entryTooLarge size limit) after) ↔
        payload.length + 21 < UInt32.size ∧ config.segmentSize.toNat - 8 < 25 + payload.length) ∧
      (UInt32.size ≤ payload.length + 21 →
        appendRecord kind payload desk = .error (.serialization "record size overflow") desk) ∧
      (∀ e after, appendRecord kind payload desk = .error e after → ¬ e.isIo → after = desk) ∧
      (payload.length + 21 < UInt32.size → 25 + payload.length ≤ config.segmentSize.toNat - 8 →
        ∃ mapping next, desk.writer.mappingFor record.frame.length = some mapping ∧
          mapping.write record.frame = some (.ok next) ∧
          Does (appendRecord kind payload desk) fun index after =>
            index = desk.writer.nextIndex ∧
              after.writer.current.map OpenSegment.mapping = some next) := by
  intro desk record
  have bounded : Bounded config desk :=
    (steady_bounded config).performAll operations (bounded_create created)
  have framable : record.Framable ↔ payload.length + 21 < UInt32.size := Iff.rfl
  have room : desk.writer.emptyRoom < record.frame.length ↔
      config.segmentSize.toNat - 8 < 25 + payload.length := by
    rw [emptyRoom, bounded.configured, LogRecord.length_frame, Nat.add_comm]
    rfl
  have does (framed : record.Framable) (small : ¬ desk.writer.emptyRoom < record.frame.length) :=
    does_appendRecord framed small
      (((book_append record desk).and_ends (bounded_append bounded (bounded.small small))).mono
        fun _ _ placed => placed.2.2)
  refine ⟨fun segment current => ?bounds, ⟨?sized, fun both => ?large⟩,
    fun long => ?long, fun e after failed size => ?unchanged, fun framed small => ?written⟩
  case bounds =>
    have within := bounded.current segment current
    exact ⟨within.length_mapping, within.written⟩
  case sized =>
    rintro ⟨size, limit, after, refused⟩
    rw [← framable, ← room]
    by_cases framed : record.Framable
    · refine ⟨framed, by_contra fun small => ?_⟩
      exact absurd ((does framed small).isIo_of_error refused) Bool.false_ne_true
    · rw [appendRecord_of_unframable framed] at refused
      cases refused
  case large => exact ⟨_, _, _, appendRecord_of_large both.1 (room.mpr both.2)⟩
  case long =>
    refine appendRecord_of_unframable fun framed => ?_
    exact Nat.not_lt.mpr long (framable.mp framed)
  case unchanged => exact of_appendRecord_error failed size
  case written =>
    have small : ¬ desk.writer.emptyRoom < record.frame.length := by
      rw [room]
      omega
    obtain ⟨mapping, next, found, ends⟩ := bounded.exists_written (bounded.small small)
    refine ⟨mapping, next, found, ends, (does framed small).mono fun index after => ?_⟩
    -- the mapping that it is written to is the one that passes the check
    rintro ⟨same, placed, ⟨mapping', segment, found', current, ends'⟩, counted⟩
    rw [found] at found'
    cases found'
    rw [ends] at ends'
    cases ends'
    cases counted
    exact ⟨same, congrArg (Option.map OpenSegment.mapping) current⟩

/-- Two appends that fill a segment to its last byte. -/
def fillingAppends : List Operation := [.appendRecord .metadata [1], .appendRecord .configuration [2]]

/-- Where a segment is full, a record that fills an empty one is written to a new one, and a record of one
byte more is refused and leaves everything as it was. -/
theorem append_all_or_nothing_of_full :
    create .empty "j" tightConfig .json = (.ok (tightDesk "j").writer, (tightDesk "j").tree) ∧
      let desk := (performAll perform fillingAppends (tightDesk "j")).2
      (desk.writer.current.map fun segment => segment.mapping.position) = some 60 ∧
        (∃ next, (Mapping.create 60).bind (·.write
            (desk.writer.record .metadata (List.replicate 27 0)).frame) = some (.ok next) ∧
          Does (appendRecord .metadata (List.replicate 27 0) desk) fun index after =>
            index = 7 ∧ after.writer.current.map OpenSegment.mapping = some next) ∧
        ∃ size limit, appendRecord .metadata (List.replicate 28 0) desk =
          .error (.entryTooLarge size limit) desk := by
  have created : create .empty "j" tightConfig .json =
      (.ok (tightDesk "j").writer, (tightDesk "j").tree) := by decide +kernel
  obtain ⟨-, -, -, -, written⟩ :=
    append_all_or_nothing created fillingAppends .metadata (List.replicate 27 0)
  obtain ⟨-, refused, -, unchanged, -⟩ :=
    append_all_or_nothing created fillingAppends .metadata (List.replicate 28 0)
  obtain ⟨mapping, next, found, ends, does⟩ := written (by decide) (by decide)
  obtain ⟨size, limit, after, refused⟩ := refused.mpr ⟨by decide, by decide⟩
  rw [unchanged _ _ refused Bool.false_ne_true] at refused
  have rotates : ((performAll perform fillingAppends (tightDesk "j")).2.writer.mappingFor
      ((performAll perform fillingAppends (tightDesk "j")).2.writer.record .metadata
        (List.replicate 27 0)).frame.length) = Mapping.create 60 := by decide +kernel
  have index : (performAll perform fillingAppends (tightDesk "j")).2.writer.nextIndex = 7 := by
    decide +kernel
  refine ⟨created, by decide +kernel, ⟨next, ?_, index ▸ does⟩, size, limit, refused⟩
  rw [← rotates, found, Option.bind_some]
  exact ends

/-- The shortest payload of which no record can be framed. -/
def longPayload : Bytes := List.replicate (UInt32.size - 21) 0

/-- A configuration whose segments have room for more than any record. -/
def vastConfig : WriterConfig := { WriterConfig.default with segmentSize := 8589934592 }

/-- A writer with one record in its open segment, and a directory where the next segment will be. -/
def blockedDesk : Desk :=
  let desk := (performAll perform [.appendRecord .metadata [7, 7]] (tightDesk "j")).2
  { desk with
    tree := (desk.tree.makeDirectories
      (Path.join (groupDirectory "j" .defaultGroup) (SegmentName.openName 6))).2 }

/-- **A record may be neither too large nor written**, and an append may do a part. A payload is so long
that no record can be framed of it: it is refused for that reason by one writer for whose segments it would
be too large, and by one for whose segments it would not be. And where there is a directory in the place of
the next segment, an append to a full one is refused by the file system, but the full one has been closed. -/
theorem append_refused_of_long :
    (∀ config ∈ [WriterConfig.default, vastConfig],
      create .empty "j" config .json =
        (.ok (freshDesk "j" config .json).writer, (freshDesk "j" config .json).tree) ∧
      appendRecord .metadata longPayload (freshDesk "j" config .json) =
        .error (.serialization "record size overflow") (freshDesk "j" config .json)) ∧
    WriterConfig.default.segmentSize.toNat - 8 < 25 + longPayload.length ∧
    25 + longPayload.length ≤ vastConfig.segmentSize.toNat - 8 ∧
    ∃ e after, appendRecord .metadata [8, 8] blockedDesk = .error e after ∧ e.isIo ∧
      (blockedDesk.tree.read
        (Path.join (groupDirectory "j" .defaultGroup) (SegmentName.openName 5))).isOk ∧
      ¬ (after.tree.read
        (Path.join (groupDirectory "j" .defaultGroup) (SegmentName.openName 5))).isOk := by
  have length : longPayload.length = 4294967275 := List.length_replicate
  have created : ∀ config ∈ [WriterConfig.default, vastConfig], create .empty "j" config .json =
      (.ok (freshDesk "j" config .json).writer, (freshDesk "j" config .json).tree) := by decide +kernel
  refine ⟨fun config mem => ⟨created config mem, ?_⟩, ?_, ?_, ?_⟩
  · refine appendRecord_of_unframable fun framed => ?_
    have short : longPayload.length + 21 < UInt32.size := framed
    rw [length] at short
    exact absurd short (by decide)
  · rw [length]
    decide
  · rw [length]
    decide
  · -- whether the file of the first segment is there, before and after
    have refused : (match appendRecord .metadata [8, 8] blockedDesk with
        | .ok _ _ => false
        | .error e after => e.isIo &&
          (blockedDesk.tree.read
            (Path.join (groupDirectory "j" .defaultGroup) (SegmentName.openName 5))).isOk &&
          !(after.tree.read
            (Path.join (groupDirectory "j" .defaultGroup) (SegmentName.openName 5))).isOk) = true := by
      decide +kernel
    cases ended : appendRecord .metadata [8, 8] blockedDesk with
    | ok index after =>
      rw [ended] at refused
      cases refused
    | error e after =>
      rw [ended] at refused
      obtain ⟨there, gone⟩ := Bool.and_eq_true_iff.mp refused
      obtain ⟨io, before⟩ := Bool.and_eq_true_iff.mp there
      exact ⟨e, after, rfl, io, before, by simpa using gone⟩

end Writer

end RaftJournal
