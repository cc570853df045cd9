import RaftJournal.Proofs.Segment.Damage
import RaftJournal.Proofs.Stream.Trace

/-! # Where a reader reads

A **`SegmentReader`** is described by the bytes that it has not read. At work it is given the bytes of the
whole file and a position in them, a machine word, and what it reads are slices between two positions that
it computes from lengths found in the file. **`LogSegment.callAt`** is a call in these terms. It has no
answer at all if a slice or a byte is not inside the file, or if a position is no machine word.

* **`LogSegment.callAt_eq`**: at the position of a reader there is always an answer, the same as the
  reader's, and the position after it is the reader's.
* **`SegmentReader.room_lt_of_next`**: a record takes up at least the 25 bytes of one without a payload, so
  a file has room for only so many.
* **`SegmentReader.answers_eq_trace`**: a run of calls gives records and then one answer for ever.
* **`LogSegment.reads_inside`** says all this of the calls on an opened file, whatever its bytes. -/

namespace RaftJournal

/-! ## positions and slices -/

namespace Bytes

/-- A position moved forward, unless it is no machine word any more. -/
def forward? (position count : Nat) : Option Nat :=
  if position + count < UInt64.size then some (position + count) else none

/-- A position moved back, unless that is before the first. -/
def back? (position count : Nat) : Option Nat :=
  if count ≤ position then some (position - count) else none

/-- The bytes between two positions, if these are in order and inside. -/
def slice? (bytes : Bytes) (start stop : Nat) : Option Bytes :=
  if start ≤ stop ∧ stop ≤ bytes.length then some ((bytes.drop start).take (stop - start)) else none

/-- So many bytes from a position on, if they are inside. -/
def sliceFrom? (bytes : Bytes) (start count : Nat) : Option Bytes :=
  (forward? start count).bind fun stop => bytes.slice? start stop

/-- The end of the frame of a record of the given length, if it is a machine word and inside. -/
def frameEnd? (bytes : Bytes) (offset length : Nat) : Option Nat :=
  ((forward? offset 4).bind (forward? · length)).filter (· ≤ bytes.length)

variable {bytes : Bytes} {position start size place count : Nat}

/-- A position that fits in a word goes forward. -/
theorem forward?_eq (small : position + count < UInt64.size) :
    forward? position count = some (position + count) :=
  if_pos small

/-- A position goes back as far as it came. -/
theorem back?_add (position count : Nat) : back? (position + count) count = some position := by
  rw [back?, if_pos (Nat.le_add_left _ _), Nat.add_sub_cancel]

/-- A slice of known size is there if the bytes reach to its end. -/
theorem slice?_add (inside : start + size ≤ bytes.length) :
    bytes.slice? start (start + size) = some ((bytes.drop start).take size) := by
  rw [slice?, if_pos ⟨Nat.le_add_right _ _, inside⟩, Nat.add_sub_cancel_left]

/-- The slice from a position to the end is there if the position is inside. -/
theorem slice?_length (inside : start ≤ bytes.length) :
    bytes.slice? start bytes.length = some (bytes.drop start) := by
  rw [slice?, if_pos ⟨inside, Nat.le_refl _⟩, List.take_of_length_le (Nat.le_of_eq List.length_drop)]

/-- A slice of known size from a position is there if the bytes reach to its end. -/
theorem sliceFrom?_eq (inside : start + count ≤ bytes.length) (small : bytes.length < UInt64.size) :
    bytes.sliceFrom? start count = some ((bytes.drop start).take count) := by
  rw [sliceFrom?, forward?_eq (Nat.lt_of_le_of_lt inside small), Option.bind_some, slice?_add inside]

/-- What is read inside a slice is part of the slice. -/
theorem sliceFrom?_of_slice (inside : start + size ≤ bytes.length) (small : bytes.length < UInt64.size)
    (within : place + count ≤ size) :
    bytes.sliceFrom? (start + place) count =
      some ((((bytes.drop start).take size).drop place).take count) := by
  rw [sliceFrom?_eq (by omega) small, List.drop_take, List.take_take, List.drop_drop,
    Nat.min_eq_left (by omega)]

/-- The rest of a slice is read from a place inside to its end. -/
theorem slice?_of_slice (inside : start + size ≤ bytes.length) (within : place ≤ size) :
    bytes.slice? (start + place) (start + size) = some (((bytes.drop start).take size).drop place) := by
  have stop : start + size = start + place + (size - place) := by omega
  rw [stop, slice?_add (by omega), List.drop_take, List.drop_drop]

/-- A byte of a slice is one of the bytes it was cut from. -/
theorem getElem?_of_slice (within : place < size) :
    bytes[start + place]? = (((bytes.drop start).take size).drop place).head? := by
  rw [List.head?_drop, List.getElem?_take_of_lt within, List.getElem?_drop]

/-- An end that is inside is a machine word. -/
theorem frameEnd?_eq (small : bytes.length < UInt64.size) (offset length : Nat) :
    bytes.frameEnd? offset length =
      if offset + 4 + length ≤ bytes.length then some (offset + 4 + length) else none := by
  by_cases inside : offset + 4 + length ≤ bytes.length
  · rw [if_pos inside, frameEnd?, forward?_eq (by omega), Option.bind_some, forward?_eq (by omega),
      Option.filter_some, if_pos (decide_eq_true inside)]
  · rw [if_neg inside, frameEnd?, Option.filter_eq_none_iff]
    intro stop found
    obtain ⟨start, forward, found⟩ := Option.bind_eq_some_iff.mp found
    rw [forward?, Option.ite_none_right_eq_some] at forward found
    obtain ⟨-, ⟨⟩⟩ := forward
    obtain ⟨-, ⟨⟩⟩ := found
    exact fun reached => inside (of_decide_eq_true reached)

end Bytes

/-! ## one call -/

namespace LogSegment

/-- The record with the index whose body is between two positions. -/
def recordAt (segment : LogSegment) (bytes : Bytes) (offset start stop : Nat) (index : UInt64) :
    Option (Except JournalError LogRecord) := do
  let term := Bytes.toWord64 (← bytes.sliceFrom? (← Bytes.forward? start 8) 8)
  let kind ← bytes[← Bytes.forward? start 16]?
  match RecordKind.ofByte? kind with
  | none => return .error (.unknownRecordKind segment.path offset kind)
  | some kind =>
    if segment.contains index then
      let payload ← bytes.slice? (← Bytes.forward? start 17) stop
      return .ok ⟨index, term, kind, payload⟩
    else return .error (.indexOutOfRange segment.path index segment.start segment.last)

/-- The record whose frame is between two positions. -/
def frameAt (segment : LogSegment) (bytes : Bytes) (offset stop : Nat) :
    Option (Except JournalError LogRecord) := do
  let start ← Bytes.forward? offset 4
  let checksum ← Bytes.back? stop LogRecord.checksumSize
  let stored := Bytes.toWord32 (← bytes.sliceFrom? checksum 4)
  let body ← bytes.slice? start checksum
  let index := Bytes.toWord64 (← bytes.sliceFrom? start 8)
  if stored = crc32 body then segment.recordAt bytes offset start checksum index
  else return .error (.corruptRecord segment.path index stored (crc32 body))

/-- The answer to a call at a position of a file, and the position after it. -/
def callAt (segment : LogSegment) (bytes : Bytes) (offset : Nat) :
    Option (Except JournalError (Option LogRecord) × Nat) := do
  let fault := JournalError.invalidRecordHeader segment.path offset
  let remaining ← bytes.slice? offset bytes.length
  if remaining.length < 4 then
    if remaining.all (· = 0) then return (.ok none, offset)
    else return (.error (fault "truncated record_length"), offset)
  else
    let length := Bytes.toNat (← bytes.sliceFrom? offset 4)
    if length = 0 then return (.ok none, offset)
    else if length < LogRecord.minimalLength then
      return (.error (fault s!"record_length {length} smaller than header"), offset)
    else
      match Bytes.frameEnd? bytes offset length with
      | none => return (.error (fault "truncated record (extends beyond segment data)"), offset)
      | some stop =>
        match ← segment.frameAt bytes offset stop with
        | .error e => return (.error e, offset)
        | .ok record => return (.ok (some record), stop)

variable {bytes : Bytes} {start size : Nat}

/-- A body that is inside, and large enough for one, is read as it is taken apart. -/
theorem recordAt_eq (r : SegmentReader) (large : 17 ≤ size) (inside : start + size ≤ bytes.length)
    (small : bytes.length < UInt64.size) :
    r.segment.recordAt bytes r.offset start (start + size)
        (Bytes.toWord64 (((bytes.drop start).take size).take 8)) =
      some (r.parseBody ((bytes.drop start).take size)) := by
  have term := Bytes.sliceFrom?_of_slice inside small (show 8 + 8 ≤ size by omega)
  have kind : bytes[start + 16]? = _ := Bytes.getElem?_of_slice (show 16 < size by omega)
  have payload := Bytes.slice?_of_slice inside large
  have length : ((bytes.drop start).take size).length = size := by
    rw [List.length_take, List.length_drop]
    omega
  generalize (bytes.drop start).take size = body at term kind payload length ⊢
  rw [recordAt, SegmentReader.parseBody, Bytes.forward?_eq (by omega), Bytes.forward?_eq (by omega),
    Bytes.forward?_eq (by omega)]
  simp only [Option.bind_eq_bind, Option.bind_some, term, kind, payload]
  -- behind the term there is a kind, and behind it the payload
  cases tail : body.drop 16 with
  | nil =>
    have short := List.drop_eq_nil_iff.mp tail
    omega
  | cons byte payload =>
    have rest : body.drop 17 = payload := by rw [← List.tail_drop, tail, List.tail_cons]
    rw [rest]
    simp only [List.head?_cons, Option.bind_some]
    cases RecordKind.ofByte? byte with
    | none => rfl
    | some kind =>
      simp only
      split <;> rfl

/-- A frame that is inside, and large enough for one, is read as it is taken apart. -/
theorem frameAt_eq (r : SegmentReader) (large : 17 ≤ size)
    (inside : r.offset + 4 + size + 4 ≤ bytes.length) (small : bytes.length < UInt64.size) :
    r.segment.frameAt bytes r.offset (r.offset + 4 + size + 4) =
      some (r.parseFrame ((bytes.drop (r.offset + 4)).take size)
        (Bytes.toWord32 ((bytes.drop (r.offset + 4 + size)).take 4))) := by
  have front : r.offset + 4 + size ≤ bytes.length := by omega
  have index := Bytes.sliceFrom?_of_slice front small (show 0 + 8 ≤ size by omega)
  rw [Nat.add_zero, List.drop_zero] at index
  rw [frameAt, SegmentReader.parseFrame, Bytes.forward?_eq (by omega), LogRecord.checksumSize_eq,
    Bytes.back?_add]
  simp only [Option.bind_eq_bind, Option.bind_some]
  rw [Bytes.sliceFrom?_eq inside small, Bytes.slice?_add front, index]
  simp only [Option.bind_some, recordAt_eq r large front small]
  split <;> rfl

end LogSegment

/-! ## readers and their positions -/

/-- The reader of a segment has read its file up to a position. -/
structure SegmentReader.At (segment : LogSegment) (content : Content) (r : SegmentReader) : Prop where
  own : r.segment = segment
  inside : r.offset ≤ content.length
  unread : r.unread.toList = content.toList.drop r.offset

namespace SegmentReader.At

variable {segment : LogSegment} {content : Content} {r : SegmentReader} {tree : FileTree}

/-- Position and bytes not yet read make up the file. -/
theorem length_unread (h : At segment content r) : r.offset + r.unread.length = content.length := by
  have length := congrArg List.length h.unread
  rw [Content.length_toList, List.length_drop, Content.length_toList] at length
  have := h.inside
  omega

theorem length_drop (h : At segment content r) :
    (content.toList.drop r.offset).length = r.unread.length := by
  rw [← h.unread, Content.length_toList]

theorem all_drop (h : At segment content r) :
    (content.toList.drop r.offset).all (· = 0) = r.unread.isZero := by
  rw [Bool.eq_iff_iff, Content.isZero_iff, h.unread, List.all_eq_true]
  simp only [decide_eq_true_eq]

theorem take_unread (h : At segment content r) (count : Nat) :
    r.unread.take count = (content.toList.drop r.offset).take count := by
  rw [Content.take_eq, h.unread]

theorem take_drop_unread (h : At segment content r) (place count : Nat) :
    (r.unread.drop place).take count = (content.toList.drop (r.offset + place)).take count := by
  rw [Content.take_eq, Content.toList_drop, h.unread, List.drop_drop]

/-- A file is opened at its start if it is empty, else behind its header. -/
theorem of_reader (file : tree.read segment.path = .ok content) (opened : segment.reader tree = .ok r) :
    At segment content r ∧ r.unread.length = content.length - 8 ∧
      (content.length = 0 ∨ 8 ≤ content.length) := by
  by_cases empty : content.length = 0
  · rw [LogSegment.reader, file] at opened
    simp only at opened
    rw [if_pos empty] at opened
    split at opened
    · cases opened
      exact ⟨⟨rfl, Nat.zero_le _, rfl⟩, by rw [empty], .inl empty⟩
    · cases opened
  · obtain ⟨rfl, bytes⟩ := LogSegment.header_of_reader file empty opened
    have size := congrArg List.length bytes
    rw [List.length_append, Content.length_toList, Content.length_toList] at size
    have header : LogRecord.segmentHeader.length = 8 := rfl
    refine ⟨⟨rfl, ?_, Content.toList_drop _ _⟩, by omega, .inr (by omega)⟩
    show 8 ≤ content.length
    omega

/-- A call takes a reader to another position or leaves it where it is. -/
theorem call (h : At segment content r) : At segment content r.call.2 := by
  rw [SegmentReader.call]
  cases found : r.next with
  | error e => exact h
  | ok found' =>
    cases found' with
    | none => exact h
    | some found' =>
      obtain ⟨record, r'⟩ := found'
      obtain ⟨rfl, unread, -, -⟩ := frame_of_next found
      have size := congrArg List.length unread
      rw [List.length_append, Content.length_toList] at size
      have length := h.length_unread
      refine ⟨h.own, ?_, ?_⟩
      · show r.offset + record.frame.length ≤ _
        omega
      · show (r.unread.drop _).toList = content.toList.drop (r.offset + _)
        rw [Content.toList_drop, h.unread, List.drop_drop]

/-- Calls take a reader from position to position of its file. -/
theorem stateAfter (h : At segment content r) (count : Nat) :
    At segment content (stateAfter SegmentReader.call count r) := by
  induction count generalizing r with
  | zero => exact h
  | succ count ih => exact ih h.call

end SegmentReader.At

/-- **A call reads inside the file.** At the position of a reader there is always an answer, that of the
reader, and the position after it is the reader's. -/
theorem LogSegment.callAt_eq {segment : LogSegment} {content : Content} {r : SegmentReader}
    (h : r.At segment content) (small : content.length < UInt64.size) :
    segment.callAt content.toList r.offset = some (r.call.1, r.call.2.offset) := by
  have total : r.offset + r.unread.length = content.toList.length := by
    rw [h.length_unread, Content.length_toList]
  rw [← Content.length_toList content] at small
  rw [callAt, Bytes.slice?_length (Content.length_toList content ▸ h.inside), SegmentReader.call,
    SegmentReader.next]
  -- what the reader has not read is what comes behind its position
  simp only [Option.bind_eq_bind, Option.bind_some, h.length_drop, h.all_drop, h.take_unread,
    h.take_drop_unread, ← h.own, LogRecord.minimalLength_eq, LogRecord.checksumSize_eq]
  generalize content.toList = bytes at total small
  by_cases short : r.unread.length < 4
  · rw [if_pos short, if_pos short]
    split <;> rfl
  rw [if_neg short, if_neg short, Bytes.sliceFrom?_eq (by omega) small]
  simp only [Option.bind_some]
  generalize Bytes.toNat ((bytes.drop r.offset).take 4) = length
  by_cases ended : length = 0
  · rw [if_pos ended, if_pos ended]
    rfl
  rw [if_neg ended, if_neg ended]
  by_cases few : length < 21
  · rw [if_pos few, if_pos few]
    rfl
  rw [if_neg few, if_neg few, Bytes.frameEnd?_eq small]
  by_cases beyond : r.unread.length < 4 + length
  · rw [if_pos beyond, if_neg (by omega)]
    rfl
  rw [if_neg beyond, if_pos (by omega)]
  obtain ⟨size, rfl⟩ : ∃ size, length = size + 4 := ⟨length - 4, by omega⟩
  have frame := frameAt_eq r (show 17 ≤ size by omega) (by omega) small
  simp only [Nat.add_assoc, Nat.add_sub_cancel] at frame ⊢
  rw [frame]
  generalize r.parseFrame _ _ = found
  cases found with
  | error e => rfl
  | ok record => rfl

/-! ## how many records there is room for -/

/-- The answer that a reader stays with behind the records of its trace. -/
def Trace.last (t : Trace) : Except JournalError (Option LogRecord) :=
  match t.fault with
  | some e => .error e
  | none => .ok none

theorem Trace.last_ne (t : Trace) (record : LogRecord) : t.last ≠ .ok (some record) := by
  rw [last]
  cases t.fault <;> simp

namespace SegmentReader

variable {r r' : SegmentReader} {record : LogRecord}

/-- How many records there is room for in what has not been read. -/
def room (r : SegmentReader) : Nat := r.unread.length / LogRecord.overhead

/-- A record takes a reader forward by 25 bytes and those of its payload, which were there. -/
theorem offset_of_next (h : r.next = .ok (some (record, r'))) :
    r'.offset = r.offset + (25 + record.payload.length) ∧
      r'.unread.length + (25 + record.payload.length) = r.unread.length := by
  obtain ⟨rfl, unread, -, -⟩ := frame_of_next h
  have size : record.frame.length = 25 + record.payload.length := by
    rw [LogRecord.length_frame, LogRecord.overhead_eq, Nat.add_comm]
  have length := congrArg List.length unread
  rw [List.length_append, Content.length_toList, Content.length_toList] at length
  refine ⟨?_, by omega⟩
  show r.offset + record.frame.length = _
  rw [size]

/-- A record takes up the room of one at least. -/
theorem room_lt_of_next (h : r.next = .ok (some (record, r'))) : r'.room < r.room := by
  obtain ⟨-, unread⟩ := offset_of_next h
  rw [room, room, LogRecord.overhead_eq]
  omega

/-- There are no more records than there is room for. -/
theorem length_trace_le (r : SegmentReader) : r.trace.records.length ≤ r.room := by
  fun_induction trace r with
  | case1 | case2 => exact Nat.zero_le _
  | case3 r record r' found ih =>
    have := room_lt_of_next found
    show (r'.trace.records.length + 1) ≤ r.room
    omega

/-- A reader hands out the records of its trace, and then it answers the same for ever. -/
theorem answers_eq_trace (r : SegmentReader) (count : Nat) :
    answers call (r.trace.records.length + count) r =
      r.trace.records.map (fun record => .ok (some record)) ++ List.replicate count r.trace.last := by
  fun_induction trace r with
  | case1 r e refused =>
    rw [Trace.ofFault, List.length_nil, Nat.zero_add, List.map_nil, List.nil_append]
    exact answers_of_error refused count
  | case2 r ended =>
    rw [Trace.empty, List.length_nil, Nat.zero_add, List.map_nil, List.nil_append]
    exact answers_of_stays (by rw [call, ended]; rfl) count
  | case3 r record r' found ih =>
    have first : r.call = (.ok (some record), r') := by rw [call, found]
    rw [Trace.cons, List.length_cons, Nat.add_right_comm, answers, first, ih, List.map_cons,
      List.cons_append]
    rfl

/-- A call that hands out a record has found it, and any other leaves the reader where it is. -/
theorem call_cases (r : SegmentReader) :
    (∃ record, r.next = .ok (some (record, r.call.2)) ∧ r.call.1 = .ok (some record)) ∨
      ((∀ record, r.call.1 ≠ .ok (some record)) ∧ r.call.2 = r) := by
  rw [call]
  cases r.next with
  | error e => exact .inr ⟨fun record same => (by cases same), rfl⟩
  | ok found =>
    cases found with
    | none => exact .inr ⟨fun record same => (by cases same), rfl⟩
    | some found => exact .inl ⟨found.1, rfl, rfl⟩

end SegmentReader

/-! ## opened files -/

namespace LogSegment

/-- **A reader reads inside its file and comes to an end, whatever the bytes are.** Take any file that is
opened, and a reader that has been called on it any number of times. It stands inside the file, and if the
length of the file is a 64-bit word, its next call reads only slices and bytes that are inside, at positions
that are such words and never below zero. A record takes the reader forward by 25 bytes and its payload,
and not past the end of the file; any other answer leaves it where it is, so that it is repeated. In all,
the reader hands out no more records than there are 25 bytes behind the header, of which only an empty file
has none, and then answers the same for ever. -/
theorem reads_inside (segment : LogSegment) (tree : FileTree) (content : Content) (r : SegmentReader)
    (file : tree.read segment.path = .ok content) (opened : segment.reader tree = .ok r) :
    (∀ count,
      let now := stateAfter SegmentReader.call count r
      now.offset ≤ content.length ∧
        (content.length < UInt64.size →
          segment.callAt content.toList now.offset = some (now.call.1, now.call.2.offset)) ∧
        (∀ record, now.call.1 = .ok (some record) →
          now.call.2.offset = now.offset + (25 + record.payload.length) ∧
            now.call.2.offset ≤ content.length) ∧
        ((∀ record, now.call.1 ≠ .ok (some record)) →
          now.call.2 = now ∧
            ∀ more, answers SegmentReader.call more now = List.replicate more now.call.1)) ∧
    ∃ (records : List LogRecord) (last : Except JournalError (Option LogRecord)),
      (∀ record, last ≠ .ok (some record)) ∧
      records.length ≤ (content.length - 8) / 25 ∧ (content.length = 0 ∨ 8 ≤ content.length) ∧
      ∀ count, answers SegmentReader.call (records.length + count) r =
        records.map (fun record => .ok (some record)) ++ List.replicate count last := by
  obtain ⟨here, left, header⟩ := SegmentReader.At.of_reader file opened
  refine ⟨fun count => ?_, r.trace.records, r.trace.last, r.trace.last_ne, ?_, header,
    r.answers_eq_trace⟩
  · intro now
    have here : now.At segment content := here.stateAfter count
    refine ⟨here.inside, callAt_eq here, fun record handed => ?_, fun without => ?_⟩
    · refine ⟨?_, here.call.inside⟩
      obtain ⟨record', found, handed'⟩ | ⟨without, -⟩ := now.call_cases
      · rw [handed] at handed'
        cases handed'
        exact (SegmentReader.offset_of_next found).1
      · exact absurd handed (without record)
    · obtain ⟨record, -, handed⟩ | ⟨-, stays⟩ := now.call_cases
      · exact absurd handed (without record)
      · exact ⟨stays, SegmentReader.answers_of_stays (Prod.ext rfl stays)⟩
  · have fits := r.length_trace_le
    rwa [SegmentReader.room, left] at fits

/-- A file with one record of the segment of two, and behind it a length far beyond its end. -/
def boundlessContent : Content :=
  .ofList (segmentBytes (twoRecords.take 1) ++ [0xFF, 0xFF, 0xFF, 0xFF, 0])

/-- The record before a length that is far beyond the end of the file is handed out, and the length is
refused without a look at what it announces. -/
theorem reads_inside_of_boundless :
    let tree : FileTree := ⟨[(["log_4-5"], .file 0 boundlessContent)], 1⟩
    tree.read ofTwo.path = .ok boundlessContent ∧ boundlessContent.length < UInt64.size ∧
    ∃ r, ofTwo.reader tree = .ok r ∧
      ofTwo.callAt boundlessContent.toList 8 =
        some (.ok (some ⟨4, 1, .configuration, [0xAA]⟩), 34) ∧
      ofTwo.callAt boundlessContent.toList 34 =
        some (.error (.invalidRecordHeader "log_4-5" 34
          "truncated record (extends beyond segment data)"), 34) := by
  intro tree
  have file : tree.read ofTwo.path = .ok boundlessContent := by rfl
  have small : boundlessContent.length < UInt64.size := by decide +kernel
  have opened : ofTwo.reader tree = .ok (ofTwo.behindHeader boundlessContent) := by decide +kernel
  obtain ⟨calls, -⟩ := reads_inside ofTwo tree boundlessContent _ file opened
  have first := (calls 0).2.1 small
  have second := (calls 1).2.1 small
  have found : (ofTwo.behindHeader boundlessContent).call.1 =
        .ok (some ⟨4, 1, .configuration, [0xAA]⟩) ∧
      (ofTwo.behindHeader boundlessContent).call.2.offset = 34 := by decide +kernel
  have refused : (ofTwo.behindHeader boundlessContent).call.2.call.1 =
        .error (.invalidRecordHeader "log_4-5" 34 "truncated record (extends beyond segment data)") ∧
      (ofTwo.behindHeader boundlessContent).call.2.call.2.offset = 34 := by decide +kernel
  simp only [stateAfter] at first second
  rw [found.1, found.2] at first
  rw [found.2, refused.1, refused.2] at second
  exact ⟨file, small, _, opened, first, second⟩

end LogSegment

end RaftJournal
