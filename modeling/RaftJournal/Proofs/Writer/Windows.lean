import Mathlib.Data.List.TakeWhile
import RaftJournal.Proofs.Stream.Pruning
import RaftJournal.Proofs.Writer.Accounts
import RaftJournal.Proofs.Writer.Tiling

/-! # Ranges of what a writer leaves

Of records whose indices rise, a stream hands out those of its range, **`StreamConfig.within`**
(**`StreamConfig.select_of_rising`**), and two ranges of which the second starts where the first stops have
the records of both together (**`StreamConfig.within_append`**). What a writer leaves are such records, in
segments that can all be read, so it does not matter which of them a stream leaves out.

**`Writer.ranges_compose`** says it of streams that are opened by the root, for records and for the entries
in them, wherever the ranges meet. -/

namespace RaftJournal

/-! ## ranges of rising records -/

namespace StreamConfig

/-- The records of the range, among some. -/
def within (c : StreamConfig) (records : List LogRecord) : List LogRecord :=
  records.filter fun record => c.includes record.index

variable {c : StreamConfig} {records rest : List LogRecord} {record : LogRecord}

theorem within_cons_of_includes (h : c.includes record.index) :
    c.within (record :: rest) = record :: c.within rest :=
  List.filter_cons_of_pos h

theorem within_cons_of_not_includes (h : ¬ c.includes record.index) :
    c.within (record :: rest) = c.within rest :=
  List.filter_cons_of_neg h

theorem includes_iff {index : UInt64} :
    c.includes index ↔ c.start ≤ index ∧ ∀ stop ∈ c.stop, index < stop := by
  rw [includes, Bool.and_eq_true, decide_eq_true_eq, Bool.not_eq_true', Bool.eq_false_iff,
    Ne, isPast_iff]
  refine and_congr_right fun _ => ⟨fun short stop ends => ?_, ?_⟩
  · exact UInt64.not_le.mp fun le => short ⟨stop, ends, le⟩
  · rintro short ⟨stop, ends, le⟩
    exact UInt64.not_le.mpr (short stop ends) le

/-- Of rising records without a fault a stream hands out those of its range. -/
theorem select_of_rising (rising : records.Pairwise (·.index < ·.index)) :
    c.select ⟨records, none⟩ = ⟨c.within records, none⟩ := by
  induction records with
  | nil => rfl
  | cons record rest ih =>
    obtain ⟨least, rising⟩ := List.pairwise_cons.mp rising
    show c.select (.cons record ⟨rest, none⟩) = _
    by_cases below : record.index < c.start
    · rw [select_cons_below c below, ih rising, within_cons_of_not_includes]
      exact fun inside => UInt64.not_le.mpr below (includes_iff.mp inside).1
    · by_cases past : c.isPast record.index
      · -- the records behind one past the range are past it too
        obtain ⟨stop, ends, le⟩ := isPast_iff.mp past
        have none_left : c.within (record :: rest) = [] := by
          rw [within, List.filter_eq_nil_iff]
          intro next mem inside
          refine UInt64.not_le.mpr ((includes_iff.mp inside).2 stop ends) ?_
          rcases List.mem_cons.mp mem with rfl | mem
          · exact le
          · exact UInt64.le_trans le (UInt64.le_of_lt (least next mem))
        rw [select_cons_past c below past, none_left]
        rfl
      · have inside : c.includes record.index := by
          rw [includes, decide_eq_true (UInt64.not_lt.mp below), eq_false_of_ne_true past]
          rfl
        rw [select_cons_within c below past, ih rising, within_cons_of_includes inside]
        rfl

/-- The records of two ranges, the second starting where the first stops, are those of both together. -/
theorem within_append (rising : records.Pairwise (·.index < ·.index)) (group : Uuid)
    {start middle : UInt64} {stop : Option UInt64} (le : start ≤ middle)
    (le' : ∀ last ∈ stop, middle ≤ last) :
    within ⟨group, start, some middle⟩ records ++ within ⟨group, middle, stop⟩ records =
      within ⟨group, start, stop⟩ records := by
  induction records with
  | nil => rfl
  | cons record rest ih =>
    obtain ⟨least, rising⟩ := List.pairwise_cons.mp rising
    by_cases before : record.index < middle
    · -- the record is in the first range exactly if it is in both together
      have not_second : ¬ includes ⟨group, middle, stop⟩ record.index := fun inside =>
        UInt64.not_le.mpr before (includes_iff.mp inside).1
      rw [within_cons_of_not_includes not_second]
      by_cases reached : start ≤ record.index
      · have first : includes ⟨group, start, some middle⟩ record.index :=
          includes_iff.mpr ⟨reached, fun last ends => Option.some.inj ends ▸ before⟩
        have whole : includes ⟨group, start, stop⟩ record.index :=
          includes_iff.mpr ⟨reached, fun last ends => UInt64.lt_of_lt_of_le before (le' last ends)⟩
        rw [within_cons_of_includes first, within_cons_of_includes whole, List.cons_append, ih rising]
      · rw [within_cons_of_not_includes fun inside => reached (includes_iff.mp inside).1,
          within_cons_of_not_includes fun inside => reached (includes_iff.mp inside).1, ih rising]
    · -- from here on every record is past the first range
      have later (next : LogRecord) (mem : next ∈ record :: rest) : middle ≤ next.index := by
        rcases List.mem_cons.mp mem with rfl | mem
        · exact UInt64.not_lt.mp before
        · exact UInt64.le_trans (UInt64.not_lt.mp before) (UInt64.le_of_lt (least next mem))
      have first : within ⟨group, start, some middle⟩ (record :: rest) = [] := by
        rw [within, List.filter_eq_nil_iff]
        exact fun next mem inside =>
          UInt64.not_le.mpr ((includes_iff.mp inside).2 middle rfl) (later next mem)
      rw [first, List.nil_append, within, within]
      refine List.filter_congr fun next mem => Bool.eq_iff_iff.mpr ?_
      rw [includes_iff, includes_iff]
      exact and_congr_left fun _ =>
        ⟨fun _ => UInt64.le_trans le (later next mem), fun _ => later next mem⟩

end StreamConfig

/-- Where every payload for the state machine is a batch, unpacking gives the entries of all of them. -/
theorem Codec.unpack_of_decodes {codec : Codec} {records : List LogRecord}
    (decodes : ∀ record ∈ records, record.kind = .stateMachineData →
      ∃ batch, codec.decode record.payload = .ok batch) :
    codec.unpack none records = (codec.entriesOf records, none) := by
  have sound (record : LogRecord)
      (mem : record ∈ records.filter fun record => record.kind = .stateMachineData) :
      codec.faultIn record = none := by
    obtain ⟨mem, machine⟩ := List.mem_filter.mp mem
    obtain ⟨batch, decoded⟩ := decodes record mem (of_decide_eq_true machine)
    exact faultIn_of_ok decoded
  rw [codec.unpack_eq, entriesOf, List.takeWhile_eq_self_iff.mpr, List.findSome?_eq_none_iff.mpr sound]
  · rfl
  · intro record mem
    rw [sound record mem]
    rfl

/-! ## ranges of a group -/

namespace Writer

variable {tree made : FileTree} {root : String} {config : WriterConfig} {codec : Codec} {w : Writer}

/-- After a run of a created writer in which the file system refuses nothing and the indices suffice, a
stream over any range of the group gives the records of the ledger in that range. Only the empty path is
not taken as the root of such a stream. -/
theorem gives_within (operations : List Operation)
    (created : create tree root config codec = (.ok w, made))
    (granted : ∀ answer ∈ (performAll perform operations ⟨w, made⟩).1, ¬ answer.isIo)
    (numbered : (performAll Ledger.perform operations (.start config codec)).2.Numbered)
    {range : StreamConfig} (group : range.group = config.group) :
    let run := performAll perform operations ⟨w, made⟩
    let promised := performAll Ledger.perform operations (.start config codec)
    let stream := RecordStream.ofSegments
      ((segmentsIn run.2.tree (groupDirectory root config.group)).filter range.meets) range
    run.1 = promised.1 ∧
      RecordStream.ofRoot run.2.tree root range =
        (if root = "" then .error (.invalidDirectory "") else .ok stream) ∧
      Gives (RecordStream.next run.2.tree) (range.within promised.2.records) none stream := by
  intro run promised stream
  obtain ⟨answers, site, volumes, rfl, dir, shows, records⟩ :=
    exists_shows operations created granted numbered
  refine ⟨answers,
    ofRoot_eq_filter created shows.holds.extends_site (dir ▸ shows.holds.isDirectory) group, ?_⟩
  have listed : segmentsIn run.2.tree (groupDirectory root config.group) =
      volumes.map (Volume.segment site) := dir ▸ shows.holds.segmentsIn_eq
  -- all segments can be read, so none of those left out is missed
  have readable : ∀ s ∈ volumes.map (Volume.segment site), s.Readable run.2.tree := by
    intro s mem
    obtain ⟨v, member, rfl⟩ := List.mem_map.mp mem
    obtain ⟨r, opened, trace⟩ := shows.holds.reader_segment member
    exact ⟨r, opened, by rw [trace]⟩
  have gives := RecordStream.gives_select run.2.tree
    ((segmentsIn run.2.tree (groupDirectory root config.group)).filter range.meets) range
  have sorted := pairwise_segmentsIn run.2.tree (groupDirectory root config.group)
  rw [listed] at gives sorted
  rw [StreamConfig.select_filter_meets sorted fun s mem _ => readable s mem,
    shows.holds.traceOf_eq fun v mem => mem, List.flatMap_def, records,
    StreamConfig.select_of_rising (Ledger.records_rising numbered)] at gives
  show Gives _ _ _ (RecordStream.ofSegments ((segmentsIn run.2.tree _).filter _) _)
  rw [listed]
  exact gives

/-- **Ranges compose.** Take a writer that has been created for a group and any operations in which the
file system refuses nothing and the indices suffice; every point of a longer run is the end of such a run.
Then a stream over any range gives exactly the accepted records with an index in the range, and then
nothing, without an error. So the records of a range and of a second one that starts where the first stops
are, one after the other, what a stream over both together gives, wherever the ranges meet. Where a codec
decodes every payload for the state machine, the same holds of the entries. Only the empty path is not
taken as the root of a stream; the segments listed for the group are read all the same. -/
theorem ranges_compose (operations : List Operation)
    (created : create tree root config codec = (.ok w, made))
    (granted : ∀ answer ∈ (performAll perform operations ⟨w, made⟩).1, ¬ answer.isIo)
    (numbered : config.startIndex.toNat +
      (performAll Ledger.perform operations (.start config codec)).2.accepted.length ≤
        UInt64.size) :
    let run := performAll perform operations ⟨w, made⟩
    let promised := performAll Ledger.perform operations (.start config codec)
    let accepted := LogRecord.number config.startIndex config.term promised.2.accepted
    let range (start : UInt64) (stop : Option UInt64) : StreamConfig := ⟨config.group, start, stop⟩
    let records start stop := (range start stop).within accepted
    let stream start stop := RecordStream.ofSegments
      ((segmentsIn run.2.tree (groupDirectory root config.group)).filter (range start stop).meets)
      (range start stop)
    run.1 = promised.1 ∧
      (∀ start stop,
        RecordStream.ofRoot run.2.tree root (range start stop) =
          (if root = "" then .error (.invalidDirectory "") else .ok (stream start stop)) ∧
        Gives (RecordStream.next run.2.tree) (records start stop) none (stream start stop)) ∧
      (∀ start middle stop, start ≤ middle → (∀ last ∈ stop, middle ≤ last) →
        Gives (RecordStream.next run.2.tree) (records start (some middle) ++ records middle stop) none
          (stream start stop)) ∧
      ∀ reading : Codec,
        (∀ record ∈ accepted, record.kind = .stateMachineData →
          ∃ batch, reading.decode record.payload = .ok batch) →
        let entries start stop := reading.entriesOf (records start stop)
        (∀ start stop,
          JournalEntries.ofRoot run.2.tree root (range start stop) reading =
            (if root = "" then .error (.invalidDirectory "")
              else .ok (.ofRecords (stream start stop) reading)) ∧
          Gives (JournalEntries.next run.2.tree) (entries start stop) none
            (.ofRecords (stream start stop) reading)) ∧
        ∀ start middle stop, start ≤ middle → (∀ last ∈ stop, middle ≤ last) →
          Gives (JournalEntries.next run.2.tree) (entries start (some middle) ++ entries middle stop)
            none (.ofRecords (stream start stop) reading) := by
  intro run promised accepted range records stream
  have enough : promised.2.Numbered := Ledger.numbered_performAll_iff.mpr numbered
  have rising := Ledger.records_rising enough
  have same : promised.2.records = accepted := Ledger.records_performAll enough
  rw [same] at rising
  have opens (start : UInt64) (stop : Option UInt64) :
      RecordStream.ofRoot run.2.tree root (range start stop) =
          (if root = "" then .error (.invalidDirectory "") else .ok (stream start stop)) ∧
        Gives (RecordStream.next run.2.tree) (records start stop) none (stream start stop) := by
    obtain ⟨-, opened, gives⟩ := gives_within operations created granted enough
      (rfl : (range start stop).group = config.group)
    rw [same] at gives
    exact ⟨opened, gives⟩
  have answers : run.1 = promised.1 :=
    (gives_within operations created granted enough (rfl : (range 0 none).group = config.group)).1
  have append (start middle : UInt64) (stop : Option UInt64) (le : start ≤ middle)
      (le' : ∀ last ∈ stop, middle ≤ last) :
      records start (some middle) ++ records middle stop = records start stop :=
    StreamConfig.within_append rising config.group le le'
  refine ⟨answers, opens, fun start middle stop le le' => ?_, fun reading decodes => ?_⟩
  · rw [append start middle stop le le']
    exact (opens start stop).2
  · intro entries
    have gives (start : UInt64) (stop : Option UInt64) :
        Gives (JournalEntries.next run.2.tree) (entries start stop) none
          (.ofRecords (stream start stop) reading) := by
      have unpacked := JournalEntries.gives_unpack reading (opens start stop).2
      have sound : reading.unpack none (records start stop) = (entries start stop, none) :=
        Codec.unpack_of_decodes fun record mem => decodes record (List.mem_filter.mp mem).1
      rwa [sound] at unpacked
    refine ⟨fun start stop => ⟨JournalEntries.ofRoot_of_records (opens start stop).1,
      gives start stop⟩, fun start middle stop le le' => ?_⟩
    rw [← Codec.entriesOf_append, append start middle stop le le']
    exact gives start stop

/-- Two appends, each of which needs a segment of its own, of batches with one entry. -/
def machineAppends : List Operation :=
  [.appendRecord .stateMachineData [1, 0, 0], .appendRecord .stateMachineData [1, 1, 4, 0]]

/-- Ranges that meet where the second segment starts have both records together, and both entries. -/
theorem ranges_compose_of_two :
    create .empty "j" tightConfig .json = (.ok (tightDesk "j").writer, (tightDesk "j").tree) ∧
    (∀ answer ∈ (performAll perform machineAppends (tightDesk "j")).1, ¬ answer.isIo) ∧
    tightConfig.startIndex.toNat +
      (performAll Ledger.perform machineAppends (.start tightConfig .json)).2.accepted.length ≤
        UInt64.size ∧
    ∃ first second whole,
      let after := (performAll perform machineAppends (tightDesk "j")).2.tree
      RecordStream.ofRoot after "j" ⟨.defaultGroup, 5, some 6⟩ = .ok first ∧
      RecordStream.ofRoot after "j" ⟨.defaultGroup, 6, none⟩ = .ok second ∧
      RecordStream.ofRoot after "j" ⟨.defaultGroup, 5, none⟩ = .ok whole ∧
      Gives (RecordStream.next after) [⟨5, 3, .stateMachineData, [1, 0, 0]⟩] none first ∧
      Gives (RecordStream.next after) [⟨6, 3, .stateMachineData, [1, 1, 4, 0]⟩] none second ∧
      Gives (RecordStream.next after) ([⟨5, 3, .stateMachineData, [1, 0, 0]⟩] ++
        [⟨6, 3, .stateMachineData, [1, 1, 4, 0]⟩]) none whole ∧
      Gives (JournalEntries.next after) [⟨none, none⟩] none (.ofRecords first .packed) ∧
      Gives (JournalEntries.next after) [⟨some 4, none⟩] none (.ofRecords second .packed) ∧
      Gives (JournalEntries.next after) ([⟨none, none⟩] ++ [⟨some 4, none⟩]) none
        (.ofRecords whole .packed) := by
  have created : create .empty "j" tightConfig .json =
      (.ok (tightDesk "j").writer, (tightDesk "j").tree) := by decide +kernel
  have granted : ∀ answer ∈ (performAll perform machineAppends (tightDesk "j")).1, ¬ answer.isIo := by
    decide +kernel
  have numbered : tightConfig.startIndex.toNat +
      (performAll Ledger.perform machineAppends (.start tightConfig .json)).2.accepted.length ≤
        UInt64.size := by decide +kernel
  have accepted : LogRecord.number tightConfig.startIndex tightConfig.term
      (performAll Ledger.perform machineAppends (.start tightConfig .json)).2.accepted =
        [⟨5, 3, .stateMachineData, [1, 0, 0]⟩, ⟨6, 3, .stateMachineData, [1, 1, 4, 0]⟩] := by
    decide +kernel
  have batch : Codec.decode .packed [1, 0, 0] = .ok ⟨[⟨none, none⟩]⟩ := by decide +kernel
  have batch' : Codec.decode .packed [1, 1, 4, 0] = .ok ⟨[⟨some 4, none⟩]⟩ := by decide +kernel
  obtain ⟨-, opens, compose, reads⟩ := ranges_compose machineAppends created granted numbered
  simp only [accepted] at opens compose reads
  obtain ⟨unpacks, joins⟩ := reads .packed fun record mem _ => by
    rcases List.mem_cons.mp mem with rfl | mem
    · exact ⟨_, batch⟩
    · obtain rfl := List.mem_singleton.mp mem
      exact ⟨_, batch'⟩
  exact ⟨created, granted, numbered, _, _, _, (opens 5 (some 6)).1, (opens 6 none).1,
    (opens 5 none).1, (opens 5 (some 6)).2, (opens 6 none).2, compose 5 6 none (by decide) nofun,
    (unpacks 5 (some 6)).2, (unpacks 6 none).2, joins 5 6 none (by decide) nofun⟩

/-- Under the empty path a record is appended that no stream over a range comes to: it does not take the
empty path as a root. -/
theorem ranges_unread_of_empty_path :
    create .empty "" tightConfig .json = (.ok (tightDesk "").writer, (tightDesk "").tree) ∧
    (performAll perform [.appendRecord .metadata [7, 7]] (tightDesk "")).1 = [.ok (some 5)] ∧
    ∀ range : StreamConfig,
      RecordStream.ofRoot (performAll perform [.appendRecord .metadata [7, 7]] (tightDesk "")).2.tree ""
        range = .error (.invalidDirectory "") := by
  refine ⟨by decide +kernel, by decide +kernel, fun range => ?_⟩
  rfl

end Writer

end RaftJournal
