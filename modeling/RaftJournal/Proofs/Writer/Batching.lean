import RaftJournal.Proofs.Writer.Blindness
import RaftJournal.Proofs.Writer.Readable

/-! # How entries are batched

Between two calls a writer **`Waits`**: its buffer holds fewer entries than make a batch. It is emptied by
the entry that makes it full, and by each call that begins with a flush. The operations on records and on
segments do not look at it. So a successful group of entries, with such operations in between, follows a
**`Plan`**: the same operations, and the append of a full batch where one was full. What is left over makes
the last batch, and the group is **`Batched`**: **`Writer.batching_exact`**. -/

namespace RaftJournal

/-! ## merging -/

/-- The last list is made of the first two, each in its order. -/
inductive Merges {α : Type} : List α → List α → List α → Prop
  | nil : Merges [] [] []
  | left {a : α} {l r whole : List α} : Merges l r whole → Merges (a :: l) r (a :: whole)
  | right {a : α} {l r whole : List α} : Merges l r whole → Merges l (a :: r) (a :: whole)

/-- What is behind the second list may come behind the whole. -/
theorem Merges.append_right {α : Type} {l r whole : List α} (h : Merges l r whole) (more : List α) :
    Merges l (r ++ more) (whole ++ more) := by
  induction h with
  | nil =>
    induction more with
    | nil => exact .nil
    | cons a more ih => exact .right ih
  | left _ ih => exact .left ih
  | right _ ih => exact .right ih

/-! ## kinds of operations -/

namespace Operation

/-- An operation on records and segments. -/
def isRaw : Operation → Bool
  | .appendRecord _ _ | .roll => true
  | _ => false

/-- An operation that begins with the entries in the buffer. -/
def flushes : Operation → Bool
  | .appendBatch _ | .flush | .finish => true
  | _ => false

/-- The entries written by some operations, numbered from the given number on; the largest number is
given again and again. -/
def stamped (number : UInt64) : List Operation → List Entry
  | [] => []
  | .writeEntry entry :: rest => entry.stamp number :: stamped (tick number) rest
  | _ :: rest => stamped number rest

/-- One entry is stamped for each write. -/
theorem length_stamped (number : UInt64) (operations : List Operation) :
    (stamped number operations).length = operations.countP isWrite := by
  induction operations generalizing number with
  | nil => rfl
  | cons operation rest ih =>
    cases operation with
    | writeEntry entry => rw [stamped, List.length_cons, ih, List.countP_cons_of_pos rfl]
    | _ => exact (ih number).trans (List.countP_cons_of_neg Bool.false_ne_true).symm

/-- An operation on records and segments is no write. -/
theorem isWrite_of_raw {operation : Operation} (raw : operation.isRaw) : operation.isWrite = false := by
  cases operation with
  | writeEntry entry => cases raw
  | _ => rfl

/-- An operation without an entry uses no number. -/
theorem stamped_of_raw {operation : Operation} (raw : operation.isRaw) (number : UInt64)
    (rest : List Operation) : stamped number (operation :: rest) = stamped number rest := by
  cases operation with
  | writeEntry entry => cases raw
  | _ => rfl

end Operation

namespace Writer

/-- What decides when the buffer is flushed, and into what. -/
def batching (w : Writer) : WriterConfig × Codec × List Entry := (w.config, w.codec, w.pending)

/-- Two writers decide alike about flushing when they have the same configuration, codec and buffer. -/
theorem batching_eq_iff {w : Writer} {config : WriterConfig} {codec : Codec} {pending : List Entry} :
    w.batching = (config, codec, pending) ↔ w.config = config ∧ w.codec = codec ∧ w.pending = pending := by
  rw [batching, Prod.mk.injEq, Prod.mk.injEq]

/-- Appending a record does not touch the buffer. -/
theorem keeps_batching_appendRecord (kind : RecordKind) (payload : Bytes) :
    Keeps batching (appendRecord kind payload) :=
  keeps_append (fun _ _ => rfl) (fun _ _ => rfl) (fun _ _ _ _ => rfl) kind payload

/-- Closing a segment does not touch the buffer. -/
theorem keeps_batching_roll : Keeps batching roll := keeps_roll (fun _ _ => rfl) fun _ _ => rfl

/-- Appending an encoded batch does not touch the buffer. -/
theorem keeps_batching_appendEncoded (batch : Batch) : Keeps batching (appendEncoded batch) :=
  keeps_get.bind fun _ => (keeps_batching_appendRecord _ _).bind fun _ =>
    Keeps.bind (keeps_modify fun _ => rfl) fun _ => keeps_pure _

/-- An operation on records and segments is one without the buffer. -/
theorem perform_raw {operation : Operation} (raw : operation.isRaw) :
    Blind (perform operation) ∧ Keeps batching (perform operation) := by
  cases operation with
  | appendRecord kind payload =>
    refine ⟨(blind_appendRecord kind payload).map _, ?_⟩
    exact (keeps_batching_appendRecord kind payload).bind fun _ => keeps_pure _
  | roll => exact ⟨blind_roll.map _, keeps_batching_roll.bind fun _ => keeps_pure _⟩
  | writeEntry entry => cases raw
  | appendBatch batch => cases raw
  | flush => cases raw
  | finish => cases raw

/-- What an operation does that begins with the buffer, it does without the buffer afterwards. -/
theorem perform_flushes {operation : Operation} (flushes : operation.flushes) :
    ∃ later : WriterM (Option UInt64), Blind later ∧ Keeps batching later ∧
      perform operation = flush >>= fun _ => later := by
  cases operation with
  | flush => exact ⟨pure none, blind_pure none, keeps_pure none, rfl⟩
  | appendBatch batch =>
    exact ⟨some <$> appendEncoded batch, (blind_appendEncoded batch).map _,
      (keeps_batching_appendEncoded batch).bind fun _ => keeps_pure _, map_bind _ _ _⟩
  | finish =>
    refine ⟨roll >>= fun _ => pure none, blind_roll.bind fun _ => blind_pure none,
      keeps_batching_roll.bind fun _ => keeps_pure none, ?_⟩
    rw [perform, finish, map_bind]
    simp only [map_bind]
    rfl
  | appendRecord kind payload => cases flushes
  | writeEntry entry => cases flushes
  | roll => cases flushes

/-! ## flushing -/

section Flushing

variable {desk : Desk}

/-- An empty buffer is not flushed: no file is touched, and no index is used. -/
theorem flush_of_empty (empty : desk.writer.pending = []) : flush desk = .ok () desk := by
  obtain ⟨w, tree⟩ := desk
  cases w
  cases empty
  rfl

/-- Buffered entries are out of the buffer before they are appended. -/
theorem flush_of_filled (filled : desk.writer.pending ≠ []) :
    flush desk = (appendEncoded ⟨desk.writer.pending⟩ >>= fun _ => pure () : WriterM Unit)
      { desk with writer := { desk.writer with pending := [] } } := by
  cases buffered : desk.writer.pending with
  | nil => exact absurd buffered filled
  | cons entry more =>
    obtain ⟨w, tree⟩ := desk
    cases w
    cases buffered
    rfl

/-- After a flush the buffer is empty, whether or not its entries could be appended. -/
theorem batching_flush (desk : Desk) :
    (finalState (flush desk)).writer.batching = (desk.writer.config, desk.writer.codec, []) := by
  by_cases empty : desk.writer.pending = []
  · rw [flush_of_empty empty, ← empty]
    rfl
  · rw [flush_of_filled empty, finalState_bind_pure]
    exact keeps_batching_appendEncoded _ _

end Flushing

/-! ## between two calls -/

/-- A writer of the given configuration and codec has fewer entries in its buffer than make a batch. -/
structure Waits (config : WriterConfig) (codec : Codec) (w : Writer) : Prop where
  configured : w.config = config
  coded : w.codec = codec
  few : w.pending.length < config.batchLimit

namespace Waits

variable {config : WriterConfig} {codec : Codec} {w w' : Writer} {desk : Desk}

/-- Whether few entries wait is decided by what decides about flushing. -/
theorem of_same (h : Waits config codec w) (same : w'.batching = w.batching) :
    Waits config codec w' := by
  obtain ⟨config', codec', pending⟩ := batching_eq_iff.mp same
  exact ⟨config'.trans h.configured, codec'.trans h.coded, pending ▸ h.few⟩

/-- With an empty buffer there is room for an entry. -/
theorem of_emptied (emptied : w.batching = (config, codec, [])) : Waits config codec w := by
  obtain ⟨config', codec', pending⟩ := batching_eq_iff.mp emptied
  refine ⟨config', codec', ?_⟩
  rw [pending]
  exact Nat.le_max_right _ 1

/-- A flush leaves an empty buffer. -/
theorem flush (h : Waits config codec desk.writer) :
    (finalState (flush desk)).writer.batching = (config, codec, []) := by
  rw [batching_flush, h.configured, h.coded]

/-- A full buffer is flushed before the call returns. -/
theorem writeEntry (h : Waits config codec desk.writer) (entry : Entry) :
    Waits config codec (finalState (writeEntry entry desk)).writer := by
  rw [writeEntry_apply]
  split
  · refine of_emptied ((batching_flush _).trans ?_)
    show (desk.writer.config, desk.writer.codec, []) = _
    rw [h.configured, h.coded]
  · rename_i few
    have limit : (buffering desk entry).writer.config.batchLimit = config.batchLimit :=
      congrArg WriterConfig.batchLimit h.configured
    exact ⟨h.configured, h.coded, limit ▸ Nat.not_le.mp few⟩

/-- **Between two calls** a batch is never full, whether or not the calls succeed. -/
theorem perform (h : Waits config codec desk.writer) (operation : Operation) :
    Waits config codec (finalState (perform operation desk)).writer := by
  by_cases raw : operation.isRaw
  · exact h.of_same ((perform_raw raw).2 desk)
  by_cases flushes : operation.flushes
  · obtain ⟨later, -, keeps, begins⟩ := perform_flushes flushes
    have emptied := h.flush
    rw [begins, bind_apply]
    cases done : Writer.flush desk with
    | error e after =>
      rw [done] at emptied
      exact of_emptied emptied
    | ok u after =>
      rw [done] at emptied
      exact (of_emptied emptied).of_same (keeps after)
  cases operation with
  | writeEntry entry =>
    rw [Writer.perform, finalState_map]
    exact h.writeEntry entry
  | appendRecord kind payload => exact absurd rfl raw
  | roll => exact absurd rfl raw
  | appendBatch batch => exact absurd rfl flushes
  | flush => exact absurd rfl flushes
  | finish => exact absurd rfl flushes

theorem performAll (operations : List Operation) (h : Waits config codec desk.writer) :
    Waits config codec (performAll Writer.perform operations desk).2.writer := by
  induction operations generalizing desk with
  | nil => exact h
  | cons operation rest ih =>
    rw [performAll_cons]
    exact ih (h.perform operation)

end Waits

/-! ## successful runs -/

/-- The operations lead from the one desk to the other, and all of them succeed. -/
inductive Runs : List Operation → Desk → Desk → Prop
  | nil (desk : Desk) : Runs [] desk desk
  | cons {operation : Operation} {rest : List Operation} {desk between after : Desk}
    {index? : Option UInt64} (done : perform operation desk = .ok index? between)
    (runs : Runs rest between after) : Runs (operation :: rest) desk after

/-- A run succeeds if all of its answers are successes; it leads where they leave the desk. -/
theorem runs_iff {operations : List Operation} {desk after : Desk} :
    Runs operations desk after ↔
      (∀ answer ∈ (performAll perform operations desk).1, answer.isOk) ∧
        (performAll perform operations desk).2 = after := by
  constructor
  · intro runs
    induction runs with
    | nil desk => exact ⟨by simp [performAll], rfl⟩
    | cons done runs ih =>
      rw [performAll_of_ok done]
      refine ⟨fun answer mem => ?_, ih.2⟩
      rcases List.mem_cons.mp mem with rfl | mem
      · rfl
      · exact ih.1 answer mem
  · rintro ⟨succeeded, rfl⟩
    induction operations generalizing desk with
    | nil => exact .nil desk
    | cons operation rest ih =>
      cases done : perform operation desk with
      | error e between =>
        rw [performAll_of_error done] at succeeded
        exact absurd (succeeded _ List.mem_cons_self) Bool.false_ne_true
      | ok index? between =>
        rw [performAll_of_ok done] at succeeded ⊢
        exact .cons done (ih fun answer mem => succeeded answer (List.mem_cons_of_mem _ mem))

section Runs

variable {first later : List Operation} {desk between after : Desk}

/-- Successful runs one after the other are a successful run. -/
theorem Runs.append (h : Runs first desk between) (h' : Runs later between after) :
    Runs (first ++ later) desk after := by
  induction h with
  | nil => exact h'
  | cons done _ ih => exact .cons done (ih h')

/-- A successful run may be cut anywhere. -/
theorem Runs.exists_between (h : Runs (first ++ later) desk after) :
    ∃ between, Runs first desk between ∧ Runs later between after := by
  induction first generalizing desk with
  | nil => exact ⟨desk, .nil desk, h⟩
  | cons operation first ih =>
    cases h with
    | cons done runs =>
      obtain ⟨between, runs, runs'⟩ := ih runs
      exact ⟨between, .cons done runs, runs'⟩

end Runs

/-! ## one batch -/

/-- The append of the record of some entries. -/
def appends (codec : Codec) (entries : List Entry) : Operation :=
  .appendRecord .stateMachineData (codec.encode ⟨entries⟩)

/-- What is left makes a batch if it is anything. -/
def leftover (rest : List Entry) : List (List Entry) := if rest = [] then [] else [rest]

section Batch

variable {d after : Desk} {buffer : List Entry} {number : UInt64} {more : Nat}

/-- Appending the record of a batch appends the record of its entries and counts them. -/
theorem of_appendEncoded_ahead {batch : Batch} {index : UInt64}
    (done : appendEncoded batch (ahead [] number more d) = .ok index after) :
    ∃ d', perform (appends d.writer.codec batch.entries) d = .ok (some index) d' ∧
      after = ahead [] number (more + batch.entries.length) d' := by
  obtain ⟨_, _, got, rest⟩ := of_bind_ok done
  cases got
  obtain ⟨_, between, appended, rest⟩ := of_bind_ok rest
  cases rest
  obtain ⟨d', alone, rfl⟩ := (blind_appendRecord _ _).of_ok appended
  refine ⟨d', ?_, ?_⟩
  · show (some <$> appendRecord .stateMachineData (d.writer.codec.encode batch)) d = _
    rw [map_apply]
    have same : appendRecord .stateMachineData (d.writer.codec.encode batch) d = .ok index d' := alone
    rw [same]
  · rw [ahead, ahead]
    simp only
    rw [tickBy_tickBy]

/-- Flushing a buffer with entries appends them as one batch, from a desk whose buffer is empty. -/
theorem flush_ahead_of_filled (filled : buffer ≠ []) (number : UInt64) (more : Nat) (d : Desk) :
    flush (ahead buffer number more d) =
      (appendEncoded ⟨buffer⟩ >>= fun _ => pure () : WriterM Unit) (ahead [] number more d) :=
  flush_of_filled filled

/-- Flushing appends what is left as a batch, if it is anything. -/
theorem of_flush_ahead {u : Unit}
    (done : flush (ahead buffer number more d) = .ok u after) :
    ∃ d', Runs ((leftover buffer).map (appends d.writer.codec)) d d' ∧
      d'.writer.batching = d.writer.batching ∧ after = ahead [] number (more + buffer.length) d' := by
  by_cases empty : buffer = []
  · obtain rfl := empty
    have same : flush (ahead [] number more d) = .ok () (ahead [] number more d) := flush_of_empty rfl
    rw [same] at done
    cases done
    exact ⟨d, .nil d, rfl, rfl⟩
  · rw [flush_ahead_of_filled empty] at done
    obtain ⟨index, between, appended, rest⟩ := of_bind_ok done
    cases rest
    obtain ⟨d', alone, rfl⟩ := of_appendEncoded_ahead appended
    have kept := (perform_raw (rfl : (appends d.writer.codec buffer).isRaw)).2 d
    rw [alone] at kept
    rw [leftover, if_neg empty]
    exact ⟨d', .cons alone (.nil d'), kept, rfl⟩

/-- The call that ends a group appends what is left of it and then does what it does with an empty
buffer. -/
theorem of_ender_ahead {ender : Operation} (flushes : ender.flushes) {index? : Option UInt64}
    (idle : d.writer.pending = []) (done : perform ender (ahead buffer number more d) = .ok index? after) :
    ∃ d' d'', Runs ((leftover buffer).map (appends d.writer.codec)) d d' ∧
      perform ender d' = .ok index? d'' ∧ after = ahead [] number (more + buffer.length) d'' := by
  obtain ⟨later, blind, -, begins⟩ := perform_flushes flushes
  rw [begins] at done
  obtain ⟨_, between, flushed, rest⟩ := of_bind_ok done
  obtain ⟨d', runs, kept, rfl⟩ := of_flush_ahead flushed
  obtain ⟨d'', alone, rfl⟩ := blind.of_ok rest
  have empty : d'.writer.pending = [] := (batching_eq_iff.mp kept).2.2.trans idle
  refine ⟨d', d'', runs, ?_, rfl⟩
  rw [begins, bind_apply, flush_of_empty empty]
  exact alone

end Batch

/-! ## groups -/

/-- The full batches of a group, the operations between the entries and the appends of these batches in
the order in which they are made: performed instead of the group, they lead from the one desk to the other. -/
structure Plan (config : WriterConfig) (codec : Codec) (others : List Operation)
    (full : List (List Entry)) (plan : List Operation) (d d' : Desk) : Prop where
  sizes : ∀ batch ∈ full, batch.length = config.batchLimit
  merges : Merges others (full.map (appends codec)) plan
  runs : Runs plan d d'
  idle : d'.writer.batching = (config, codec, [])

section Groups

variable {config : WriterConfig} {codec : Codec} {d after : Desk}

namespace Plan

variable {others plan : List Operation} {full : List (List Entry)} {d' d'' : Desk}

/-- No operations need no batch. -/
theorem nothing (idle : d.writer.batching = (config, codec, [])) : Plan config codec [] [] [] d d :=
  ⟨fun _ mem => absurd mem List.not_mem_nil, .nil, .nil d, idle⟩

/-- An operation without the buffer is done in its own place. -/
theorem other {operation : Operation} {index? : Option UInt64}
    (alone : perform operation d = .ok index? d') (h : Plan config codec others full plan d' d'') :
    Plan config codec (operation :: others) full (operation :: plan) d d'' :=
  ⟨h.sizes, .left h.merges, .cons alone h.runs, h.idle⟩

/-- A full buffer is a batch of its own in the plan. -/
theorem batch {batch : List Entry} (size : batch.length = config.batchLimit)
    (appended : Runs [appends codec batch] d d') (h : Plan config codec others full plan d' d'') :
    Plan config codec others (batch :: full) (appends codec batch :: plan) d d'' := by
  refine ⟨fun other mem => ?_, .right h.merges, appended.append h.runs, h.idle⟩
  rcases List.mem_cons.mp mem with rfl | mem
  · exact size
  · exact h.sizes other mem

end Plan

/-- A written entry is left in the buffer, or makes a full batch with those before it. -/
theorem of_writeEntry_ahead {buffer : List Entry} {number : UInt64} {more : Nat} {entry : Entry} {u : Unit}
    (idle : d.writer.batching = (config, codec, [])) (few : buffer.length < config.batchLimit)
    (wrote : writeEntry entry (ahead buffer number more d) = .ok u after) :
    let batch := buffer ++ [entry.stamp number]
    (batch.length < config.batchLimit ∧ after = ahead batch (tick number) more d) ∨
      batch.length = config.batchLimit ∧ ∃ d', Runs [appends codec batch] d d' ∧
        d'.writer.batching = (config, codec, []) ∧
        after = ahead [] (tick number) (more + batch.length) d' := by
  intro batch
  obtain ⟨configured, coded, -⟩ := batching_eq_iff.mp idle
  have length : batch.length = buffer.length + 1 := List.length_append
  have buffered : buffering (ahead buffer number more d) entry = ahead batch (tick number) more d := rfl
  have limit : (ahead batch (tick number) more d).writer.config.batchLimit = config.batchLimit :=
    congrArg WriterConfig.batchLimit configured
  have filled : (ahead batch (tick number) more d).writer.pending = batch := rfl
  rw [writeEntry_apply, buffered, limit, filled] at wrote
  split at wrote
  · rename_i full
    obtain ⟨d', runs, kept, rfl⟩ := of_flush_ahead wrote
    rw [leftover, if_neg (List.append_ne_nil_of_right_ne_nil _ (List.cons_ne_nil _ _)), coded] at runs
    exact .inr ⟨by omega, d', runs, kept.trans idle, rfl⟩
  · rename_i room
    cases wrote
    exact .inl ⟨by omega, rfl⟩

/-- **A group is carried out as planned.** A successful group of entries, among which records are appended
and segments are closed, does what these operations do together with the appends of full batches, but that
entries are left in the buffer and numbers are used. -/
theorem exists_plan {group : List Operation} (grouped : ∀ op ∈ group, op.isWrite ∨ op.isRaw)
    {buffer : List Entry} {number : UInt64} {more : Nat} (idle : d.writer.batching = (config, codec, []))
    (few : buffer.length < config.batchLimit) (runs : Runs group (ahead buffer number more d) after) :
    ∃ full rest plan d', Plan config codec (group.filter Operation.isRaw) full plan d d' ∧
      full.flatten ++ rest = buffer ++ Operation.stamped number group ∧
      rest.length < config.batchLimit ∧
      after = ahead rest (tickBy number (group.countP Operation.isWrite))
        (more + full.flatten.length) d' := by
  -- on the group; the buffer is what its entries so far leave over
  induction group generalizing d buffer number more with
  | nil =>
    cases runs
    refine ⟨[], buffer, [], d, .nothing idle, (List.append_nil buffer).symm, few, ?_⟩
    rw [List.countP_nil, tickBy_zero]
    rfl
  | cons operation group ih =>
    have later : ∀ op ∈ group, op.isWrite ∨ op.isRaw :=
      fun op mem => grouped op (List.mem_cons_of_mem _ mem)
    cases runs with
    | cons done runs =>
      by_cases raw : operation.isRaw
      · obtain ⟨d', alone, rfl⟩ := (perform_raw raw).1.of_ok done
        have kept := (perform_raw raw).2 d
        rw [alone] at kept
        obtain ⟨full, rest, plan, d'', planned, split, few', rfl⟩ := ih later (kept.trans idle) few runs
        rw [List.filter_cons_of_pos raw, Operation.stamped_of_raw raw,
          List.countP_cons_of_neg (by rw [Operation.isWrite_of_raw raw]; exact Bool.false_ne_true)]
        exact ⟨full, rest, operation :: plan, d'', planned.other alone, split, few', rfl⟩
      · cases operation with
        | writeEntry entry =>
          obtain ⟨_, wrote, -⟩ := of_map_ok done
          rw [Operation.stamped, List.countP_cons_of_pos rfl, Nat.add_comm, ← tickBy_tickBy,
            tickBy_one, List.filter_cons_of_neg raw]
          rcases of_writeEntry_ahead idle few wrote with ⟨few', rfl⟩ | ⟨size, d', appended, idle', rfl⟩
          · obtain ⟨full, rest, plan, d', planned, split, few'', rfl⟩ := ih later idle few' runs
            refine ⟨full, rest, plan, d', planned, ?_, few'', rfl⟩
            rw [split, List.append_assoc]
            rfl
          · obtain ⟨full, rest, plan, d'', planned, split, few'', rfl⟩ :=
              ih later idle' (Nat.lt_of_le_of_lt (Nat.zero_le _) few) runs
            refine ⟨_, rest, _, d'', planned.batch size appended, ?_, few'', ?_⟩
            · rw [List.flatten_cons, List.append_assoc, split, List.append_assoc]
              rfl
            · rw [List.flatten_cons, Nat.add_assoc, ← List.length_append]
        | _ =>
          have entry := (grouped _ List.mem_cons_self).resolve_right raw
          cases entry

end Groups

/-! ## full and last batches -/

section Cut

variable {full : List (List Entry)} {rest : List Entry} {limit : Nat}

/-- The last batch has what is left. -/
theorem flatten_leftover (rest : List Entry) : (leftover rest).flatten = rest := by
  rw [leftover]
  split
  · rename_i empty
    exact empty.symm
  · exact List.append_nil rest

/-- Full batches have as many entries as their number times the limit. -/
theorem length_flatten_of_sizes (sizes : ∀ batch ∈ full, batch.length = limit) :
    full.flatten.length = full.length * limit := by
  rw [List.length_flatten, List.map_congr_left sizes, List.map_const',
    List.sum_replicate_nat]

/-- There is one more batch than full ones, unless nothing is left. -/
theorem length_cut (sizes : ∀ batch ∈ full, batch.length = limit) (few : rest.length < limit) :
    (full ++ leftover rest).length = ((full.flatten ++ rest).length + limit - 1) / limit := by
  rw [List.length_append, List.length_append, length_flatten_of_sizes sizes]
  generalize full.length = count
  by_cases empty : rest = []
  · have upTo : (count * limit + limit - 1) / limit = count :=
      Nat.div_eq_of_lt_le (by omega) (by rw [Nat.succ_mul]; omega)
    rw [empty, leftover, if_pos rfl, List.length_nil, List.length_nil, Nat.add_zero, Nat.add_zero, upTo]
  · have some : 0 < rest.length := List.length_pos_iff.mpr empty
    have upTo : (count * limit + rest.length + limit - 1) / limit = count + 1 :=
      Nat.div_eq_of_lt_le (by rw [Nat.succ_mul]; omega) (by rw [Nat.succ_mul, Nat.succ_mul]; omega)
    rw [leftover, if_neg empty, upTo, List.length_singleton]

/-- Every batch but the last is a full one. -/
theorem mem_full_of_mem_dropLast {batch : List Entry} (mem : batch ∈ (full ++ leftover rest).dropLast) :
    batch ∈ full := by
  rw [leftover] at mem
  split at mem
  · rw [List.append_nil] at mem
    exact List.dropLast_subset full mem
  · rwa [List.dropLast_concat] at mem

/-- No batch is empty, and none is larger than the limit. -/
theorem size_of_mem (sizes : ∀ batch ∈ full, batch.length = limit) (few : rest.length < limit)
    {batch : List Entry} (mem : batch ∈ full ++ leftover rest) : batch ≠ [] ∧ batch.length ≤ limit := by
  rcases List.mem_append.mp mem with mem | mem
  · have size := sizes batch mem
    exact ⟨List.ne_nil_of_length_pos (by omega), size.le⟩
  · rw [leftover] at mem
    split at mem
    · cases mem
    · rename_i filled
      obtain rfl := List.mem_singleton.mp mem
      exact ⟨filled, few.le⟩

end Cut

/-! ## exact batches -/

/-- The entries of a group, numbered from the given one on, in batches, as few as there can be: all but
the last are full, and none is empty. The appends of the batches stand in the plan among the other
operations of the group. -/
structure Batched (config : WriterConfig) (codec : Codec) (number : UInt64) (group : List Operation)
    (batches : List (List Entry)) (plan : List Operation) : Prop where
  whole : batches.flatten = Operation.stamped number group
  count : batches.length =
    (group.countP Operation.isWrite + config.batchLimit - 1) / config.batchLimit
  full : ∀ batch ∈ batches.dropLast, batch.length = config.batchLimit
  sized : ∀ batch ∈ batches, batch ≠ [] ∧ batch.length ≤ config.batchLimit
  merges : Merges (group.filter Operation.isRaw) (batches.map (appends codec)) plan

section Exact

variable {config : WriterConfig} {codec : Codec}

/-- What is left over by a plan for full batches makes the last batch. -/
theorem Plan.batched {group plan : List Operation} {full : List (List Entry)} {rest : List Entry}
    {number : UInt64} {d d' : Desk} (h : Plan config codec (group.filter Operation.isRaw) full plan d d')
    (few : rest.length < config.batchLimit) (split : full.flatten ++ rest = Operation.stamped number group) :
    Batched config codec number group (full ++ leftover rest)
      (plan ++ (leftover rest).map (appends codec)) where
  whole := by rw [List.flatten_append, flatten_leftover, split]
  count := by rw [length_cut h.sizes few, split, Operation.length_stamped]
  full batch mem := h.sizes batch (mem_full_of_mem_dropLast mem)
  sized _ mem := size_of_mem h.sizes few mem
  merges := by
    rw [List.map_append]
    exact h.merges.append_right _

/-- A group that begins with an empty buffer and is ended by a call that flushes does what the appends of
its batches do, but that the entries are numbered and counted. -/
theorem exists_batched {desk after : Desk} (waits : Waits config codec desk.writer)
    (idle : desk.writer.pending = []) {group : List Operation}
    (grouped : ∀ op ∈ group, op.isWrite ∨ op.isRaw) {ender : Operation} (flushes : ender.flushes)
    (runs : Runs (group ++ [ender]) desk after) :
    ∃ batches plan d, Batched config codec desk.writer.nextSequenceNumber group batches plan ∧
      Runs (plan ++ [ender]) desk d ∧
      after = ahead [] (tickBy desk.writer.nextSequenceNumber (group.countP Operation.isWrite))
        (group.countP Operation.isWrite) d := by
  have start : desk = ahead [] desk.writer.nextSequenceNumber 0 desk := by
    rw [ahead, tickBy_zero, ← idle]
  have emptied : desk.writer.batching = (config, codec, []) :=
    batching_eq_iff.mpr ⟨waits.configured, waits.coded, idle⟩
  obtain ⟨between, first, last⟩ := runs.exists_between
  rw [start] at first
  obtain ⟨full, rest, plan, d, planned, split, few, rfl⟩ :=
    exists_plan grouped emptied (idle ▸ waits.few) first
  rw [List.nil_append] at split
  have all : full.flatten.length + rest.length = group.countP Operation.isWrite := by
    rw [← List.length_append, split, Operation.length_stamped]
  cases last with
  | cons done nothing =>
    cases nothing
    obtain ⟨-, coded, empty⟩ := batching_eq_iff.mp planned.idle
    obtain ⟨d', d'', appended, alone, rfl⟩ := of_ender_ahead flushes empty done
    rw [coded] at appended
    refine ⟨_, _, d'', planned.batched few split,
      (planned.runs.append appended).append (.cons alone (.nil d'')), ?_⟩
    rw [Nat.zero_add, all]

/-- **Batching is exact.** Whatever has been done to a new writer, with or without success, its buffer
holds fewer entries than make a batch. When it is empty, a flush does nothing at all. Then a group of
entries, with operations on records and segments in between, that is ended by a call that flushes is
`Batched` if all calls are successful: the desk is left as by its plan, in which each batch is appended
as one record and which is successful as well, but that the entries have been numbered and counted. -/
theorem batching_exact {tree made : FileTree} {root : String} {w : Writer}
    (created : create tree root config codec = (.ok w, made)) (before : List Operation) :
    let desk := (performAll perform before ⟨w, made⟩).2
    let number := desk.writer.nextSequenceNumber
    desk.writer.pending.length < config.batchLimit ∧
      (desk.writer.pending = [] →
        flush desk = .ok () desk ∧
        ∀ (group : List Operation) (ender : Operation), (∀ op ∈ group, op.isWrite ∨ op.isRaw) →
          ender.flushes → (∀ answer ∈ (performAll perform (group ++ [ender]) desk).1, answer.isOk) →
          ∃ batches plan, Batched config codec number group batches plan ∧
            (∀ answer ∈ (performAll perform (plan ++ [ender]) desk).1, answer.isOk) ∧
            (performAll perform (group ++ [ender]) desk).2 =
              ahead [] (tickBy number (group.countP Operation.isWrite)) (group.countP Operation.isWrite)
                (performAll perform (plan ++ [ender]) desk).2) := by
  intro desk number
  obtain ⟨dir, -, -, -, rfl⟩ := of_create created
  have waits : Waits config codec desk.writer := Waits.performAll before (.of_emptied rfl)
  refine ⟨waits.few, fun idle => ⟨flush_of_empty idle, fun group ender grouped flushes succeeded => ?_⟩⟩
  obtain ⟨batches, plan, d, batched, runs, final⟩ :=
    exists_batched waits idle grouped flushes (runs_iff.mpr ⟨succeeded, rfl⟩)
  obtain ⟨planned, rfl⟩ := runs_iff.mp runs
  exact ⟨batches, plan, batched, planned, final⟩

end Exact

/-- Batches of two entries. -/
def pairConfig : WriterConfig := ⟨.defaultGroup, 160, 2, 3, 5, 7⟩

/-- A writer with such batches after one of them. -/
def pairDesk : Desk :=
  (performAll perform [.writeEntry ⟨none, none⟩, .writeEntry ⟨none, none⟩]
    (freshDesk "j" pairConfig .packed)).2

/-- Three entries with a record in between. -/
def threeWithRecord : List Operation :=
  [.writeEntry ⟨none, none⟩, .appendRecord .metadata [1], .writeEntry ⟨some 4, none⟩,
    .writeEntry ⟨none, none⟩]

/-- Three entries more make one full batch and a batch with one entry, numbered from 9 to 11. -/
theorem batching_exact_of_three :
    create .empty "j" pairConfig .packed =
      (.ok (freshDesk "j" pairConfig .packed).writer, (freshDesk "j" pairConfig .packed).tree) ∧
    pairDesk.writer.pending = [] ∧ flush pairDesk = .ok () pairDesk ∧
    (∀ op ∈ threeWithRecord, op.isWrite ∨ op.isRaw) ∧
    (∀ answer ∈ (performAll perform (threeWithRecord ++ [.finish]) pairDesk).1, answer.isOk) ∧
    ∃ batches plan,
      batches.flatten = [⟨some 9, none⟩, ⟨some 10, none⟩, ⟨some 11, none⟩] ∧ batches.length = 2 ∧
      Batched pairConfig .packed 9 threeWithRecord batches plan ∧
      (∀ answer ∈ (performAll perform (plan ++ [.finish]) pairDesk).1, answer.isOk) ∧
      (performAll perform (threeWithRecord ++ [.finish]) pairDesk).2 =
        ahead [] 12 3 (performAll perform (plan ++ [.finish]) pairDesk).2 := by
  have created : create .empty "j" pairConfig .packed =
      (.ok (freshDesk "j" pairConfig .packed).writer, (freshDesk "j" pairConfig .packed).tree) := by
    decide +kernel
  have idle : pairDesk.writer.pending = [] := by decide +kernel
  have number : pairDesk.writer.nextSequenceNumber = 9 := by decide +kernel
  have grouped : ∀ op ∈ threeWithRecord, op.isWrite ∨ op.isRaw := by decide
  have succeeded : ∀ answer ∈ (performAll perform (threeWithRecord ++ [.finish]) pairDesk).1,
      answer.isOk := by decide +kernel
  obtain ⟨-, emptied⟩ := batching_exact created [.writeEntry ⟨none, none⟩, .writeEntry ⟨none, none⟩]
  obtain ⟨nothing, groups⟩ := emptied idle
  obtain ⟨batches, plan, batched, planned, final⟩ :=
    groups threeWithRecord .finish grouped rfl succeeded
  change Batched _ _ pairDesk.writer.nextSequenceNumber _ _ _ at batched
  rw [number] at batched
  refine ⟨created, idle, nothing, grouped, succeeded, batches, plan, batched.whole, batched.count,
    batched, planned, final.trans ?_⟩
  show ahead [] (tickBy pairDesk.writer.nextSequenceNumber 3) 3 _ = _
  rw [number]
  rfl

end Writer

end RaftJournal
