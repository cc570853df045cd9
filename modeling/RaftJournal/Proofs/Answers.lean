/-! # The answers to repeated calls

A stream is asked again and again, and every call leaves it in a new state. **`answers`** lists what
the first calls give and **`stateAfter`** is the state that they leave. A state **`Gives`** some items
and perhaps a fault when the calls hand out the items in order, then the fault once, and then nothing
more, however often they are made.

That a state gives something is shown by a simulation (**`Gives.of_simulation`**): a relation between
states and what is still due, which one call takes to what is due afterwards. Conversely one call
takes the head off what a state gives (`gives_cons_iff`, `gives_fault_iff`, `gives_nil_iff`). -/

namespace RaftJournal

universe u v

section Answers

variable {σ : Type u} {α : Type v} {next : σ → α × σ} {s : σ}

/-- The answers to so many calls, each made in the state that the one before left. -/
def answers (next : σ → α × σ) : (count : Nat) → σ → List α
  | 0, _ => []
  | count + 1, s => (next s).1 :: answers next count (next s).2

/-- The state after so many calls. -/
def stateAfter (next : σ → α × σ) : (count : Nat) → σ → σ
  | 0, s => s
  | count + 1, s => stateAfter next count (next s).2

/-- There is one answer to each call. -/
theorem length_answers (next : σ → α × σ) (count : Nat) (s : σ) :
    (answers next count s).length = count := by
  induction count generalizing s with
  | zero => rfl
  | succ count ih => rw [answers, List.length_cons, ih]

/-- More calls are made in the state that the others left. -/
theorem answers_add (next : σ → α × σ) (count more : Nat) (s : σ) :
    answers next (count + more) s =
      answers next count s ++ answers next more (stateAfter next count s) := by
  induction count generalizing s with
  | zero => rw [Nat.zero_add, answers, List.nil_append, stateAfter]
  | succ count ih => rw [Nat.succ_add, answers, ih, answers, List.cons_append, stateAfter]

/-- More calls start where the others have ended. -/
theorem stateAfter_add (next : σ → α × σ) (count more : Nat) (s : σ) :
    stateAfter next (count + more) s = stateAfter next more (stateAfter next count s) := by
  induction count generalizing s with
  | zero => rw [Nat.zero_add, stateAfter]
  | succ count ih => rw [Nat.succ_add, stateAfter, ih, stateAfter]

/-- Longer and longer runs of answers agree with a sequence exactly if the first answer does and
those after it do. -/
theorem forall_answers_iff {a : α} {more : Nat → List α} (sequence : Nat → List α)
    (zero : sequence 0 = []) (succ : ∀ count, sequence (count + 1) = a :: more count) :
    (∀ count, answers next count s = sequence count) ↔
      (next s).1 = a ∧ ∀ count, answers next count (next s).2 = more count := by
  constructor
  · intro h
    have step (count : Nat) : (next s).1 :: answers next count (next s).2 = a :: more count := by
      rw [← succ count, ← h (count + 1), answers]
    exact ⟨(List.cons.inj (step 0)).1, fun count => (List.cons.inj (step count)).2⟩
  · rintro ⟨head, tail⟩ count
    cases count with
    | zero => rw [zero, answers]
    | succ count => rw [succ, answers, head, tail count]

end Answers

section Gives

variable {σ : Type u} {α ε : Type}

/-- The first answers of a stream that hands out some items, then a fault, if there is one, and then
nothing more. -/
def script : (items : List α) → (fault : Option ε) → (count : Nat) → List (Except ε (Option α))
  | _, _, 0 => []
  | a :: items, fault, count + 1 => .ok (some a) :: script items fault count
  | [], some e, count + 1 => .error e :: script [] none count
  | [], none, count + 1 => .ok none :: script [] none count

/-- The state hands out the items, then the fault, if there is one, and then nothing more. -/
def Gives (next : σ → Except ε (Option α) × σ) (items : List α) (fault : Option ε) (s : σ) : Prop :=
  ∀ count, answers next count s = script items fault count

/-- The items among some answers. -/
def delivered : List (Except ε (Option α)) → List α
  | [] => []
  | .ok (some a) :: more => a :: delivered more
  | .ok none :: more => delivered more
  | .error _ :: more => delivered more

@[simp] theorem delivered_nil : delivered ([] : List (Except ε (Option α))) = [] := by
  rw [delivered]

theorem delivered_cons (answer : Except ε (Option α)) (more : List (Except ε (Option α))) :
    delivered (answer :: more) = delivered [answer] ++ delivered more := by
  rcases answer with e | (_ | a) <;> simp [delivered]

/-- The items among some answers and others are those among the first and then those among the
others. -/
theorem delivered_append (first more : List (Except ε (Option α))) :
    delivered (first ++ more) = delivered first ++ delivered more := by
  induction first with
  | nil => rw [List.nil_append, delivered_nil, List.nil_append]
  | cons answer first ih =>
    rw [List.cons_append, delivered_cons, ih, delivered_cons answer first, List.append_assoc]

/-- No call hands out more than one item. -/
theorem length_delivered_le (given : List (Except ε (Option α))) :
    (delivered given).length ≤ given.length := by
  induction given with
  | nil => exact Nat.le_of_eq (congrArg List.length delivered_nil)
  | cons answer more ih =>
    rw [delivered_cons, List.length_append, List.length_cons]
    rcases answer with e | - | a
    all_goals
      simp only [delivered, List.length_cons, List.length_nil]
      omega

/-- The faults among some answers. -/
def faults : List (Except ε (Option α)) → List ε
  | [] => []
  | .ok _ :: more => faults more
  | .error e :: more => e :: faults more

/-- The faults among some answers and others are those among the first and then those among the
others. -/
theorem faults_append (first more : List (Except ε (Option α))) :
    faults (first ++ more) = faults first ++ faults more := by
  induction first with
  | nil => rfl
  | cons answer first ih =>
    cases answer with
    | error e => rw [List.cons_append, faults, ih, faults, List.cons_append]
    | ok item => rw [List.cons_append, faults, ih, faults]

variable {next : σ → Except ε (Option α) × σ} {s : σ}

@[simp] theorem script_zero (items : List α) (fault : Option ε) : script items fault 0 = [] := by
  rw [script]

/-- An item is due just when the next call hands it out and the others are due behind it. -/
theorem gives_cons_iff {a : α} {items : List α} {fault : Option ε} :
    Gives next (a :: items) fault s ↔
      (next s).1 = .ok (some a) ∧ Gives next items fault (next s).2 :=
  forall_answers_iff (script (a :: items) fault) (script_zero _ _) fun _ => by rw [script]

/-- A fault is due just when the next call raises it and nothing is due behind it. -/
theorem gives_fault_iff {e : ε} :
    Gives next [] (some e) s ↔ (next s).1 = .error e ∧ Gives next [] none (next s).2 :=
  forall_answers_iff (script [] (some e)) (script_zero _ _) fun _ => by rw [script]

/-- Nothing is due just when the next call hands out nothing and nothing is due behind it. -/
theorem gives_nil_iff :
    Gives next [] none s ↔ (next s).1 = .ok none ∧ Gives next [] none (next s).2 :=
  forall_answers_iff (script [] none) (script_zero _ _) fun _ => by rw [script]

/-- A call takes the head off what is given. -/
theorem Gives.step {items : List α} (h : Gives next items none s) :
    (next s).1 = .ok items.head? ∧ Gives next items.tail none (next s).2 := by
  cases items with
  | nil => exact gives_nil_iff.mp h
  | cons a items => exact gives_cons_iff.mp h

/-- The items among the first answers are the first items. -/
theorem delivered_script (items : List α) (fault : Option ε) (count : Nat) :
    delivered (script items fault count) = items.take count := by
  induction count generalizing items fault with
  | zero => rw [script_zero, delivered_nil, List.take_zero]
  | succ count ih =>
    match items, fault with
    | a :: items, fault => rw [script, delivered, ih, List.take_succ_cons]
    | [], some e => rw [script, delivered, ih, List.take_nil, List.take_nil]
    | [], none => rw [script, delivered, ih, List.take_nil, List.take_nil]

/-- So many calls hand out so many of the items, or all of them. -/
theorem Gives.delivered_answers {items : List α} {fault : Option ε} (h : Gives next items fault s)
    (count : Nat) : delivered (answers next count s) = items.take count := by
  rw [h count, delivered_script]

/-- After some calls the rest of the items are due. -/
theorem Gives.after {items : List α} (h : Gives next items none s) (count : Nat) :
    Gives next (items.drop count) none (stateAfter next count s) := by
  induction count generalizing s items with
  | zero => exact h
  | succ count ih =>
    have left := ih h.step.2
    rwa [List.drop_tail] at left

/-- Once a state has answered without an item, it hands out nothing more. -/
def Fused (next : σ → Except ε (Option α) × σ) (s : σ) : Prop :=
  ∀ count, (∀ a, (next (stateAfter next count s)).1 ≠ .ok (some a)) →
    Gives next [] none (stateAfter next (count + 1) s)

/-- What gives some items, and perhaps a fault, hands out nothing after these. -/
theorem Gives.fused {items : List α} {fault : Option ε} (h : Gives next items fault s) :
    Fused next s := by
  intro count
  -- on the calls before; the first of them takes the head off what is given
  induction count generalizing s items fault with
  | zero =>
    intro without
    match items, fault, h with
    | a :: _, _, h => exact absurd (gives_cons_iff.mp h).1 (without a)
    | [], some _, h => exact (gives_fault_iff.mp h).2
    | [], none, h => exact (gives_nil_iff.mp h).2
  | succ count ih =>
    match items, fault, h with
    | _ :: _, _, h => exact ih (gives_cons_iff.mp h).2
    | [], some _, h => exact ih (gives_fault_iff.mp h).2
    | [], none, h => exact ih (gives_nil_iff.mp h).2

/-- A relation between states and what is due is enough, if one call hands out what comes first and
leaves a state in relation to the rest. -/
theorem Gives.of_simulation (Due : σ → List α → Option ε → Prop)
    (item : ∀ s a items fault, Due s (a :: items) fault →
      (next s).1 = .ok (some a) ∧ Due (next s).2 items fault)
    (fails : ∀ s e, Due s [] (some e) → (next s).1 = .error e ∧ Due (next s).2 [] none)
    (ends : ∀ s, Due s [] none → (next s).1 = .ok none ∧ Due (next s).2 [] none)
    {items : List α} {fault : Option ε} (h : Due s items fault) : Gives next items fault s := by
  intro count
  -- The number of calls is what shrinks: a stream that has ended still answers.
  induction count generalizing s items fault with
  | zero => rw [answers, script_zero]
  | succ count ih =>
    match items, fault, h with
    | a :: items, fault, h =>
      obtain ⟨head, due⟩ := item s a items fault h
      rw [answers, script, head, ih due]
    | [], some e, h =>
      obtain ⟨head, due⟩ := fails s e h
      rw [answers, script, head, ih due]
    | [], none, h =>
      obtain ⟨head, due⟩ := ends s h
      rw [answers, script, head, ih due]

/-- The answer hands out what comes first, and the state that it leaves is due the rest. -/
def Hands (Due : σ → List α → Option ε → Prop) (result : Except ε (Option α) × σ) :
    List α → Option ε → Prop
  | a :: items, fault => result.1 = .ok (some a) ∧ Due result.2 items fault
  | [], some e => result.1 = .error e ∧ Due result.2 [] none
  | [], none => result.1 = .ok none ∧ Due result.2 [] none

/-- A simulation whose step is stated once for everything that may be due. -/
theorem Gives.of_hands (Due : σ → List α → Option ε → Prop)
    (step : ∀ s items fault, Due s items fault → Hands Due (next s) items fault)
    {items : List α} {fault : Option ε} (h : Due s items fault) : Gives next items fault s :=
  of_simulation Due (fun s _ _ _ due => step s _ _ due) (fun s _ due => step s _ _ due)
    (fun s due => step s _ _ due) h

end Gives

end RaftJournal
