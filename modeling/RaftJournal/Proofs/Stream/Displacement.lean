import Mathlib.Data.Set.Finite.Basic
import RaftJournal.Proofs.Counters
import RaftJournal.Proofs.Stream.Reordering
import RaftJournal.Proofs.Stream.Rounds

/-! # Where a disruptor puts each entry

The positions at which entries are held back, **`holds`**, are decided from the left: an entry of the target
type is held unless it comes within the step of one held before. From them follows the position at which
each entry comes out, **`place`**: a held one as many positions later as the step says, or last, one that
goes by it a position earlier, and any other where it was.

The blocks of **`reorder`** begin at these positions (**`holds_cons_target`**, **`holds_cons_other`**), so
the order in which a disruptor hands out its entries puts them in these places
(**`getElem?_reorder_place`**), and its counters tell how many there are (**`Disruptor.accounted_stateAfter`**).
**`Disruptor.gives_displaced`** is the law for whole runs. -/

namespace RaftJournal

/-! ## positions -/

/-- The positions below a bound at which entries are held back: an entry of the target type is held if it
comes more than the step behind every entry held before it. -/
def holdsBelow (target : EntryType) (step : Nat) (entries : List Entry) : (bound : Nat) → List Nat
  | 0 => []
  | bound + 1 =>
    let earlier := holdsBelow target step entries bound
    if (entries[bound]?.any fun entry => entry.type = target) ∧ ∀ hold ∈ earlier, hold + step < bound
    then earlier ++ [bound]
    else earlier

/-- The positions at which entries are held back. -/
def holds (target : EntryType) (step : Nat) (entries : List Entry) : List Nat :=
  holdsBelow target step entries entries.length

/-- The position at which an entry comes out, of so many, when entries are held at these positions. -/
def place (step length : Nat) (holds : List Nat) (position : Nat) : Nat :=
  if position ∈ holds then min (position + step) (length - 1)
  else if ∃ hold ∈ holds, hold < position ∧ position ≤ hold + step then position - 1
  else position

section Holds

variable {target : EntryType} {step : Nat} {entries rest : List Entry} {entry : Entry}

/-- The next position is a hold if its entry has the type and no hold before it still lasts. -/
theorem mem_holdsBelow_succ_iff {bound position : Nat} :
    position ∈ holdsBelow target step entries (bound + 1) ↔
      position ∈ holdsBelow target step entries bound ∨
        position = bound ∧ (entries[bound]?.any fun entry => entry.type = target) ∧
          ∀ hold ∈ holdsBelow target step entries bound, hold + step < bound := by
  rw [holdsBelow]
  split
  · rename_i held
    rw [List.mem_append, List.mem_singleton]
    exact or_congr_right ⟨fun same => ⟨same, held⟩, And.left⟩
  · rename_i passed
    exact ⟨.inl, fun either => either.resolve_right fun held => passed held.2⟩

/-- Holds below a bound are below it. -/
theorem lt_of_mem_holdsBelow {bound position : Nat}
    (mem : position ∈ holdsBelow target step entries bound) : position < bound := by
  induction bound with
  | zero => cases mem
  | succ bound ih =>
    obtain earlier | ⟨rfl, -⟩ := mem_holdsBelow_succ_iff.mp mem
    · exact Nat.lt_succ_of_lt (ih earlier)
    · exact Nat.lt_succ_self _

/-- An entry below the bound is held exactly if it is of the target type and comes more than the step
behind every one held before it. -/
theorem mem_holdsBelow_iff {bound position : Nat} :
    position ∈ holdsBelow target step entries bound ↔
      position < bound ∧ (entries[position]?.any fun entry => entry.type = target) ∧
        ∀ hold ∈ holdsBelow target step entries bound, hold < position → hold + step < position := by
  -- on the bound; what is held at the bound comes behind every position below it, so it bars none of them
  induction bound with
  | zero => exact ⟨nofun, fun ⟨below, _⟩ => absurd below (Nat.not_lt_zero _)⟩
  | succ bound ih =>
    constructor
    · intro mem
      refine ⟨lt_of_mem_holdsBelow mem, ?_⟩
      obtain earlier | ⟨rfl, found, apart⟩ := mem_holdsBelow_succ_iff.mp mem
      · obtain ⟨below, found, apart⟩ := ih.mp earlier
        refine ⟨found, fun hold held before => ?_⟩
        obtain held | ⟨rfl, -⟩ := mem_holdsBelow_succ_iff.mp held
        · exact apart hold held before
        · omega
      · refine ⟨found, fun hold held before => ?_⟩
        obtain held | ⟨rfl, -⟩ := mem_holdsBelow_succ_iff.mp held
        · exact apart hold held
        · omega
    · rintro ⟨below, found, apart⟩
      rw [mem_holdsBelow_succ_iff]
      by_cases last : position = bound
      · subst last
        exact .inr ⟨rfl, found, fun hold held =>
          apart hold (mem_holdsBelow_succ_iff.mpr (.inl held)) (lt_of_mem_holdsBelow held)⟩
      · exact .inl (ih.mpr ⟨by omega, found, fun hold held =>
          apart hold (mem_holdsBelow_succ_iff.mpr (.inl held))⟩)

/-- **Which entries are held**: those of the target type that come more than the step behind every one held
before them. -/
theorem mem_holds_iff {position : Nat} :
    position ∈ holds target step entries ↔
      (∃ entry, entries[position]? = some entry ∧ entry.type = target) ∧
        ∀ hold ∈ holds target step entries, hold < position → hold + step < position := by
  rw [holds, mem_holdsBelow_iff, Option.any_eq_true]
  simp only [decide_eq_true_eq]
  refine ⟨And.right, fun held => ⟨?_, held⟩⟩
  obtain ⟨entry, found, -⟩ := held.1
  exact (List.getElem?_eq_some_iff.mp found).1

/-- Holds are listed in the order of their positions. -/
theorem pairwise_holdsBelow (target : EntryType) (step : Nat) (entries : List Entry) (bound : Nat) :
    (holdsBelow target step entries bound).Pairwise (· < ·) := by
  induction bound with
  | zero => exact .nil
  | succ bound ih =>
    rw [holdsBelow]
    split
    · refine List.pairwise_append.mpr ⟨ih, List.pairwise_singleton _ _, fun hold held last mem => ?_⟩
      rw [List.mem_singleton.mp mem]
      exact lt_of_mem_holdsBelow held
    · exact ih

/-- Behind a bound that no earlier hold reaches the positions are those of the rest of the entries. -/
theorem holdsBelow_add {bound : Nat}
    (closed : ∀ hold ∈ holdsBelow target step entries bound, hold + step < bound) (more : Nat) :
    holdsBelow target step entries (bound + more) =
      holdsBelow target step entries bound ++
        (holdsBelow target step (entries.drop bound) more).map (bound + ·) := by
  induction more with
  | zero => rw [Nat.add_zero, holdsBelow, List.map_nil, List.append_nil]
  | succ more ih =>
    -- the entry behind is held on the one side exactly if it is on the other
    have apart : (∀ hold ∈ holdsBelow target step entries (bound + more), hold + step < bound + more) ↔
        ∀ hold ∈ holdsBelow target step (entries.drop bound) more, hold + step < more := by
      rw [ih, List.forall_mem_append, List.forall_mem_map]
      constructor
      · rintro ⟨-, later⟩ hold held
        have := later hold held
        omega
      · intro later
        refine ⟨fun hold held => ?_, fun hold held => ?_⟩
        · have := closed hold held
          omega
        · have := later hold held
          omega
    rw [← Nat.add_assoc, holdsBelow, holdsBelow]
    simp only [apart, List.getElem?_drop]
    split
    · rw [ih, List.map_append, List.append_assoc]
      rfl
    · exact ih

/-- An entry of another type is not held, and what is held behind it does not depend on it. -/
theorem holds_cons_other (other : entry.type ≠ target) :
    holds target step (entry :: rest) = (holds target step rest).map (1 + ·) := by
  have first : holdsBelow target step (entry :: rest) 1 = [] := by
    simp [holdsBelow, other]
  rw [holds, List.length_cons, Nat.add_comm, holdsBelow_add (by simp [first]), first]
  rfl

/-- An entry of the target type is held at the head, and then the next one may be behind its block. -/
theorem holds_cons_target (held : entry.type = target) :
    holds target step (entry :: rest) =
      0 :: (holds target step (rest.drop step)).map (step + 1 + ·) := by
  have block (more : Nat) (inside : more ≤ step) :
      holdsBelow target step (entry :: rest) (more + 1) = [0] := by
    induction more with
    | zero => simp [holdsBelow, held]
    | succ more ih =>
      rw [holdsBelow]
      simp only [ih (by omega)]
      rw [if_neg]
      rintro ⟨-, apart⟩
      have := apart 0 (List.mem_singleton_self 0)
      omega
  by_cases short : rest.length ≤ step
  · rw [holds, List.length_cons, block _ short, List.drop_eq_nil_of_le short]
    rfl
  · have whole := block step (Nat.le_refl _)
    have length : (entry :: rest).length = step + 1 + (rest.drop step).length := by
      rw [List.length_cons, List.length_drop]
      omega
    rw [holds, length, holdsBelow_add (by simp [whole]), whole]
    rfl

end Holds

/-! ## places -/

section Place

variable {step length j k : Nat} {holds : List Nat}

/-- A held entry is handed out behind so many others, or at the end. -/
theorem place_of_mem (held : j ∈ holds) : place step length holds j = min (j + step) (length - 1) := by
  rw [place, if_pos held]

/-- An entry that passes by a held one is handed out one place earlier. -/
theorem place_of_between {hold : Nat} (passed : j ∉ holds) (held : hold ∈ holds) (before : hold < j)
    (within : j ≤ hold + step) : place step length holds j = j - 1 := by
  rw [place, if_neg passed, if_pos ⟨hold, held, before, within⟩]

/-- Any other entry is handed out in its own place. -/
theorem place_of_apart (passed : j ∉ holds)
    (apart : ∀ hold ∈ holds, hold < j → hold + step < j) : place step length holds j = j := by
  rw [place, if_neg passed, if_neg]
  rintro ⟨hold, held, before, within⟩
  exact Nat.not_lt.mpr within (apart hold held before)

/-- The three cases of a place. -/
theorem place_cases (step length : Nat) (holds : List Nat) (j : Nat) :
    (j ∈ holds ∧ place step length holds j = min (j + step) (length - 1)) ∨
      (j ∉ holds ∧ (∃ hold ∈ holds, hold < j ∧ j ≤ hold + step) ∧ place step length holds j = j - 1) ∨
      (j ∉ holds ∧ (∀ hold ∈ holds, hold < j → hold + step < j) ∧ place step length holds j = j) := by
  by_cases held : j ∈ holds
  · exact .inl ⟨held, place_of_mem held⟩
  · by_cases between : ∃ hold ∈ holds, hold < j ∧ j ≤ hold + step
    · obtain ⟨hold, mem, before, within⟩ := between
      exact .inr (.inl ⟨held, ⟨hold, mem, before, within⟩, place_of_between held mem before within⟩)
    · have apart : ∀ hold ∈ holds, hold < j → hold + step < j := fun hold mem before =>
        Nat.not_le.mp fun within => between ⟨hold, mem, before, within⟩
      exact .inr (.inr ⟨held, apart, place_of_apart held apart⟩)

/-- No entry comes out more than the step too late. -/
theorem place_le (step length : Nat) (holds : List Nat) (j : Nat) :
    place step length holds j ≤ j + step := by
  obtain ⟨-, eq⟩ | ⟨-, -, eq⟩ | ⟨-, -, eq⟩ := place_cases step length holds j <;> omega

/-- No entry comes out more than one position too early. -/
theorem le_place_add_one (step : Nat) (holds : List Nat) (inside : j < length) :
    j ≤ place step length holds j + 1 := by
  obtain ⟨-, eq⟩ | ⟨-, -, eq⟩ | ⟨-, -, eq⟩ := place_cases step length holds j <;> omega

/-- No entry is handed out behind the last place. -/
theorem place_lt (inside : j < length) : place step length holds j < length := by
  obtain ⟨-, eq⟩ | ⟨-, -, eq⟩ | ⟨-, -, eq⟩ := place_cases step length holds j <;> omega

/-- Held entries keep their order, and so do those that are not held. -/
theorem place_lt_place (apart : ∀ h ∈ holds, ∀ h' ∈ holds, h < h' → h + step < h') (less : j < k)
    (inside : k < length) (alike : j ∈ holds ↔ k ∈ holds) :
    place step length holds j < place step length holds k := by
  obtain ⟨held, eq⟩ | ⟨passed, between, eq⟩ | ⟨passed, clear, eq⟩ := place_cases step length holds j
  · have := apart j held k (alike.mp held) less
    rw [eq, place_of_mem (alike.mp held)]
    omega
  · have := le_place_add_one step holds inside
    obtain ⟨hold, mem, before, within⟩ := between
    omega
  · -- the later one may come a position earlier only if an entry is held between them
    obtain ⟨held, -⟩ | ⟨-, ⟨hold, mem, before, within⟩, eq'⟩ | ⟨-, -, eq'⟩ :=
      place_cases step length holds k
    · exact absurd (alike.mpr held) passed
    · by_cases next : hold < j
      · have := clear hold mem next
        omega
      · have : hold ≠ j := fun same => passed (same ▸ mem)
        omega
    · omega

/-- A held entry and one that is not held come out at different places. -/
theorem place_ne_place (apart : ∀ h ∈ holds, ∀ h' ∈ holds, h < h' → h + step < h')
    (inside : j < length) (inside' : k < length) (held : j ∈ holds) (passed : k ∉ holds) :
    place step length holds j ≠ place step length holds k := by
  rw [place_of_mem held]
  obtain ⟨held', -⟩ | ⟨-, ⟨hold, mem, before, within⟩, eq⟩ | ⟨-, clear, eq⟩ :=
    place_cases step length holds k
  · exact absurd held' passed
  · rw [eq]
    -- the held entry comes out at the end of its own window, the other one within its window
    by_cases earlier : j < hold
    · have := apart j held hold mem earlier
      omega
    · omega
  · rw [eq]
    have distinct : j ≠ k := fun same => passed (same ▸ held)
    by_cases earlier : j < k
    · have := clear j held earlier
      omega
    · omega

/-- Every place is that of exactly one entry. -/
theorem bijOn_place (apart : ∀ h ∈ holds, ∀ h' ∈ holds, h < h' → h + step < h') :
    Set.BijOn (place step length holds) (Set.Iio length) (Set.Iio length) := by
  refine ((Set.finite_lt_nat length).injOn_iff_bijOn_of_mapsTo fun j inside => place_lt inside).mp ?_
  intro j inside k inside' same
  by_cases alike : j ∈ holds ↔ k ∈ holds
  · obtain less | eq | less := Nat.lt_trichotomy j k
    · exact absurd same (Nat.ne_of_lt (place_lt_place apart less inside' alike))
    · exact eq
    · exact absurd same (Nat.ne_of_gt (place_lt_place apart less inside alike.symm))
  · by_cases held : j ∈ holds
    · have passed : k ∉ holds := fun held' => alike (iff_of_true held held')
      exact absurd same (place_ne_place apart inside inside' held passed)
    · have held' : k ∈ holds := by
        by_contra passed
        exact alike (iff_of_false held passed)
      exact absurd same.symm (place_ne_place apart inside' inside held' held)

/-- Behind a part that no hold in it reaches beyond, places are those of the rest, moved by its length. -/
theorem place_add {front rest : List Nat} {bound more : Nat}
    (closed : ∀ hold ∈ front, hold + step < bound) (inside : k < more) :
    place step (bound + more) (front ++ rest.map (bound + ·)) (bound + k) =
      bound + place step more rest k := by
  have mem : bound + k ∈ front ++ rest.map (bound + ·) ↔ k ∈ rest := by
    rw [List.mem_append, List.mem_map]
    constructor
    · rintro (held | ⟨hold, held, same⟩)
      · have := closed _ held
        omega
      · exact (Nat.add_left_cancel same) ▸ held
    · exact fun held => .inr ⟨k, held, rfl⟩
  obtain ⟨held, eq⟩ | ⟨passed, ⟨hold, held, before, within⟩, eq⟩ | ⟨passed, clear, eq⟩ :=
    place_cases step more rest k
  · rw [place_of_mem (mem.mpr held), eq]
    omega
  · have held' : bound + hold ∈ front ++ rest.map (bound + ·) :=
      List.mem_append_right _ (List.mem_map_of_mem held)
    rw [place_of_between (fun held => passed (mem.mp held)) held' (by omega) (by omega), eq]
    omega
  · rw [place_of_apart (fun held => passed (mem.mp held)), eq]
    rw [List.forall_mem_append, List.forall_mem_map]
    refine ⟨fun hold held _ => ?_, fun hold held before => ?_⟩
    · have := closed hold held
      omega
    · have := clear hold held (by omega)
      omega

end Place

/-- **Every entry comes out at its place.** -/
theorem getElem?_reorder_place (target : EntryType) (step : Nat) (entries : List Entry) {j : Nat}
    (inside : j < entries.length) :
    (reorder target step entries)[place step entries.length (holds target step entries) j]? =
      entries[j]?.map Entry.clear := by
  -- along the blocks: a position is in the first one or behind it
  induction entries using reorder.induct target step generalizing j with
  | case1 => cases inside
  | case2 entry rest held ih =>
    rw [reorder_cons_target held, holds_cons_target held]
    have window : ((rest.take step).map Entry.clear).length = min step rest.length := by
      rw [List.length_map, List.length_take]
    rw [List.length_cons] at inside ⊢
    obtain rfl | first := Nat.eq_zero_or_pos j
    · rw [place_of_mem List.mem_cons_self, Nat.zero_add, Nat.add_sub_cancel,
        List.getElem?_append_right (by omega), window, Nat.sub_self]
      rfl
    · by_cases within : j ≤ step
      · have passed : j ∉ 0 :: (holds target step (rest.drop step)).map (step + 1 + ·) := by
          rw [List.mem_cons, List.mem_map]
          rintro (zero | ⟨hold, -, same⟩) <;> omega
        rw [place_of_between passed List.mem_cons_self first (by omega),
          List.getElem?_append_left (by omega), List.getElem?_map,
          List.getElem?_take_of_lt (by omega), List.getElem?_cons, if_neg (by omega)]
      · obtain ⟨k, rfl⟩ : ∃ k, j = step + 1 + k := Nat.exists_eq_add_of_le (Nat.not_le.mp within)
        have left : k < (rest.drop step).length := by
          rw [List.length_drop]
          omega
        have length : rest.length + 1 = step + 1 + (rest.drop step).length := by
          rw [List.length_drop]
          omega
        have closed : ∀ hold ∈ [0], hold + step < step + 1 := by simp
        have behind : place step (step + 1 + (rest.drop step).length)
            (0 :: (holds target step (rest.drop step)).map (step + 1 + ·)) (step + 1 + k) =
              step + 1 + place step (rest.drop step).length (holds target step (rest.drop step)) k :=
          place_add closed left
        have index (p : Nat) : step + 1 + p - min step rest.length = p + 1 := by omega
        have source : step + 1 + k = step + k + 1 := by omega
        rw [length, behind, List.getElem?_append_right (by omega), window, index,
          List.getElem?_cons_succ, ih left, List.getElem?_drop, source, List.getElem?_cons_succ]
  | case3 entry rest passed ih =>
    rw [reorder_cons_other passed, holds_cons_other passed]
    obtain rfl | first := Nat.eq_zero_or_pos j
    · rw [place_of_apart (by simp) (by simp)]
      rfl
    · obtain ⟨k, rfl⟩ : ∃ k, j = 1 + k := Nat.exists_eq_add_of_le first
      have left : k < rest.length := by
        rw [List.length_cons] at inside
        omega
      have closed : ∀ hold ∈ ([] : List Nat), hold + step < 1 := by simp
      have behind : place step (1 + rest.length) ((holds target step rest).map (1 + ·)) (1 + k) =
          1 + place step rest.length (holds target step rest) k :=
        place_add closed left
      rw [List.length_cons, Nat.add_comm rest.length, behind, Nat.add_comm 1, Nat.add_comm 1,
        List.getElem?_cons_succ, List.getElem?_cons_succ, ih left]

/-! ## counting -/

/-- The number of entries that are held, and the number of those that come out only because nothing more
follows. -/
def holdings (target : EntryType) (step : Nat) (entries : List Entry) : Nat × Nat :=
  ((holds target step entries).length,
    if ∃ hold ∈ holds target step entries, entries.length - 1 ≤ hold + step then 1 else 0)

section Holdings

variable {target : EntryType} {step : Nat} {rest : List Entry} {entry : Entry}

/-- An entry of another type is not held. -/
theorem holdings_cons_other (other : entry.type ≠ target) :
    holdings target step (entry :: rest) = holdings target step rest := by
  have shifted : (∃ hold ∈ (holds target step rest).map (1 + ·), rest.length + 1 - 1 ≤ hold + step) ↔
      ∃ hold ∈ holds target step rest, rest.length - 1 ≤ hold + step := by
    simp only [List.mem_map, exists_exists_and_eq_and]
    refine exists_congr fun hold => and_congr_right fun _ => ?_
    omega
  rw [holdings, holdings, holds_cons_other other, List.length_map, List.length_cons]
  simp only [shifted]

/-- A block is of one entry that is held, which comes out last if the block is the last one. -/
theorem holdings_cons_target (held : entry.type = target) :
    let behind := if rest.length ≤ step then (0, 1) else holdings target step (rest.drop step)
    holdings target step (entry :: rest) = (behind.1 + 1, behind.2) := by
  intro behind
  rw [holdings, holds_cons_target held, List.length_cons, List.length_cons, List.length_map]
  by_cases short : rest.length ≤ step
  · have last : ∃ hold ∈ 0 :: (holds target step (rest.drop step)).map (step + 1 + ·),
        rest.length + 1 - 1 ≤ hold + step := ⟨0, List.mem_cons_self, by omega⟩
    have alone : behind = (0, 1) := if_pos short
    rw [if_pos last, alone, List.drop_eq_nil_of_le short]
    rfl
  · have shifted : (∃ hold ∈ 0 :: (holds target step (rest.drop step)).map (step + 1 + ·),
        rest.length + 1 - 1 ≤ hold + step) ↔
          ∃ hold ∈ holds target step (rest.drop step), (rest.drop step).length - 1 ≤ hold + step := by
      rw [List.length_drop]
      constructor
      · rintro ⟨hold, mem, last⟩
        obtain rfl | mem := List.mem_cons.mp mem
        · omega
        · obtain ⟨own, held, rfl⟩ := List.mem_map.mp mem
          exact ⟨own, held, by omega⟩
      · rintro ⟨hold, mem, last⟩
        exact ⟨step + 1 + hold, List.mem_cons_of_mem _ (List.mem_map_of_mem mem), by omega⟩
    have others : behind = holdings target step (rest.drop step) := if_neg short
    rw [others, holdings]
    simp only [shifted]

end Holdings

namespace Disruptor

variable {σ : Type} {source : σ → Pulled × σ} {d d' : Disruptor σ} {s : σ} {config : DisruptorConfig}
  {entry : Entry} {rest rest' : List Entry} {asked taken given now : List Pulled} {pulled : Pulled}

/-- The entries that a disruptor will still hold, and those that it will hand out only at the end, while an
entry is held or none is and these entries have not been taken. -/
def ahead (config : DisruptorConfig) (held : Option Held) (rest : List Entry) : Nat × Nat :=
  match held with
  | none => holdings config.target config.step.toNat rest
  | some held =>
    if rest.length ≤ held.steps.toNat then (0, 1)
    else holdings config.target config.step.toNat (rest.drop held.steps.toNat)

/-- While none is held, an entry of another type changes nothing of what lies ahead. -/
theorem ahead_other (other : entry.type ≠ config.target) :
    ahead config none (entry :: rest) = ahead config none rest :=
  holdings_cons_other other

/-- An entry of the type is held from here on. -/
theorem ahead_hold (held : entry.type = config.target) :
    ahead config none (entry :: rest) =
      ((ahead config (some ⟨entry, config.step⟩) rest).1 + 1,
        (ahead config (some ⟨entry, config.step⟩) rest).2) :=
  holdings_cons_target held

/-- While one is held, every further entry is one step. -/
theorem ahead_held_succ {held : Held} (going : 0 < held.steps) :
    ahead config (some held) (entry :: rest) =
      ahead config (some { held with steps := held.steps - 1 }) rest := by
  rw [ahead, ahead, toNat_steps going, List.length_cons, List.drop_succ_cons]
  simp only [Nat.add_le_add_iff_right]

/-- A hold that has lasted changes nothing of what lies ahead. -/
theorem ahead_held_zero {held : Held} (due : held.steps = 0) :
    ahead config (some held) (entry :: rest) = ahead config none (entry :: rest) := by
  have more : ¬ (entry :: rest).length ≤ (0 : UInt64).toNat := Nat.not_succ_le_zero _
  simp only [ahead, due]
  rw [if_neg more]
  rfl

/-- What a disruptor pulls is the first of the entries that it has not taken. -/
theorem Takes.has (takes : Takes source d asked pulled d') (h : Has source d rest) :
    match pulled with
    | .error _ => False
    | .ok none => rest = [] ∧ Has source d' []
    | .ok (some entry) => ∃ more, rest = entry :: more ∧ Has source d' more := by
  obtain ⟨left, gives, rfl⟩ := h
  cases takes with
  | aside pending =>
    rw [pending]
    exact ⟨left, rfl, left, gives, rfl⟩
  | finds pending answer | ends pending answer | fails pending answer =>
    rw [pending]
    cases left with
    | nil =>
      obtain ⟨head, tail⟩ := gives_nil_iff.mp gives
      rw [answer] at head tail
      cases head
      all_goals exact ⟨rfl, [], tail, rfl⟩
    | cons entry left =>
      obtain ⟨head, tail⟩ := gives_cons_iff.mp gives
      rw [answer] at head tail
      cases head
      all_goals exact ⟨left, rfl, left, tail, rfl⟩

/-- The entries held and those that come out at the end are, together, so many: those that are counted and
those ahead. -/
structure Accounted (source : σ → Pulled × σ) (config : DisruptorConfig) (total : Nat × Nat)
    (rest : List Entry) (d : Disruptor σ) : Prop where
  config_eq : d.config = config
  has : Has source d rest
  counted : ∃ before ended, d.stats.held = UInt64.ofNat before ∧
    d.stats.flushedAtEnd = UInt64.ofNat ended ∧
    (before + (ahead config d.held rest).1, ended + (ahead config d.held rest).2) = total

variable {total : Nat × Nat}

/-- Where nothing is counted, as much is ahead as before. -/
theorem Accounted.keep (h : d.Accounted source config total rest) (config_eq : d'.config = d.config)
    (has : Has source d' rest') (held : d'.stats.held = d.stats.held)
    (flushed : d'.stats.flushedAtEnd = d.stats.flushedAtEnd)
    (same : ahead config d'.held rest' = ahead config d.held rest) :
    d'.Accounted source config total rest' := by
  refine ⟨config_eq.trans h.config_eq, has, ?_⟩
  rw [held, flushed, same]
  exact h.counted

/-- A round keeps the account. -/
theorem Round.accounted (round : Round source d asked now d')
    (h : d.Accounted source config total rest) : ∃ rest', d'.Accounted source config total rest' := by
  cases round with
  | fails takes => exact (takes.has h.has).elim
  | ends idle takes =>
    obtain ⟨rfl, has⟩ := takes.has h.has
    exact ⟨[], h.keep takes.config_eq has takes.stats_held_eq takes.stats_flushed_eq
      (by rw [takes.held_eq])⟩
  | passes idle takes other =>
    obtain ⟨more, rfl, has⟩ := takes.has h.has
    rw [h.config_eq] at other
    refine ⟨more, h.keep takes.config_eq has takes.stats_held_eq takes.stats_flushed_eq ?_⟩
    rw [emit_held, takes.held_eq, idle, ahead_other other]
  | holds idle takes target =>
    obtain ⟨more, rfl, has⟩ := takes.has h.has
    rw [h.config_eq] at target
    have same := takes.config_eq.trans h.config_eq
    obtain ⟨before, ended, held, flushed, sum⟩ := h.counted
    refine ⟨more, same, has, before + 1, ended, add_one_eq_ofNat (takes.stats_held_eq.trans held),
      takes.stats_flushed_eq.trans flushed, ?_⟩
    rw [idle, ahead_hold target] at sum
    rw [hold_held, same, ← sum, Nat.add_right_comm]
    rfl
  | passesBy holding takes going =>
    obtain ⟨more, rfl, has⟩ := takes.has h.has
    refine ⟨more, h.keep takes.config_eq has takes.stats_held_eq takes.stats_flushed_eq ?_⟩
    rw [emit_held, holding, ahead_held_succ going]
  | @releases entry _ _ holding takes due =>
    obtain ⟨more, rfl, left, gives, rfl⟩ := takes.has h.has
    refine ⟨entry :: left, h.keep takes.config_eq ⟨left, gives, rfl⟩ takes.stats_held_eq
      takes.stats_flushed_eq ?_⟩
    rw [emit_held, holding, ahead_held_zero due, takes.pending_eq]
    rfl
  | flushes holding takes =>
    obtain ⟨rfl, has⟩ := takes.has h.has
    obtain ⟨before, ended, held, flushed, sum⟩ := h.counted
    refine ⟨[], takes.config_eq.trans h.config_eq, has, before, ended + 1,
      takes.stats_held_eq.trans held, add_one_eq_ofNat (takes.stats_flushed_eq.trans flushed), ?_⟩
    rw [holding] at sum
    exact sum

theorem Rounds.accounted (run : Rounds source (ofSource s config) taken given d)
    (h : Gives source rest none s) :
    ∃ rest', d.Accounted source config (holdings config.target config.step.toNat rest) rest' := by
  induction run with
  | start =>
    refine ⟨rest, rfl, ⟨rest, h, rfl⟩, 0, 0, rfl, rfl, ?_⟩
    rw [Nat.zero_add, Nat.zero_add]
    rfl
  | round _ last ih =>
    obtain ⟨rest', account⟩ := ih
    exact last.accounted account

/-- When nothing more comes out, everything that was held is counted. -/
theorem Accounted.of_next_none (h : d.Accounted source config total rest)
    (ended : (d.next source).1 = .ok none) :
    d.stats.held = UInt64.ofNat total.1 ∧ d.stats.flushedAtEnd = UInt64.ofNat total.2 := by
  have nothing : due config d.held rest = [] := by
    cases owed : due config d.held rest with
    | nil => rfl
    | cons out more =>
      have handed := (next_of_owes_cons ⟨h.config_eq, rest, h.has, owed.symm⟩).1
      rw [ended] at handed
      cases handed
  obtain ⟨idle, rfl⟩ := of_due_eq_nil nothing
  obtain ⟨before, ended, held, flushed, rfl⟩ := h.counted
  rw [idle]
  exact ⟨held, flushed⟩

/-- What it is for entries to come out at their places. -/
structure Displaced (step : Nat) (holds : List Nat) (entries out : List Entry) : Prop where
  /-- As many come out as went in. -/
  length_eq : out.length = entries.length
  /-- The places are a permutation of the positions. -/
  bijOn : Set.BijOn (place step entries.length holds) (Set.Iio entries.length)
    (Set.Iio entries.length)
  /-- Every entry comes out at its place, without its sequence number. -/
  getElem?_place : ∀ j < entries.length,
    out[place step entries.length holds j]? = entries[j]?.map Entry.clear
  /-- None comes out more than the step too late. -/
  late : ∀ j < entries.length, place step entries.length holds j ≤ j + step
  /-- None comes out more than one position too early. -/
  early : ∀ j < entries.length, j ≤ place step entries.length holds j + 1
  /-- Entries that are not held keep their order. -/
  passing : ∀ j k, j < k → k < entries.length → j ∉ holds → k ∉ holds →
    place step entries.length holds j < place step entries.length holds k
  /-- Held entries keep their order. -/
  held : ∀ j k, j < k → k < entries.length → j ∈ holds → k ∈ holds →
    place step entries.length holds j < place step entries.length holds k

/-- The reordered entries are the entries displaced at their holds. -/
theorem displaced_reorder (target : EntryType) (step : Nat) (entries : List Entry) :
    Displaced step (holds target step entries) entries (reorder target step entries) := by
  have apart : ∀ h ∈ holds target step entries, ∀ h' ∈ holds target step entries, h < h' →
      h + step < h' := fun h held h' held' => (mem_holds_iff.mp held').2 h held
  exact {
    length_eq := length_reorder target step entries
    bijOn := bijOn_place apart
    getElem?_place := fun j inside => getElem?_reorder_place target step entries inside
    late := fun j _ => place_le step _ _ j
    early := fun j inside => le_place_add_one _ _ inside
    passing := fun j k less inside passed passed' =>
      place_lt_place apart less inside (iff_of_false passed passed')
    held := fun j k less inside held held' =>
      place_lt_place apart less inside (iff_of_true held held') }

/-- **Where the entries come out.** Take a source of some entries and a disruptor with a valid configuration
over it. An entry is held if it is of the target type and comes more than the step behind every one held
before it. The disruptor hands out the entries without their sequence numbers, each at its place: a held one
as many positions later as the step says, or last, one that goes by a held one a position earlier, and any
other where it was. When all are handed out, the disruptor has counted those held, and the one that came out
only because nothing more followed, if there is one. -/
theorem gives_displaced (source : σ → Pulled × σ) (s : σ) (config : DisruptorConfig)
    (entries : List Entry) (step : 1 ≤ config.step) (h : Gives source entries none s) :
    let step := config.step.toNat
    let holds := holds config.target step entries
    (holds.Pairwise (· < ·) ∧ ∀ position, position ∈ holds ↔
      (∃ entry, entries[position]? = some entry ∧ entry.type = config.target) ∧
        ∀ hold ∈ holds, hold < position → hold + step < position) ∧
    ∃ d out, wrap s config = .ok d ∧ Gives (Disruptor.next source) out none d ∧
      Displaced step holds entries out ∧
      ∀ calls, entries.length ≤ calls →
        let stats := (stateAfter (Disruptor.next source) calls d).stats
        stats.held = UInt64.ofNat holds.length ∧
          stats.flushedAtEnd =
            if ∃ hold ∈ holds, entries.length - 1 ≤ hold + step then 1 else 0 := by
  intro step' holds
  have gives : Gives (Disruptor.next source) (reorder config.target step' entries) none
      (ofSource s config) := gives_of_owes ⟨rfl, entries, ⟨entries, h, rfl⟩, rfl⟩
  refine ⟨⟨pairwise_holdsBelow _ _ _ _, fun position => mem_holds_iff⟩, ofSource s config, _,
    wrap_of_step s step, gives, displaced_reorder _ _ _, fun calls enough => ?_⟩
  obtain ⟨taken, run⟩ := exists_rounds source (ofSource s config) calls
  obtain ⟨rest, account⟩ := run.accounted h
  have spent := gives.after calls
  rw [List.drop_eq_nil_of_le (by rwa [length_reorder])] at spent
  obtain ⟨held, flushed⟩ := account.of_next_none (gives_nil_iff.mp spent).1
  refine ⟨held, flushed.trans ?_⟩
  rw [holdings]
  split <;> rfl

/-- Six entries, of which the second, the third and the fifth are of the delayed type. -/
def mixed : List Entry := [passing 1, delayed 2, delayed 3, passing 4, delayed 5, passing 6]

/-- Of six entries the ones at the positions 1 and 4 are held; the other of the delayed type goes by the
first of them, and the second is the last to come out. -/
theorem gives_displaced_of_six :
    (1 : UInt64) ≤ 2 ∧ Gives MemoryEntries.next mixed none ⟨mixed⟩ ∧
    holds (.of .persistDirectory) 2 mixed = [1, 4] ∧
    (List.range 6).map (place 2 6 [1, 4]) = [0, 3, 1, 2, 5, 4] ∧
    ∃ d out, wrap (MemoryEntries.mk mixed) ⟨.of .persistDirectory, 2⟩ = .ok d ∧
      Gives (Disruptor.next MemoryEntries.next) out none d ∧ Displaced 2 [1, 4] mixed out ∧
      (stateAfter (Disruptor.next MemoryEntries.next) 6 d).stats.held = 2 ∧
      (stateAfter (Disruptor.next MemoryEntries.next) 6 d).stats.flushedAtEnd = 1 := by
  have source := MemoryEntries.gives mixed
  have positions : holds (.of .persistDirectory) 2 mixed = [1, 4] := by decide +kernel
  obtain ⟨-, d, out, wrapped, gives, displaced, counts⟩ := gives_displaced MemoryEntries.next _
    ⟨.of .persistDirectory, 2⟩ mixed (by decide) source
  have step : (2 : UInt64).toNat = 2 := rfl
  simp only [step, positions] at displaced counts
  obtain ⟨held, flushed⟩ := counts 6 (by decide)
  exact ⟨by decide, source, positions, by decide, d, out, wrapped, gives, displaced, held, flushed⟩

end Disruptor

end RaftJournal
