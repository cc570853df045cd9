import RaftJournal.Proofs.Stream.Reordering
import RaftJournal.Proofs.Stream.Rounds

/-! # What a disruptor hands out after an error

A source may be **`Fused`**: once it has answered with an error or with its end, it has no more entries.
A disruptor over such a source hands out nothing more after an end. After an error it still has the entry
that it held when the error came, and hands out that one, as at the end of its source, and then nothing
more (**`Disruptor.gives_after_fault`**). -/

namespace RaftJournal

namespace Disruptor

variable {σ : Type} {source : σ → Pulled × σ} {d d' : Disruptor σ} {s : σ}
  {asked taken given : List Pulled} {pulled : Pulled} {config : DisruptorConfig}

/-- A disruptor that has got no entry from a fused source has nothing left to take. -/
theorem Takes.has_nil (takes : Takes source d asked pulled d') (fused : Fused source s)
    {earlier : Nat} (here : d.source = stateAfter source earlier s)
    (without : ∀ entry, pulled ≠ .ok (some entry)) : Has source d' [] := by
  have spent := fused earlier
  rw [stateAfter_add, ← here] at spent
  cases takes with
  | aside | finds => exact absurd rfl (without _)
  | ends _ answer | fails _ answer =>
    have gives : Gives source [] none (source d.source).2 := spent (by rw [answer]; exact without)
    rw [answer] at gives
    exact ⟨[], gives, rfl⟩

/-- **After an error a disruptor over a fused source hands out what it held, and then nothing.** After an
end it hands out nothing. -/
theorem gives_after_fault (source : σ → Pulled × σ) (s : σ) (config : DisruptorConfig)
    (step : 1 ≤ config.step) (fused : Fused source s) :
    ∃ d, wrap s config = .ok d ∧
      ∀ count answer after, (stateAfter (next source) count d).next source = (answer, after) →
        (answer = .ok none → Gives (next source) [] none after) ∧
        ∀ e, answer = .error e →
          Gives (next source) (after.held.toList.map fun held => held.entry.clear) none after := by
  refine ⟨ofSource s config, wrap_of_step s step, fun count answer after result => ?_⟩
  obtain ⟨taken, run⟩ := exists_rounds source (ofSource s config) count
  obtain ⟨taken, given, d, asked, run, last⟩ := run.exists_last
  rw [result] at last
  have here := run.source_eq.2
  have poised := run.poised
  refine ⟨?_, ?_⟩
  · rintro rfl
    cases last with
    | ends idle takes =>
      have has := takes.has_nil fused here (by simp)
      refine gives_of_owes ⟨takes.config_eq.trans poised.config_eq, [], has, ?_⟩
      rw [takes.held_eq, idle]
      exact (reorder_nil _ _).symm
  · rintro e rfl
    cases last with
    | fails takes =>
      have has := takes.has_nil fused here (by simp)
      refine gives_of_owes ⟨takes.config_eq.trans poised.config_eq, [], has, ?_⟩
      cases after.held with
      | none => exact (reorder_nil _ _).symm
      | some held => exact (due_held_nil config held).symm

/-- An entry of the delayed type, and then the error. -/
def brokenOff : List Pulled := [.ok (some (delayed 1)), .error unpackable]

/-- The entry that was held when the error came is handed out after it, and then nothing. -/
theorem gives_after_fault_of_one :
    (1 : UInt64) ≤ 2 ∧ Fused scripted brokenOff ∧
    ∃ d after, wrap brokenOff ⟨.of .persistDirectory, 2⟩ = .ok d ∧
      d.next scripted = (.error unpackable, after) ∧
      Gives (Disruptor.next scripted) [(delayed 1).clear] none after := by
  have step : (1 : UInt64) ≤ 2 := by decide
  have fused : Fused scripted brokenOff := (gives_scripted [delayed 1] unpackable).fused
  obtain ⟨d, wrapped, gives⟩ :=
    gives_after_fault scripted brokenOff ⟨.of .persistDirectory, 2⟩ step fused
  have same : wrap brokenOff ⟨.of .persistDirectory, 2⟩ =
    .ok (ofSource brokenOff ⟨.of .persistDirectory, 2⟩) := wrap_of_step _ step
  obtain rfl := Except.ok.inj (same.symm.trans wrapped)
  have first : (ofSource brokenOff ⟨.of .persistDirectory, 2⟩).next scripted =
      (.error unpackable,
        ⟨[], ⟨.of .persistDirectory, 2⟩, some ⟨delayed 1, 2⟩, none, ⟨1, 0, 1, 0⟩⟩) := by rfl
  exact ⟨step, fused, _, _, wrapped, first, (gives 0 _ _ first).2 unpackable rfl⟩

/-- A disruptor over a fused source is not fused itself: it hands out an entry after an error. -/
theorem not_fused_of_one :
    (1 : UInt64) ≤ 2 ∧ Fused scripted brokenOff ∧
    ∃ d, wrap brokenOff ⟨.of .persistDirectory, 2⟩ = .ok d ∧
      answers (Disruptor.next scripted) 3 d =
        [.error unpackable, .ok (some (delayed 1).clear), .ok none] ∧
      ¬ Fused (Disruptor.next scripted) d := by
  have answered : answers (Disruptor.next scripted) 3
      (ofSource brokenOff ⟨.of .persistDirectory, 2⟩) =
        [.error unpackable, .ok (some (delayed 1).clear), .ok none] := by rfl
  refine ⟨by decide, (gives_scripted [delayed 1] unpackable).fused, _, rfl, answered,
    fun fused => ?_⟩
  obtain ⟨first, rest⟩ := List.cons.inj answered
  have spent := fused 0 fun a found => by
    rw [stateAfter, first] at found
    cases found
  have second := (List.cons.inj rest).1.symm.trans (gives_nil_iff.mp spent).1
  cases second

end Disruptor

end RaftJournal
