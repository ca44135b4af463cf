import Sponge.Lib.Run

/-!
# Simulation of one machine by another

`f` gives the abstract state of a concrete one. Where each concrete step that is
allowed is one abstract step or none (`Simulates`), each run of such steps is an
abstract run through the same abstract states (`Simulates.run`), and what holds in
every state of the one holds in every state of the other.
-/

namespace Lib

variable {σ ε τ η : Type*} {step : σ → ε → σ} {astep : τ → η → τ} {f : σ → τ} {I : σ → Prop}
  {A G : σ → ε → Prop} {H : τ → η → Prop}

/-- An allowed step from a state with `I` is one abstract step, which meets its guard if the step
does, or none. -/
structure Simulates (step : σ → ε → σ) (astep : τ → η → τ) (f : σ → τ) (I : σ → Prop)
    (A G : σ → ε → Prop) (H : τ → η → Prop) : Prop where
  inv : ∀ s e, I s → A s e → I (step s e)
  sim : ∀ s e, I s → A s e → f (step s e) = f s ∨
    ∃ ae, f (step s e) = astep (f s) ae ∧ (G s e → H (f s) ae)

/-- **Simulation rule.** -/
theorem Simulates.run (h : Simulates step astep f I A G H) {s : σ} (h0 : I s) (es : List ε)
    (ha : Along step A s es) :
    ∃ aes, aes.length ≤ es.length ∧ Lib.run astep (f s) aes = f (Lib.run step s es) ∧
      (Along step G s es → Along astep H (f s) aes) ∧
      ∀ P, Always astep P (f s) aes ↔ Always step (fun s => P (f s)) s es := by
  induction es generalizing s with
  | nil => exact ⟨[], Nat.le_refl 0, rfl, (fun _ => trivial), fun P => Iff.rfl⟩
  | cons e es ih =>
    obtain ⟨aes, hlen, hrun, hguard, halways⟩ := ih (h.inv s e h0 ha.1) ha.2
    rw [List.length_cons]
    rcases h.sim s e h0 ha.1 with heq | ⟨ae, heq, hae⟩ <;> rw [heq] at hrun hguard halways
    · refine ⟨aes, by omega, hrun, fun hes => hguard hes.2, fun P => ?_⟩
      rw [always_cons, ← halways P]
      exact ⟨fun ha => ⟨ha.head, ha⟩, fun ha => ha.2⟩
    · refine ⟨ae :: aes, by rw [List.length_cons]; omega, hrun,
        fun hes => ⟨hae hes.1, hguard hes.2⟩, fun P => ?_⟩
      rw [always_cons, always_cons, halways P]

end Lib
