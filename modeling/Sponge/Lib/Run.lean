import Mathlib.Logic.Basic

/-!
# Runs of a step function

A machine is a step function `step : σ → ε → σ`; a run feeds it a list of
events. `Along step G s es` says that every event meets the guard `G` in the
state it is taken from, and `Always step P s es` that `P` holds in every state
of the run, both ends included. Guards and state predicates that are decidable
make both decidable, so a concrete run is checked by evaluation.

The rules: `run_inv` (an invariant of every step holds after the run),
`Along.inv` (the same for a guarded step), `Along.always` (and in every state of
the run), `Along.imp` (for a property of its steps), `always_iff_along` (a state
property that each step keeps exactly when its guard holds), `along_iff_along`
(the same for a property of the steps).
-/

namespace Lib

variable {σ ε : Type*} (step : σ → ε → σ)

/-- The state after the events `es`. -/
def run (s : σ) (es : List ε) : σ := es.foldl step s

/-- Every event of the run meets `G` in the state it is taken from. -/
def Along (G : σ → ε → Prop) : σ → List ε → Prop
  | _, [] => True
  | s, e :: es => G s e ∧ Along G (step s e) es

/-- `P` holds in every state of the run. -/
def Always (P : σ → Prop) : σ → List ε → Prop
  | s, [] => P s
  | s, e :: es => P s ∧ Always P (step s e) es

@[simp] theorem run_nil (s : σ) : run step s [] = s := rfl

@[simp] theorem run_cons (s : σ) (e : ε) (es : List ε) :
    run step s (e :: es) = run step (step s e) es := rfl

theorem run_append (s : σ) (es fs : List ε) :
    run step s (es ++ fs) = run step (run step s es) fs := by
  simp [run, List.foldl_append]

@[simp] theorem along_nil (G : σ → ε → Prop) (s : σ) : Along step G s [] := trivial

@[simp] theorem along_cons (G : σ → ε → Prop) (s : σ) (e : ε) (es : List ε) :
    Along step G s (e :: es) ↔ G s e ∧ Along step G (step s e) es := Iff.rfl

@[simp] theorem always_nil (P : σ → Prop) (s : σ) : Always step P s [] ↔ P s := Iff.rfl

@[simp] theorem always_cons (P : σ → Prop) (s : σ) (e : ε) (es : List ε) :
    Always step P s (e :: es) ↔ P s ∧ Always step P (step s e) es := Iff.rfl

instance Along.decidable (G : σ → ε → Prop) [∀ s e, Decidable (G s e)] :
    ∀ s es, Decidable (Along step G s es)
  | _, [] => isTrue trivial
  | s, e :: es =>
    have := Along.decidable G (step s e) es
    inferInstanceAs (Decidable (G s e ∧ Along step G (step s e) es))

instance Always.decidable (P : σ → Prop) [DecidablePred P] :
    ∀ s es, Decidable (Always step P s es)
  | s, [] => inferInstanceAs (Decidable (P s))
  | s, e :: es =>
    have := Always.decidable P (step s e) es
    inferInstanceAs (Decidable (P s ∧ Always step P (step s e) es))

variable {step} {G H : σ → ε → Prop} {P Q : σ → Prop}

theorem along_append {s : σ} {es fs : List ε} :
    Along step G s (es ++ fs) ↔ Along step G s es ∧ Along step G (run step s es) fs := by
  induction es generalizing s with
  | nil => simp
  | cons e es ih => simp [ih, and_assoc]

theorem Along.mono {s : σ} {es : List ε} (h : Along step G s es)
    (hGH : ∀ s e, G s e → H s e) : Along step H s es := by
  induction es generalizing s with
  | nil => trivial
  | cons e es ih => exact ⟨hGH _ _ h.1, ih h.2⟩

/-- The guard at each place of the run. -/
theorem along_iff_forall {s : σ} {es : List ε} :
    Along step G s es ↔ ∀ pre e post, es = pre ++ e :: post → G (run step s pre) e := by
  induction es generalizing s with
  | nil => simp
  | cons f es ih =>
    rw [along_cons, ih]
    constructor
    · rintro ⟨hf, hes⟩ pre e post heq
      cases pre with
      | nil =>
        obtain ⟨rfl, -⟩ := List.cons.inj heq
        exact hf
      | cons f' pre =>
        obtain ⟨rfl, rfl⟩ := List.cons.inj heq
        exact hes pre e post rfl
    · intro h
      exact ⟨h [] f es rfl, fun pre e post heq => h (f :: pre) e post (by rw [heq]; rfl)⟩

theorem along_of_forall {s : σ} {es : List ε} (h : ∀ s e, G s e) : Along step G s es := by
  induction es generalizing s with
  | nil => trivial
  | cons e es ih => exact ⟨h s e, ih⟩

theorem along_congr {s : σ} {es : List ε} (hGH : ∀ s e, G s e ↔ H s e) :
    Along step G s es ↔ Along step H s es :=
  ⟨fun h => h.mono fun s e => (hGH s e).mp, fun h => h.mono fun s e => (hGH s e).mpr⟩

theorem Along.and {s : σ} {es : List ε} (h : Along step G s es) (h' : Along step H s es) :
    Along step (fun s e => G s e ∧ H s e) s es := by
  induction es generalizing s with
  | nil => trivial
  | cons e es ih => exact ⟨⟨h.1, h'.1⟩, ih h.2 h'.2⟩

theorem Along.and_forall {s : σ} {es : List ε} {R : ε → Prop} (h : Along step G s es)
    (hR : ∀ e ∈ es, R e) : Along step (fun s e => G s e ∧ R e) s es := by
  induction es generalizing s with
  | nil => trivial
  | cons e es ih =>
    exact ⟨⟨h.1, hR e List.mem_cons_self⟩, ih h.2 fun f hf => hR f (List.mem_cons_of_mem _ hf)⟩

theorem Always.mono {s : σ} {es : List ε} (h : Always step P s es)
    (hPQ : ∀ s, P s → Q s) : Always step Q s es := by
  induction es generalizing s with
  | nil => exact hPQ _ h
  | cons e es ih => exact ⟨hPQ _ h.1, ih h.2⟩

theorem Always.congr {I : σ → Prop} {s : σ} {es : List ε} (h : Always step I s es)
    (hPQ : ∀ s, I s → (P s ↔ Q s)) : Always step P s es ↔ Always step Q s es := by
  induction es generalizing s with
  | nil => exact hPQ _ h
  | cons e es ih => exact and_congr (hPQ _ h.1) (ih h.2)

theorem always_append {s : σ} {es fs : List ε} (h : Always step P s (es ++ fs)) :
    Always step P (run step s es) fs := by
  induction es generalizing s with
  | nil => exact h
  | cons e es ih => exact ih h.2

theorem Always.head {s : σ} {es : List ε} (h : Always step P s es) : P s := by
  cases es with
  | nil => exact h
  | cons e es => exact h.1

/-- **Invariant rule.** What every step preserves holds after the run. -/
theorem run_inv {I : σ → Prop} {s : σ} (h0 : I s) (hstep : ∀ s e, I s → I (step s e))
    (es : List ε) : I (run step s es) := by
  induction es generalizing s with
  | nil => exact h0
  | cons e es ih => exact ih (hstep s e h0)

/-- **Invariant rule.** What the guarded step preserves holds after the run. -/
theorem Along.inv {I : σ → Prop} {s : σ} {es : List ε} (h : Along step G s es)
    (h0 : I s) (hstep : ∀ s e, I s → G s e → I (step s e)) : I (run step s es) := by
  induction es generalizing s with
  | nil => exact h0
  | cons e es ih => exact ih h.2 (hstep s e h0 h.1)

/-- **Invariant rule**, for every state of the run. -/
theorem Along.always {I : σ → Prop} {s : σ} {es : List ε} (h : Along step G s es)
    (h0 : I s) (hstep : ∀ s e, I s → G s e → I (step s e)) : Always step I s es := by
  induction es generalizing s with
  | nil => exact h0
  | cons e es ih => exact ⟨h0, ih h.2 (hstep s e h0 h.1)⟩

/-- **Invariant rule**, for a property of every step of the run. -/
theorem Along.imp {I : σ → Prop} {P : σ → ε → Prop} {s : σ} {es : List ε}
    (h : Along step G s es) (h0 : I s) (hstep : ∀ s e, I s → G s e → I (step s e))
    (hP : ∀ s e, I s → G s e → P s e) : Along step P s es := by
  induction es generalizing s with
  | nil => trivial
  | cons e es ih => exact ⟨hP s e h0 h.1, ih h.2 (hstep s e h0 h.1)⟩

theorem Always.and {s : σ} {es : List ε} (h : Always step P s es) (h' : Always step Q s es) :
    Always step (fun s => P s ∧ Q s) s es := by
  induction es generalizing s with
  | nil => exact ⟨h, h'⟩
  | cons e es ih => exact ⟨⟨h.1, h'.1⟩, ih h.2 h'.2⟩

/-- Steps that stay in an order or a preorder lead from the first state to the last. -/
theorem Along.run_related {R : σ → σ → Prop} {s : σ} {es : List ε}
    (h : Along step (fun s e => R s (step s e)) s es) (hrefl : ∀ s, R s s)
    (htrans : ∀ s t u, R s t → R t u → R s u) : R s (run step s es) := by
  induction es generalizing s with
  | nil => exact hrefl s
  | cons e es ih => exact htrans _ _ _ h.1 (ih h.2)

/-- A side condition on every state of the run is a guard on every step. -/
theorem Always.along {s : σ} {es : List ε} (h : Always step P s es) :
    Along step (fun s e => P s ∧ P (step s e)) s es := by
  induction es generalizing s with
  | nil => trivial
  | cons e es ih => exact ⟨⟨h.1, h.2.head⟩, ih h.2⟩

/-- A property that holds at the start, and that a step keeps exactly when its
guard holds, holds all along a run exactly when every step meets its guard. -/
theorem always_iff_along {I : σ → Prop} {s : σ} {es : List ε} (h : Along step G s es)
    (h0 : I s) (hP : P s) (hstep : ∀ s e, I s → G s e → I (step s e))
    (hiff : ∀ s e, I s → P s → G s e → (P (step s e) ↔ H s e)) :
    Always step P s es ↔ Along step H s es := by
  induction es generalizing s with
  | nil => simpa using hP
  | cons e es ih =>
    have hs := hiff s e h0 hP h.1
    constructor
    · rintro ⟨-, ha⟩
      have hPe : P (step s e) := ha.head
      exact ⟨hs.mp hPe, (ih h.2 (hstep s e h0 h.1) hPe).mp ha⟩
    · rintro ⟨hH, hA⟩
      have hPe : P (step s e) := hs.mpr hH
      exact ⟨hP, (ih h.2 (hstep s e h0 h.1) hPe).mpr hA⟩

/-- A step property that holds exactly when a guard does, with an invariant that such
steps keep, holds all along a run exactly when the guard does. -/
theorem along_iff_along {I : σ → Prop} {P : σ → ε → Prop} {s : σ} {es : List ε}
    (h : Along step G s es) (h0 : I s) (hstep : ∀ s e, I s → G s e → H s e → I (step s e))
    (hiff : ∀ s e, I s → G s e → (P s e ↔ H s e)) :
    Along step P s es ↔ Along step H s es := by
  induction es generalizing s with
  | nil => exact Iff.rfl
  | cons e es ih =>
    have hs := hiff s e h0 h.1
    constructor
    · rintro ⟨hP, hA⟩
      have hH : H s e := hs.mp hP
      exact ⟨hH, (ih h.2 (hstep s e h0 h.1 hH)).mp hA⟩
    · rintro ⟨hH, hA⟩
      exact ⟨hs.mpr hH, (ih h.2 (hstep s e h0 h.1 hH)).mpr hA⟩

end Lib
