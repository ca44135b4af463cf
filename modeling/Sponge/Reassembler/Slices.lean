import Sponge.Reassembler.Push
import Sponge.Lib.Run

/-!
# Runs of pushes of one stream

The pushes are slices `S[i..j)` of a stream `S`, the last ones (`j = |S|`) with
the eof flag, in any order and with reads in between. `Fed S r` says that all
that is stored is a slice of `S`; then, with nothing leaked, everything written
means nothing counted (`Fed.unassembled_zero`), so the end is reported.

A leak is never repaired: `leaked_stays_open`.
-/

namespace Sponge

open Lib

namespace StreamReassembler

/-- What is fed to a reassembler of the stream `S`. -/
inductive Op where
  | push (i j : Nat)
  | read (n : Nat)
  deriving DecidableEq, Repr

/-- The substring `S[i..j)`. -/
def slice (S : List UInt8) (i j : Nat) : List UInt8 := (S.take j).drop i

def step (S : List UInt8) (r : StreamReassembler) : Op → StreamReassembler
  | .push i j => r.pushSubstring (slice S i j) i (j == S.length)
  | .read n => r.readOut n

/-- The indices of a push lie in the stream. -/
def Op.Within (S : List UInt8) : Op → Prop
  | .push i j => i ≤ j ∧ j ≤ S.length
  | .read _ => True

instance (S : List UInt8) : ∀ op : Op, Decidable (op.Within S)
  | .push i j => inferInstanceAs (Decidable (i ≤ j ∧ j ≤ S.length))
  | .read _ => isTrue trivial

/-- No push made while the stream is open overruns the room in the output. -/
def NoOverrun (r : StreamReassembler) : Op → Prop
  | .push i j => r.output.inputEnded = false → ¬ r.Overruns i (j - i)
  | .read _ => True

instance (r : StreamReassembler) : ∀ op, Decidable (r.NoOverrun op)
  | .push i j => inferInstanceAs (Decidable (_ → ¬ r.Overruns i (j - i)))
  | .read _ => isTrue trivial

variable {S : List UInt8} {r : StreamReassembler} {i j : Nat} {op : Op}

theorem slice_length (h : j ≤ S.length) : (slice S i j).length = j - i := by
  simp only [slice, List.length_drop, List.length_take]
  omega

theorem sliceAt_slice (S : List UInt8) (i j : Nat) : SliceAt S i (slice S i j) := by
  have h : SliceAt S 0 (S.take j) := sliceAt_zero_iff.mpr (List.take_prefix ..)
  have hd := h.drop i
  rwa [Nat.zero_add] at hd

theorem inv_step (h : r.Inv) (op : Op) : (r.step S op).Inv := by
  cases op with
  | push i j => exact h.push ..
  | read n => exact h.readOut n

/-- All that is stored is part of `S`, and so much of it is written. -/
structure Fed (S : List UInt8) (r : StreamReassembler) : Prop where
  blocks : ∀ b ∈ r.blocks, b.SliceOf S
  head : r.headIndex ≤ S.length

theorem Pushed.fed {data w : List UInt8} {index : Nat} {r' : StreamReassembler}
    (hp : Pushed r data index r' w) (h : r.Fed S)
    (hd : index < r.headIndex + r.capacity → r.headIndex < index + data.length →
      SliceAt S index data) : r'.Fed S := by
  obtain ⟨hw, hb⟩ := hp.slices S h.blocks hd
  refine ⟨hb, ?_⟩
  rw [hp.head]
  by_cases hne : w = []
  · simpa [hne] using h.head
  · exact hw.length_le hne

theorem fed_step (hf : r.Fed S) (h : r.Inv) (op : Op) : (r.step S op).Fed S := by
  cases op with
  | push i j =>
    obtain ⟨w, hp, -⟩ := pushSubstring_spec h (slice S i j) i (j == S.length)
    exact hp.fed hf fun _ _ => sliceAt_slice S i j
  | read n => exact ⟨hf.blocks, hf.head⟩

/-- With everything written and nothing leaked, nothing is counted. -/
theorem Fed.unassembled_zero (hf : r.Fed S) (h : r.Inv) (hl : r.leaked = 0)
    (hall : r.headIndex = S.length) : r.unassembledByte = 0 := by
  have hempty : ∀ b ∈ r.blocks, b.length = 0 := by
    intro b hb
    have habove := h.above b hb
    have hlen := (h.wf b hb).length_eq
    by_contra hne
    have hle := SliceAt.length_le (hf.blocks b hb)
      (List.length_pos_iff.mp (by omega))
    omega
  have htot : totalLength r.blocks = 0 := totalLength_eq_zero hempty
  have hc := h.count
  unfold leaked at hl
  omega

theorem capacity_step (h : r.Inv) (op : Op) : (r.step S op).capacity = r.capacity := by
  cases op with
  | push i j =>
    obtain ⟨w, hp, -⟩ := pushSubstring_spec h (slice S i j) i (j == S.length)
    exact hp.capacity
  | read n => rfl

/-! ## Leaks -/

theorem leaked_pos_not_empty (hl : 0 < r.leaked) : r.empty = false := by
  unfold leaked at hl
  simp only [empty, beq_eq_false_iff_ne]
  omega

/-- A leak stays, and an open stream with one stays open. -/
theorem leaked_stays_open (h : r.Inv) (hl : 0 < r.leaked) (ho : r.output.inputEnd = false)
    (op : Op) : 0 < (r.step S op).leaked ∧ (r.step S op).output.inputEnd = false := by
  cases op with
  | push i j =>
    obtain ⟨w, hp, hj⟩ := pushSubstring_spec h (slice S i j) i (j == S.length)
    have hl' := Nat.lt_of_lt_of_le hl hp.leak
    refine ⟨hl', ?_⟩
    rw [step, hj.inputEnd, ho, leaked_pos_not_empty hl']
    simp
  | read n => exact ⟨hl, ho⟩

theorem leaked_open_run (h : r.Inv) (hl : 0 < r.leaked) (ho : r.output.inputEnd = false)
    (ops : List Op) : (run (step S) r ops).output.inputEnd = false := by
  induction ops generalizing r with
  | nil => exact ho
  | cons op ops ih =>
    obtain ⟨hl', ho'⟩ := leaked_stays_open (S := S) h hl ho op
    exact ih (inv_step h op) hl' ho'

/-- On an open stream, a push leaks exactly when it overruns. -/
theorem leaked_step_iff (h : r.Inv) (hl : r.leaked = 0) (hv : op.Within S)
    (ho : r.output.inputEnd = false) : (r.step S op).leaked = 0 ↔ r.NoOverrun op := by
  cases op with
  | push i j =>
    obtain ⟨w, hp, -⟩ := pushSubstring_spec h (slice S i j) i (j == S.length)
    have hov := hp.overrun
    rw [slice_length hv.2, hl] at hov
    rw [step, hov]
    simp [NoOverrun, ByteStream.inputEnded, ho]
  | read n => exact iff_of_true hl trivial

/-- Once ended, or as long as no push overruns, an open stream has no leak. -/
theorem sound_step (h : r.Inv) (hs : r.output.inputEnd = true ∨ r.leaked = 0)
    (hv : op.Within S) (hn : r.NoOverrun op) :
    (r.step S op).output.inputEnd = true ∨ (r.step S op).leaked = 0 := by
  by_cases ho : r.output.inputEnd = true
  · refine .inl ?_
    cases op with
    | push i j => exact pushSubstring_inputEnd_mono h _ ho
    | read n => exact ho
  · rcases hs with hs | hs
    · exact absurd hs ho
    · exact .inr ((leaked_step_iff h hs hv (by simpa using ho)).mpr hn)

/-- An overrun on an open stream keeps it open for good. -/
theorem open_of_overrun {ops : List Op} (h : r.Inv) (hv : ∀ op ∈ ops, op.Within S)
    (hn : ¬ Along (step S) NoOverrun r ops) :
    (run (step S) r ops).output.inputEnd = false := by
  induction ops generalizing r with
  | nil => exact absurd trivial hn
  | cons op ops ih =>
    have hv' : ∀ op ∈ ops, op.Within S := fun o ho => hv o (List.mem_cons_of_mem _ ho)
    by_cases hop : r.NoOverrun op
    · exact ih (inv_step h op) hv' fun ha => hn ⟨hop, ha⟩
    · -- the step leaks, and the counter is not zero from here on
      cases op with
      | read n => exact absurd trivial hop
      | push i j =>
        simp only [NoOverrun, ByteStream.inputEnded] at hop
        push Not at hop
        obtain ⟨ho, hover⟩ := hop
        obtain ⟨w, hp, hj⟩ := pushSubstring_spec h (slice S i j) i (j == S.length)
        have hlen : (slice S i j).length = j - i := slice_length (hv _ List.mem_cons_self).2
        have hov := hp.overrun
        rw [hlen] at hov
        have hne : (r.step S (.push i j)).leaked ≠ r.leaked := fun he => hov.mp he hover
        have hl' : 0 < (r.step S (.push i j)).leaked := by
          have := hp.leak
          simp only [step] at hne ⊢
          omega
        refine leaked_open_run (inv_step h _) hl' ?_ ops
        rw [step] at hl' ⊢
        rw [hj.inputEnd, ho, leaked_pos_not_empty hl']
        simp

/-! ## The eof flag -/

theorem eofFlag_step (h : r.Inv) (hf : r.eofFlag = true) (op : Op) :
    (r.step S op).eofFlag = true := by
  cases op with
  | push i j =>
    obtain ⟨w, -, hj⟩ := pushSubstring_spec h (slice S i j) i (j == S.length)
    rw [step, hj.eofFlag, hf, Bool.true_or]
  | read n => exact hf

theorem eofFlag_push (h : r.Inv) (hin : i < r.headIndex + r.capacity) :
    (r.step S (.push i S.length)).eofFlag = true := by
  obtain ⟨w, -, hj⟩ := pushSubstring_spec h (slice S i S.length) i (S.length == S.length)
  rw [step, hj.eofFlag]
  simp [hin]

/-! ## Whole runs -/

theorem inv_run (h : r.Inv) (ops : List Op) : (run (step S) r ops).Inv :=
  run_inv h (fun _ op h => inv_step h op) ops

theorem fed_run (h : r.Inv) (hf : r.Fed S) (ops : List Op) : (run (step S) r ops).Fed S :=
  (run_inv (I := fun r : StreamReassembler => r.Inv ∧ r.Fed S) ⟨h, hf⟩
    (fun _ op hi => ⟨inv_step hi.1 op, fed_step hi.2 hi.1 op⟩) ops).2

theorem eofFlag_run (h : r.Inv) (hf : r.eofFlag = true) (ops : List Op) :
    (run (step S) r ops).eofFlag = true :=
  (run_inv (I := fun r : StreamReassembler => r.Inv ∧ r.eofFlag = true) ⟨h, hf⟩
    (fun _ op hi => ⟨inv_step hi.1 op, eofFlag_step hi.1 hi.2 op⟩) ops).2

theorem capacity_run (h : r.Inv) (ops : List Op) :
    (run (step S) r ops).capacity = r.capacity :=
  (run_inv (I := fun q : StreamReassembler => q.Inv ∧ q.capacity = r.capacity) ⟨h, rfl⟩
    (fun _ op hi => ⟨inv_step hi.1 op, (capacity_step hi.1 op).trans hi.2⟩) ops).2

theorem fed_mk {capacity : Nat} (h : mk? capacity = some r) : r.Fed S := by
  obtain ⟨-, -, -, rfl⟩ := inv_mk h
  exact ⟨by simp, Nat.zero_le _⟩

/-- As long as no push on the open stream overruns, an open stream has no leak. -/
theorem sound_run {ops : List Op} (h : r.Inv) (hs : r.output.inputEnd = true ∨ r.leaked = 0)
    (hv : ∀ op ∈ ops, op.Within S) (hn : Along (step S) NoOverrun r ops) :
    (run (step S) r ops).output.inputEnd = true ∨ (run (step S) r ops).leaked = 0 := by
  induction ops generalizing r with
  | nil => exact hs
  | cons op ops ih =>
    exact ih (inv_step h op) (sound_step h hs (hv op List.mem_cons_self) hn.1)
      (fun o ho => hv o (List.mem_cons_of_mem _ ho)) hn.2

/-- A push with eof in the run that was let in, and everything written: the end is
reported exactly when no push on the open stream overran the room. -/
theorem inputEnd_iff {capacity : Nat} {pre post : List Op} (h0 : mk? capacity = some r)
    (hv : ∀ op ∈ pre ++ .push i S.length :: post, op.Within S)
    (hin : i < (run (step S) r pre).headIndex + capacity)
    (hall : (run (step S) r (pre ++ .push i S.length :: post)).output.bytesWritten = S.length) :
    (run (step S) r (pre ++ .push i S.length :: post)).output.inputEnded = true ↔
      Along (step S) NoOverrun r (pre ++ .push i S.length :: post) := by
  obtain ⟨hi, hcap, -, hr⟩ := inv_mk h0
  constructor
  · intro hend
    by_contra hn
    have hopen := open_of_overrun hi hv hn
    rw [ByteStream.inputEnded, hopen] at hend
    cases hend
  · intro hn
    have hfin := inv_run (S := S) hi (pre ++ .push i S.length :: post)
    have hfed := fed_run (S := S) hi (fed_mk h0) (pre ++ .push i S.length :: post)
    rcases sound_run hi (.inr (by rw [hr]; rfl)) hv hn with hend | hleak
    · exact hend
    · refine hfin.ended ?_ (hfed.unassembled_zero hfin hleak ?_)
      · rw [run_append, run_cons]
        have hipre := inv_run (S := S) hi pre
        refine eofFlag_run (inv_step hipre _) (eofFlag_push hipre ?_) post
        rwa [capacity_run hi, hcap]
      · rw [← hfin.written]
        exact hall

end StreamReassembler

end Sponge
