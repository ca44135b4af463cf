import Mathlib.Order.Bounds.Basic
import Sponge.Reassembler.Slices

/-!
# What the reassembler assembles

A `Feed` is a reassembler with what an observer has seen of it: the bytes that
were read or popped from its output and the index ranges that were pushed. The
pushes are slices of a stream `S`, with any eof flag.

- `always_assembled`: whatever is pushed, the bytes written are `S[0..headIndex)`.
- `always_eager`: as long as each push ends within the room left by the reader,
  the reassembler agrees with the reference model that keeps the set of the
  indices received (`Feed.Covered`): the number of bytes written is the least
  index that has not come. So two runs that cover the same indices assemble the
  same stream.
-/

namespace Sponge

open Lib StreamReassembler

structure Feed where
  reassembler : StreamReassembler
  popped : List UInt8 := []
  pushed : List (Nat × Nat) := []
  deriving DecidableEq, Repr

namespace Feed

/-- A push of `S[i..j)`, or `n` bytes read or popped from the output. -/
inductive Call where
  | push (i j : Nat) (eof : Bool)
  | read (n : Nat)
  deriving DecidableEq, Repr

def step (S : List UInt8) (f : Feed) : Call → Feed
  | .push i j eof => { f with
      reassembler := f.reassembler.pushSubstring (slice S i j) i eof
      pushed := (i, j) :: f.pushed }
  | .read n => { f with
      reassembler := f.reassembler.readOut n
      popped := f.popped ++ (f.reassembler.output.read n).1 }

/-- All bytes ever written to the output. -/
def written (f : Feed) : List UInt8 := f.popped ++ f.reassembler.output.buffer

/-- Index `k` lies in a substring that was pushed. -/
def Covered (f : Feed) (k : Nat) : Prop := ∃ p ∈ f.pushed, p.1 ≤ k ∧ k < p.2

def Call.Within (S : List UInt8) : Call → Prop
  | .push i j _ => i ≤ j ∧ j ≤ S.length
  | .read _ => True

instance (S : List UInt8) : ∀ c : Call, Decidable (c.Within S)
  | .push i j _ => inferInstanceAs (Decidable (i ≤ j ∧ j ≤ S.length))
  | .read _ => isTrue trivial

/-- The substring ends no later than the room that the reader has left. -/
def InRoom (f : Feed) : Call → Prop
  | .push _ j _ => j ≤ f.reassembler.output.bytesRead + f.reassembler.capacity
  | .read _ => True

instance (f : Feed) : ∀ c : Call, Decidable (f.InRoom c)
  | .push _ j _ => inferInstanceAs (Decidable (j ≤ _))
  | .read _ => isTrue trivial

/-! ## What is written -/

/-- The bytes written are the first `headIndex` ones of `S`. -/
structure Assembled (S : List UInt8) (f : Feed) : Prop where
  written : f.written = S.take f.reassembler.headIndex
  head_le : f.reassembler.headIndex ≤ S.length
  count : f.reassembler.output.bytesWritten = f.reassembler.headIndex
  fits : f.reassembler.output.bufferSize ≤ f.reassembler.capacity

/-- The reassembler's invariant, and all it holds is part of `S`. -/
structure Sound (S : List UInt8) (f : Feed) : Prop where
  inv : f.reassembler.Inv
  fed : f.reassembler.Fed S
  written : f.written = S.take f.reassembler.headIndex

section
variable {S : List UInt8} {f : Feed} {r : StreamReassembler} {capacity : Nat}

theorem sound_mk (h : mk? capacity = some r) : Sound S { reassembler := r } := by
  obtain ⟨hi, -, -, hr⟩ := inv_mk h
  refine ⟨hi, fed_mk h, ?_⟩
  rw [hr]
  rfl

theorem Sound.assembled (h : Sound S f) : Assembled S f where
  written := h.written
  head_le := h.fed.head
  count := h.inv.written
  fits := by
    rw [← h.inv.cap]
    exact h.inv.stream.fits

theorem Sound.step (h : Sound S f) (c : Call) : Sound S (f.step S c) := by
  cases c with
  | push i j eof =>
    obtain ⟨w, hp, -⟩ := pushSubstring_spec h.inv (slice S i j) i eof
    have hfed := hp.fed h.fed fun _ _ => sliceAt_slice S i j
    refine ⟨h.inv.push .., hfed, ?_⟩
    -- what is written starts where the prefix ends
    have hw := (hp.slices S h.fed.blocks fun _ _ => sliceAt_slice S i j).1
    have hlen : f.written.length = f.reassembler.headIndex := by
      rw [h.written, List.length_take]
      exact Nat.min_eq_left h.fed.head
    have hpre : f.written ++ w <+: S := by
      refine SliceAt.extend (h.written ▸ List.take_prefix ..) ?_
      rwa [hlen]
    have hout : (f.step S (.push i j eof)).written = f.written ++ w := by
      show f.popped ++ (f.reassembler.pushSubstring (slice S i j) i eof).output.buffer = _
      rw [hp.buffer, ← List.append_assoc]
      rfl
    rw [hout, List.prefix_iff_eq_take.mp hpre, List.length_append, hlen]
    exact congrArg (S.take ·) hp.head.symm
  | read n =>
    refine ⟨h.inv.readOut n, ⟨h.fed.blocks, h.fed.head⟩, ?_⟩
    show f.popped ++ (f.reassembler.output.read n).1 ++
      (f.reassembler.output.popOutput n).buffer = _
    rw [ByteStream.read_eq, ByteStream.popOutput_buffer, List.append_assoc, List.take_append_drop]
    exact h.written

/-- What a slice that is let in offers is the slice's range. -/
theorem slice_offers {i j : Nat} (hj : j ≤ S.length) (k : Nat)
    (hin : j ≤ r.headIndex + r.capacity) :
    r.Offers i (slice S i j).length k ↔ i ≤ k ∧ k < j := by
  rw [slice_length hj, Offers]
  omega

theorem headIndex_le_step (h : Sound S f) (c : Call) :
    f.reassembler.headIndex ≤ (f.step S c).reassembler.headIndex := by
  cases c with
  | push i j eof =>
    obtain ⟨w, hp, -⟩ := pushSubstring_spec h.inv (slice S i j) i eof
    exact hp.head ▸ Nat.le_add_right ..
  | read n => exact Nat.le_refl _

theorem capacity_step (h : Sound S f) (c : Call) :
    (f.step S c).reassembler.capacity = f.reassembler.capacity := by
  cases c with
  | push i j eof =>
    obtain ⟨w, hp, -⟩ := pushSubstring_spec h.inv (slice S i j) i eof
    exact hp.capacity
  | read n => rfl

end

/-- **Prefix fidelity.** In every run of pushes of slices of `S`, with any eof flags, and of reads,
the bytes written are always `S[0..headIndex)`, the output holds at most `capacity` bytes, and
`headIndex` never decreases. -/
theorem always_assembled (capacity : Nat) (S : List UInt8) (r : StreamReassembler)
    (calls : List Call) (h0 : mk? capacity = some r) :
    Always (step S) (fun f => Assembled S f ∧ f.reassembler.output.bufferSize ≤ capacity)
        { reassembler := r } calls ∧
      Along (step S) (fun f c => f.reassembler.headIndex ≤ (f.step S c).reassembler.headIndex)
        { reassembler := r } calls := by
  have hall : Always (step S) (fun f => Sound S f ∧ f.reassembler.capacity = capacity)
      { reassembler := r } calls :=
    (along_of_forall fun _ _ => trivial).always (G := fun _ _ => True)
      ⟨sound_mk h0, (inv_mk h0).2.1⟩
      fun f c hi _ => ⟨hi.1.step c, (capacity_step hi.1 c).trans hi.2⟩
  constructor
  · exact hall.mono fun f hf => ⟨hf.1.assembled, hf.2 ▸ hf.1.assembled.fits⟩
  · exact hall.along.mono fun f c hg => headIndex_le_step hg.1.1 c

/-- Three bytes of "abcd" behind a gap, the gap with what overruns the room, and the rest. -/
theorem assembled_overrun : ∃ r, mk? 3 = some r ∧
    Always (step [97, 98, 99, 100]) (fun f => Assembled [97, 98, 99, 100] f ∧
        f.reassembler.output.bufferSize ≤ 3)
      { reassembler := r } [.push 1 4 true, .push 0 2 false, .read 2, .push 2 4 true] :=
  ⟨_, rfl, (always_assembled 3 [97, 98, 99, 100] _
    [.push 1 4 true, .push 0 2 false, .read 2, .push 2 4 true] rfl).1⟩

/-! ## The reference model -/

/-- Nothing has been truncated, and the reassembler has received exactly what was pushed. -/
structure Eager (S : List UInt8) (f : Feed) : Prop extends Sound S f where
  leak : f.reassembler.leaked = 0
  received : ∀ k, f.reassembler.Received k ↔ f.Covered k
  room : ∀ p ∈ f.pushed, p.2 ≤ f.reassembler.output.readden + f.reassembler.capacity

section
variable {S : List UInt8} {f : Feed} {r : StreamReassembler} {capacity : Nat}

theorem covered_push (f : Feed) (S : List UInt8) (i j : Nat) (eof : Bool) (k : Nat) :
    (f.step S (.push i j eof)).Covered k ↔ f.Covered k ∨ (i ≤ k ∧ k < j) := by
  show (∃ p ∈ (i, j) :: f.pushed, p.1 ≤ k ∧ k < p.2) ↔ _
  simp only [List.mem_cons, exists_eq_or_imp]
  exact or_comm

theorem eager_mk (h : mk? capacity = some r) : Eager S { reassembler := r } where
  toSound := sound_mk h
  leak := by
    obtain ⟨-, -, -, rfl⟩ := inv_mk h
    rfl
  received k := by
    obtain ⟨-, -, -, rfl⟩ := inv_mk h
    simp [Received, Covered]
  room := by simp

/-- A push within the room does not overrun it. -/
theorem Eager.not_overruns (h : Eager S f) {i j : Nat}
    (hj : j ≤ f.reassembler.output.readden + f.reassembler.capacity) :
    ¬ f.reassembler.Overruns i (slice S i j).length := by
  intro ho
  have hfit := h.inv.stream.fits
  have hcount := h.inv.stream.count
  have hw := h.inv.written
  have hcap := h.inv.cap
  have hrem : f.reassembler.headIndex + f.reassembler.output.remainingCapacity =
      f.reassembler.output.readden + f.reassembler.capacity := by
    simp only [ByteStream.remainingCapacity, ByteStream.bufferSize]
    omega
  rcases ho _ (Nat.le_refl _) with hh | ⟨-, hle, hlt⟩
  · obtain ⟨p, hp, -, hlt⟩ := (h.received _).mp (.inr hh)
    have := h.room p hp
    omega
  · have hlen : (slice S i j).length ≤ j - i := by
      rw [slice, List.length_drop, List.length_take]
      omega
    omega

theorem Eager.step (h : Eager S f) {c : Call} (hv : c.Within S) (hr : f.InRoom c) :
    Eager S (f.step S c) := by
  cases c with
  | push i j eof =>
    obtain ⟨w, hp, -⟩ := pushSubstring_spec h.inv (slice S i j) i eof
    have hroom : j ≤ f.reassembler.output.readden + f.reassembler.capacity := hr
    have hleak := hp.overrun.mpr (h.not_overruns hroom)
    have hcount := h.inv.stream.count
    have hw := h.inv.written
    refine ⟨h.toSound.step _, hleak.trans h.leak, fun k => ?_, ?_⟩
    · have hoff := slice_offers (r := f.reassembler) (i := i) hv.2 k (by omega)
      rw [covered_push, ← h.received, ← hoff]
      exact hp.received hleak k
    · intro p hm
      show p.2 ≤ (f.reassembler.pushSubstring (slice S i j) i eof).output.readden +
        (f.reassembler.pushSubstring (slice S i j) i eof).capacity
      rw [hp.readden, hp.capacity]
      rcases List.mem_cons.mp hm with rfl | hm
      · exact hroom
      · exact h.room p hm
  | read n =>
    refine ⟨h.toSound.step _, h.leak, h.received, fun p hm => ?_⟩
    have := h.room p hm
    show p.2 ≤ (f.reassembler.output.popOutput n).readden + f.reassembler.capacity
    rw [ByteStream.popOutput_readden]
    omega

/-- Nothing but what lies below the head has come without a gap. -/
theorem Eager.isLeast (h : Eager S f) :
    IsLeast {k | ¬ f.Covered k} f.reassembler.output.bytesWritten := by
  have hw : f.reassembler.output.bytesWritten = f.reassembler.headIndex := h.inv.written
  rw [hw]
  constructor
  · intro hc
    rcases (h.received _).mpr hc with hlt | ⟨b, hb, hle, -⟩
    · exact absurd hlt (Nat.lt_irrefl _)
    · have := h.inv.above b hb
      omega
  · intro k hk
    by_contra hlt
    exact hk ((h.received k).mp (.inl (by omega)))

end

theorem eager_always {capacity : Nat} {S : List UInt8} {r : StreamReassembler} {calls : List Call}
    (h0 : mk? capacity = some r) (hv : ∀ c ∈ calls, c.Within S)
    (hr : Along (step S) InRoom { reassembler := r } calls) :
    Always (step S) (Eager S) { reassembler := r } calls :=
  (hr.and_forall hv).always (eager_mk h0) fun _ _ hi hg => hi.step hg.2 hg.1

theorem eager_run {capacity : Nat} {S : List UInt8} {r : StreamReassembler} {calls : List Call}
    (h0 : mk? capacity = some r) (hv : ∀ c ∈ calls, c.Within S)
    (hr : Along (step S) InRoom { reassembler := r } calls) :
    Eager S (run (step S) { reassembler := r } calls) :=
  (hr.and_forall hv).inv (eager_mk h0) fun _ _ hi hg => hi.step hg.2 hg.1

/-- **Eager, order-independent assembly.** As long as each push ends within the room, the number of
bytes written is always the least index not covered; two runs that cover the same indices have
written the same bytes. -/
theorem always_eager (capacity : Nat) (S : List UInt8) (r : StreamReassembler) (calls : List Call)
    (h0 : mk? capacity = some r) (hv : ∀ c ∈ calls, c.Within S)
    (hr : Along (step S) InRoom { reassembler := r } calls) :
    Always (step S)
        (fun f => IsLeast {k | ¬ f.Covered k} f.reassembler.output.bytesWritten)
        { reassembler := r } calls ∧
      ∀ (capacity' : Nat) (r' : StreamReassembler) (calls' : List Call),
        mk? capacity' = some r' → (∀ c ∈ calls', c.Within S) →
        Along (step S) InRoom { reassembler := r' } calls' →
        (∀ k, (run (step S) { reassembler := r } calls).Covered k ↔
          (run (step S) { reassembler := r' } calls').Covered k) →
        (run (step S) { reassembler := r } calls).written =
          (run (step S) { reassembler := r' } calls').written := by
  refine ⟨(eager_always h0 hv hr).mono fun f hf => hf.isLeast, ?_⟩
  intro capacity' r' calls' h0' hv' hr' hcov
  have h1 := eager_run h0 hv hr
  have h2 := eager_run h0' hv' hr'
  have hl := h1.isLeast
  simp only [hcov] at hl
  have heq := hl.unique h2.isLeast
  rw [h1.written, h2.written, ← h1.inv.written, ← h2.inv.written]
  exact congrArg (S.take ·) heq

/-- "abc" in three pieces out of order, and in one. -/
theorem eager_shuffled : ∃ r, mk? 4 = some r ∧
    (run (step [97, 98, 99]) { reassembler := r }
        [.push 1 2 false, .push 2 3 true, .push 0 2 false]).written =
      (run (step [97, 98, 99]) { reassembler := r } [.push 0 3 true]).written := by
  refine ⟨_, rfl, (always_eager 4 [97, 98, 99] _ [.push 1 2 false, .push 2 3 true, .push 0 2 false]
    rfl (by decide) (by decide)).2 4 _ [.push 0 3 true] rfl (by decide) (by decide) fun k => ?_⟩
  have hnone : ∀ r, ¬ Covered { reassembler := r } k := by simp [Covered]
  simp only [run_cons, run_nil, covered_push, hnone, false_or]
  omega

end Feed

end Sponge
