import Sponge.Receiver.Ackno

/-!
# When there is an acknowledgment number

`acknoOut` takes a counter of 0 for the counter of a receiver that has not seen
SYN. An observer keeps the sequence number of the SYN and counts what is
acknowledged behind it; the counter is at `isn + 1 + acked`, whatever the
segments are (`Tallied`). So the acknowledgment number is there from SYN on in
every state of a run exactly when that sum is never a multiple of 2^32
(`always_present_iff`). What is acknowledged is what has been written, and the
end, as long as no segment straddles the counter (`Tallied.acked_step`).
-/

namespace Sponge

open Lib

namespace TCPReceiver

/-- A receiver under observation: the SYN that was processed, and how many bytes and FINs were
acknowledged since. -/
structure Observed where
  receiver : TCPReceiver
  isn : Option WrappingInt32 := none
  acked : Nat := 0
  deriving DecidableEq, Repr

namespace Observed

/-- The segment starts at the acknowledgment number, or is the SYN. -/
def StartsAtAckno (o : Observed) (seg : TCPSegment) : Prop :=
  seg.header.syn = true ∨ ∃ isn ∈ o.isn, seg.header.seqno = wrap (1 + o.acked) isn

instance (o : Observed) (seg : TCPSegment) : Decidable (o.StartsAtAckno seg) :=
  inferInstanceAs (Decidable (_ ∨ _))

def step (o : Observed) : Op → Observed
  | .segment seg =>
    let before := o.receiver.streamOut
    let after := (o.receiver.segmentReceived seg).streamOut
    { receiver := o.receiver.segmentReceived seg
      isn := o.isn.or (if seg.header.syn then some seg.header.seqno else none)
      acked := o.acked +
        (if o.StartsAtAckno seg then after.bytesWritten - before.bytesWritten else 0) +
        (if after.inputEnded && !before.inputEnded then 1 else 0) }
  | .read n => { o with receiver := o.receiver.readOut n }

/-- There is an acknowledgment number exactly when a SYN has been processed. -/
def Present (o : Observed) : Prop := o.receiver.acknoOut.isSome ↔ o.isn.isSome

instance (o : Observed) : Decidable o.Present := inferInstanceAs (Decidable (_ ↔ _))

/-- The acknowledgment number is not 0. -/
def NotZero (o : Observed) : Prop :=
  ∀ isn ∈ o.isn, (isn.rawValue.toNat + 1 + o.acked) % 2 ^ 32 ≠ 0

instance (o : Observed) : Decidable o.NotZero := inferInstanceAs (Decidable (∀ isn ∈ o.isn, _))

/-- The observer's account of the receiver. -/
structure Tallied (o : Observed) : Prop where
  inv : o.receiver.Inv
  syn : o.receiver.syn = o.isn.isSome
  ackno : ∀ isn ∈ o.isn, o.receiver.ackno = wrap (1 + o.acked) isn
  start : o.isn = none → o.acked = 0

theorem nextExpected_mk {capacity : Nat} {r : TCPReceiver} (h : mk? capacity = some r) :
    r.nextExpected = 1 := by
  simp only [mk?, Option.map_eq_some_iff] at h
  obtain ⟨re, hre, rfl⟩ := h
  obtain ⟨-, -, -, rfl⟩ := StreamReassembler.inv_mk hre
  rfl

section
variable {o : Observed}

theorem tallied_mk {capacity : Nat} {r : TCPReceiver} (h : mk? capacity = some r) :
    Tallied { receiver := r } :=
  ⟨(inv_mk h).1, (inv_mk h).2.2.1, by rintro _ ⟨⟩, fun _ => rfl⟩

/-- A segment that does not reach the reassembler leaves the account as it is. -/
theorem step_idle (h : o.Tallied) {seg : TCPSegment} (ht : ¬ o.receiver.Takes seg) :
    o.step (.segment seg) = o := by
  have hr := segmentReceived_idle h.inv ht
  have hisn : o.isn.or (if seg.header.syn then some seg.header.seqno else none) = o.isn := by
    cases hi : o.isn with
    | some isn => rfl
    | none =>
      have hs : seg.header.syn = false := by
        by_contra hs
        exact ht (.inl ⟨by simpa using hs, by rw [h.syn, hi]; rfl⟩)
      rw [hs]
      rfl
  have hend : ∀ b : Bool, (b && !b) = false := by decide
  simp only [step, hr, hisn, Nat.sub_self, ite_self, hend, Bool.false_eq_true, if_false,
    Nat.add_zero]

theorem startsAtAckno_iff (h : o.Tallied) {seg : TCPSegment} (ht : o.receiver.Takes seg) :
    o.StartsAtAckno seg ↔ (o.receiver.ackno = seg.header.seqno ∨ seg.header.syn = true) := by
  unfold StartsAtAckno
  cases hs : seg.header.syn with
  | true => simp
  | false =>
    have hsyn : o.isn.isSome := by
      rcases ht with ⟨hs', -⟩ | ⟨-, hl, -⟩
      · rw [hs] at hs'
        cases hs'
      · rw [← h.syn, hl]
    obtain ⟨isn, hisn⟩ := Option.isSome_iff_exists.mp hsyn
    have hack := h.ackno isn hisn
    simp [hisn, hack, eq_comm]

/-- Where no segment straddles the counter, all that is written is acknowledged. -/
theorem Tallied.acked_step (h : o.Tallied) (hc : o.receiver.Counted)
    (ha : 1 + o.acked = o.receiver.nextExpected) {op : Op} (hn : o.receiver.NoStraddle op) :
    1 + (o.step op).acked = (o.step op).receiver.nextExpected := by
  cases op with
  | read n => exact ha
  | segment seg =>
    by_cases ht : o.receiver.Takes seg
    · obtain ⟨w, hw⟩ := segmentReceived_taken h.inv ht
      have hwritten : (o.receiver.segmentReceived seg).streamOut.bytesWritten =
          o.receiver.streamOut.bytesWritten + w.length := hw.pushed.written
      have hopen : o.receiver.streamOut.inputEnded = false := ht.open h.inv
      have hmove := hw.moves h.inv hc ht hn
      simp only [step, startsAtAckno_iff h ht, hwritten, hopen, Nat.add_sub_cancel_left, hmove,
        Bool.not_false, Bool.and_true, nextExpected] at ha ⊢
      simp only [Bool.false_eq_true, if_false] at ha
      omega
    · rw [step_idle h ht]
      exact ha

theorem Tallied.segment (h : o.Tallied) (seg : TCPSegment) : (o.step (.segment seg)).Tallied := by
  by_cases ht : o.receiver.Takes seg
  · obtain ⟨w, hw⟩ := segmentReceived_taken h.inv ht
    -- the SYN the counter starts behind, and where it stands
    obtain ⟨isn, hisn, hbase⟩ : ∃ isn,
        o.isn.or (if seg.header.syn then some seg.header.seqno else none) = some isn ∧
          (if seg.header.syn then seg.header.seqno.add 1 else o.receiver.ackno) =
            wrap (1 + o.acked) isn := by
      rcases ht with ⟨hs, hl⟩ | ⟨hs, hl, -⟩
      · have hnone : o.isn = none := by
          rw [← Option.isSome_eq_false_iff.trans Option.isNone_iff_eq_none, ← h.syn, hl]
        rw [hnone, h.start hnone, hs]
        exact ⟨seg.header.seqno, rfl, add_one_eq_wrap _⟩
      · obtain ⟨isn, hisn⟩ := Option.isSome_iff_exists.mp (h.syn ▸ hl)
        rw [hs, hisn]
        exact ⟨isn, rfl, h.ackno isn hisn⟩
    have hwritten : (o.receiver.segmentReceived seg).streamOut.bytesWritten -
        o.receiver.streamOut.bytesWritten = w.length := by
      have := hw.pushed.written
      simp only [streamOut, ByteStream.bytesWritten]
      omega
    have hopen : o.receiver.streamOut.inputEnded = false := ht.open h.inv
    have hack := hw.ackno_eq hbase
    have hstart := startsAtAckno_iff h ht
    refine ⟨hw.inv h.inv, hw.syn.trans (by simp only [step, hisn, Option.isSome_some]), ?_, ?_⟩
    · intro isn' hisn'
      simp only [step, hisn, Option.mem_def, Option.some.injEq] at hisn'
      subst hisn'
      simp only [step, hwritten, hopen, Bool.not_false, Bool.and_true, hstart]
      rw [hack, Nat.add_assoc 1, Nat.add_assoc 1]
      rfl
    · intro hnone
      simp only [step, hisn] at hnone
      cases hnone
  · rw [step_idle h ht]
    exact h

theorem Tallied.step (h : o.Tallied) (op : Op) : (o.step op).Tallied := by
  cases op with
  | segment seg => exact h.segment seg
  | read n => exact ⟨h.inv.readOut n, h.syn, h.ackno, h.start⟩

/-- Observing does not change the receiver. -/
theorem run_receiver (o : Observed) (ops : List Op) :
    (run step o ops).receiver = run TCPReceiver.step o.receiver ops := by
  induction ops generalizing o with
  | nil => rfl
  | cons op ops ih =>
    rw [run_cons, run_cons, ih]
    cases op <;> rfl

theorem tallied_run (h : o.Tallied) (ops : List Op) : (run step o ops).Tallied :=
  run_inv h (fun _ op hi => hi.step op) ops

theorem Tallied.present_iff (h : o.Tallied) : o.Present ↔ o.NotZero := by
  unfold Present NotZero acknoOut
  cases hi : o.isn with
  | none => simp [h.syn, hi]
  | some isn =>
    have hzero : o.receiver.ackno = ⟨0⟩ ↔ (isn.rawValue.toNat + 1 + o.acked) % 2 ^ 32 = 0 := by
      rw [h.ackno isn hi, WrappingInt32.mk.injEq, ← UInt32.toNat_inj, wrap_toNat]
      have h0 : (0 : UInt32).toNat = 0 := rfl
      omega
    simp only [h.syn, hi, hzero]
    simp

end

/-- In every run of a receiver, the acknowledgment number is there from SYN on exactly when it is
never 0. -/
theorem always_present_iff {capacity : Nat} {r : TCPReceiver} (h : mk? capacity = some r)
    (ops : List Op) :
    Always step Present { receiver := r } ops ↔ Always step NotZero { receiver := r } ops :=
  ((along_of_forall (G := fun _ _ => True) fun _ _ => trivial).always (tallied_mk h)
    fun _ op hi _ => hi.step op).congr fun _ hi => hi.present_iff

/-- In a run in which no segment straddles the counter, the sum is read off the stream. -/
theorem always_present_iff_of_no_straddle {capacity : Nat} {r : TCPReceiver} {ops : List Op}
    (h : mk? capacity = some r)
    (hn : Along step (fun o op => o.receiver.NoStraddle op) { receiver := r } ops) :
    Always step Present { receiver := r } ops ↔ Always step (fun o => ∀ isn ∈ o.isn,
      (isn.rawValue.toNat + o.receiver.nextExpected) % 2 ^ 32 ≠ 0) { receiver := r } ops := by
  have hall : Always step (fun o => o.Tallied ∧ o.receiver.Counted ∧
      1 + o.acked = o.receiver.nextExpected) { receiver := r } ops := by
    refine hn.always ⟨tallied_mk h, counted_mk h, (nextExpected_mk h).symm⟩ fun o op hi hs =>
      ⟨hi.1.step op, ?_, hi.1.acked_step hi.2.1 hi.2.2 hs⟩
    cases op with
    | segment seg => exact hi.2.1.segmentReceived hi.1.inv hs
    | read n => exact hi.2.1
  refine hall.congr fun o hi => ?_
  rw [hi.1.present_iff, NotZero, ← hi.2.2]
  simp only [Nat.add_assoc]

end Observed

end TCPReceiver

end Sponge
