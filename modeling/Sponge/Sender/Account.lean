import Sponge.Sender.Step
import Sponge.Lib.Run

/-!
# The sender's accounts

`Contiguous isn p segs q`: the segments occupy the absolute sequence numbers
from `p` up to `q` one after the other, and each carries its own as seqno.

`Queued` holds of every run: the queue ends at `nextSeqno` and
`bytesInFlight` is its length. While fewer than 2^31 sequence numbers are
outstanding the pop loop reads each seqno as the number it was made from, and
`Accounted` holds as well: the ackno lies in the first queued segment.
-/

namespace Sponge

open Lib

/-- The segments occupy `[p, q)` in order. -/
def Contiguous (isn : WrappingInt32) : Nat → List TCPSegment → Nat → Prop
  | p, [], q => p = q
  | p, seg :: segs, q => seg.header.seqno = wrap p isn ∧ 0 < seg.lengthInSequenceSpace ∧
      Contiguous isn (p + seg.lengthInSequenceSpace) segs q

namespace Contiguous

variable {isn : WrappingInt32} {p q : Nat} {segs more : List TCPSegment} {seg : TCPSegment}

theorem length (h : Contiguous isn p segs q) : p + seqLength segs = q := by
  induction segs generalizing p with
  | nil => exact h
  | cons seg segs ih =>
    rw [seqLength_cons, ← Nat.add_assoc]
    exact ih h.2.2

theorem append_iff : Contiguous isn p (segs ++ more) q ↔
    Contiguous isn p segs (p + seqLength segs) ∧ Contiguous isn (p + seqLength segs) more q := by
  induction segs generalizing p with
  | nil => simp [Contiguous]
  | cons seg segs ih => simp only [List.cons_append, Contiguous, seqLength_cons, ih, and_assoc,
      Nat.add_assoc]

theorem snoc (h : Contiguous isn p segs q) (hs : seg.header.seqno = wrap q isn)
    (hl : 0 < seg.lengthInSequenceSpace) :
    Contiguous isn p (segs ++ [seg]) (q + seg.lengthInSequenceSpace) := by
  rw [append_iff, h.length]
  exact ⟨h, hs, hl, rfl⟩

/-- The pop loop goes no further than the ackno. -/
theorem le_of_stops_le {next absAckno : Nat} (h : Contiguous isn p segs q) (hq : q ≤ next)
    (hnext : next + 2 ^ 32 ≤ 2 ^ 64) (hnear : next ≤ p + 2 ^ 31) (hp : p ≤ absAckno)
    (hall : ∀ seg ∈ segs,
      unwrap seg.header.seqno isn next + seg.lengthInSequenceSpace ≤ absAckno) :
    q ≤ absAckno := by
  induction segs generalizing p with
  | nil =>
    have hpq : p = q := h
    omega
  | cons seg segs ih =>
    obtain ⟨hs, hl, hc⟩ := h
    have hlen := hc.length
    have hle := hall seg List.mem_cons_self
    rw [hs, unwrap_wrap_near isn hnext hnear (by omega)] at hle
    exact ih hc (by omega) hle fun s hm => hall s (List.mem_cons_of_mem _ hm)

end Contiguous

namespace TCPSender

/-- The absolute sequence number of the first queued segment. -/
def firstSeqno (s : TCPSender) : Nat := s.nextSeqno - s.bytesInFlight

/-- What holds of the queue in every run. -/
structure Queued (s : TCPSender) : Prop where
  bytes : s.bytesInFlight = seqLength s.segmentsInFlight
  bytes_le : s.bytesInFlight ≤ s.nextSeqno
  run : Contiguous s.isn s.firstSeqno s.segmentsInFlight s.nextSeqno
  checkpoint : s.checkpoint = s.receiveAck
  ack_le : s.receiveAck ≤ s.nextSeqno

/-- The ackno lies in the first queued segment, or behind all that was sent. -/
structure Accounted (s : TCPSender) : Prop extends Queued s where
  first_le : s.firstSeqno ≤ s.receiveAck
  ack_lt : ∀ seg rest, s.segmentsInFlight = seg :: rest →
    s.receiveAck < s.firstSeqno + seg.lengthInSequenceSpace

/-- Fewer than 2^31 sequence numbers are outstanding and fewer than 2^63 were sent. -/
def Bounded (s : TCPSender) : Prop := s.bytesInFlight < 2 ^ 31 ∧ s.nextSeqno < 2 ^ 63

instance (s : TCPSender) : Decidable s.Bounded := inferInstanceAs (Decidable (_ ∧ _))

section
variable {s t e : TCPSender} {seg : TCPSegment} {popped : List TCPSegment} {absAckno : Nat}

theorem queued_new (capacity : Nat) (retxTimeout : UInt16) (fixedIsn : Option WrappingInt32)
    (random : UInt32) : Queued (new capacity retxTimeout fixedIsn random) :=
  ⟨rfl, Nat.le_refl _, rfl, rfl, Nat.le_refl _⟩

theorem accounted_new (capacity : Nat) (retxTimeout : UInt16) (fixedIsn : Option WrappingInt32)
    (random : UInt32) : Accounted (new capacity retxTimeout fixedIsn random) :=
  ⟨queued_new capacity retxTimeout fixedIsn random, Nat.le_refl _, by rintro _ _ ⟨⟩⟩

theorem Same.firstSeqno (ht : Same s t) : t.firstSeqno = s.firstSeqno := by
  rw [TCPSender.firstSeqno, TCPSender.firstSeqno, ht.nextSeqno, ht.bytesInFlight]

theorem Queued.same (h : s.Queued) (ht : Same s t) : t.Queued where
  bytes := by rw [ht.bytesInFlight, ht.segmentsInFlight, h.bytes]
  bytes_le := by rw [ht.bytesInFlight, ht.nextSeqno]; exact h.bytes_le
  run := by
    rw [ht.isn, ht.firstSeqno, ht.segmentsInFlight, ht.nextSeqno]
    exact h.run
  checkpoint := by rw [ht.checkpoint, ht.receiveAck, h.checkpoint]
  ack_le := by rw [ht.receiveAck, ht.nextSeqno]; exact h.ack_le

theorem Queued.write (h : s.Queued) (data : List UInt8) : (s.write data).Queued :=
  ⟨h.bytes, h.bytes_le, h.run, h.checkpoint, h.ack_le⟩

theorem Queued.endInput (h : s.Queued) : s.endInput.Queued :=
  ⟨h.bytes, h.bytes_le, h.run, h.checkpoint, h.ack_le⟩

theorem Accounted.same (h : s.Accounted) (ht : Same s t) : t.Accounted where
  toQueued := h.toQueued.same ht
  first_le := by rw [ht.firstSeqno, ht.receiveAck]; exact h.first_le
  ack_lt := by rw [ht.firstSeqno, ht.receiveAck, ht.segmentsInFlight]; exact h.ack_lt

theorem Sent.firstSeqno (ht : Sent s seg t) : t.firstSeqno = s.firstSeqno := by
  rw [TCPSender.firstSeqno, TCPSender.firstSeqno, ht.nextSeqno, ht.bytesInFlight,
    Nat.add_sub_add_right]

theorem Queued.sent (h : s.Queued) (ht : Sent s seg t) : t.Queued where
  bytes := by simp [ht.bytesInFlight, ht.segmentsInFlight, h.bytes]
  bytes_le := by rw [ht.bytesInFlight, ht.nextSeqno]; exact Nat.add_le_add_right h.bytes_le _
  run := by
    rw [ht.isn, ht.firstSeqno, ht.segmentsInFlight, ht.nextSeqno]
    exact h.run.snoc ht.seqno ht.nonempty
  checkpoint := by rw [ht.checkpoint, ht.receiveAck, h.checkpoint]
  ack_le := by
    rw [ht.receiveAck, ht.nextSeqno]
    exact Nat.le_add_right_of_le h.ack_le

theorem Accounted.sent (h : s.Accounted) (ht : Sent s seg t) : t.Accounted where
  toQueued := h.toQueued.sent ht
  first_le := by rw [ht.firstSeqno, ht.receiveAck]; exact h.first_le
  ack_lt := by
    intro first rest hq
    rw [ht.segmentsInFlight] at hq
    rw [ht.firstSeqno, ht.receiveAck]
    cases hs : s.segmentsInFlight with
    | cons first' rest' =>
      rw [hs] at hq
      obtain ⟨rfl, -⟩ := List.cons.inj hq
      exact h.ack_lt _ _ hs
    | nil =>
      -- the queue was empty: the new segment starts at `nextSeqno`, where the ackno is
      rw [hs] at hq
      obtain ⟨rfl, -⟩ := List.cons.inj hq
      have hb := h.bytes
      have hle := h.ack_le
      have hpos := ht.nonempty
      rw [hs, seqLength_nil] at hb
      simp only [TCPSender.firstSeqno]
      omega

theorem Queued.fillWindow (h : s.Queued) : s.fillWindow.Queued :=
  fillWindow_inv (fun hs => h.sent (fillWindow_syn hs).1)
    (fun b => h.same (same_setZero s b))
    fun _ _ _ _ ht hp => hp.sent ht.sent

theorem Accounted.fillWindow (h : s.Accounted) : s.fillWindow.Accounted :=
  fillWindow_inv (fun hs => h.sent (fillWindow_syn hs).1)
    (fun b => h.same (same_setZero s b))
    fun _ _ _ _ ht hp => hp.sent ht.sent

theorem Acked.firstSeqno (h : s.Queued) (ha : Acked s absAckno e popped) :
    e.firstSeqno = s.firstSeqno + seqLength popped := by
  have hb := h.bytes
  have hle := h.bytes_le
  rw [ha.queue, seqLength_append] at hb
  rw [ha.eq]
  simp only [TCPSender.firstSeqno]
  omega

theorem Queued.acked (h : s.Queued) (ha : Acked s absAckno e popped)
    (hle : absAckno ≤ s.nextSeqno) : e.Queued := by
  have hfirst := ha.firstSeqno h
  have hb := h.bytes
  have hble := h.bytes_le
  rw [ha.queue, seqLength_append] at hb
  have hrun := h.run
  rw [ha.queue, Contiguous.append_iff] at hrun
  have heq := ha.eq
  exact {
    bytes := by rw [heq]; simp only; omega
    bytes_le := by rw [heq]; simp only; omega
    run := by
      rw [hfirst, heq]
      exact hrun.2
    checkpoint := by rw [heq]
    ack_le := by rw [heq]; exact hle }

/-- With fewer than 2^31 sequence numbers outstanding the pop loop stops at the segment the
ackno lies in. -/
theorem Accounted.acked (h : s.Accounted) (hb1 : s.bytesInFlight < 2 ^ 31)
    (hb2 : s.nextSeqno + 2 ^ 32 ≤ 2 ^ 64) (ha : Acked s absAckno e popped)
    (hgt : s.receiveAck < absAckno) (hle : absAckno ≤ s.nextSeqno) : e.Accounted := by
  have hfirst := ha.firstSeqno h.toQueued
  have hrun := h.run
  rw [ha.queue, Contiguous.append_iff] at hrun
  obtain ⟨hpop, hrest⟩ := hrun
  have hlen := hrest.length
  have hnear : s.nextSeqno ≤ s.firstSeqno + 2 ^ 31 := by
    have := h.bytes_le
    simp only [TCPSender.firstSeqno]
    omega
  have hfl := h.first_le
  have hstop := hpop.le_of_stops_le (by omega) (by omega) hnear (by omega) ha.stops_le
  have hack : e.receiveAck = absAckno := by rw [ha.eq]
  refine ⟨h.toQueued.acked ha hle, ?_, ?_⟩
  · rw [hfirst, hack]
    exact hstop
  · intro seg rest hq
    have hlt := ha.lt_stop seg rest hq
    rw [hq] at hrest
    obtain ⟨hseq, hpos, hc⟩ := hrest
    have hlen' := hc.length
    rw [hseq, unwrap_wrap_near s.isn (by omega) (by omega) (by omega)] at hlt
    rw [hfirst, hack]
    exact hlt

theorem Queued.ackReceived (h : s.Queued) (ackno : WrappingInt32) (w : UInt16) :
    (s.ackReceived ackno w).Queued := by
  rcases ackReceived_cases s ackno w with ⟨-, -, heq⟩ | ⟨-, -, -, heq⟩ |
    ⟨hle, hgt, e, popped, -, ha, heq⟩
  · rw [heq]
    exact h
  · rw [heq]
    exact h.same (same_setWindow s w)
  · have hs := h.same (same_setWindow s w)
    rw [heq]
    exact (hs.acked ha hle).fillWindow.same (same_restartTimer _)

theorem Accounted.ackReceived (h : s.Accounted) (hb1 : s.bytesInFlight < 2 ^ 31)
    (hb2 : s.nextSeqno + 2 ^ 32 ≤ 2 ^ 64) (ackno : WrappingInt32) (w : UInt16) :
    (s.ackReceived ackno w).Accounted := by
  rcases ackReceived_cases s ackno w with ⟨-, -, heq⟩ | ⟨-, -, -, heq⟩ |
    ⟨hle, hgt, e, popped, -, ha, heq⟩
  · rw [heq]
    exact h
  · rw [heq]
    exact h.same (same_setWindow s w)
  · have hs := h.same (same_setWindow s w)
    rw [heq]
    exact (hs.acked hb1 hb2 ha hgt hle).fillWindow.same (same_restartTimer _)

theorem Accounted.step (h : s.Accounted) (hb1 : s.bytesInFlight < 2 ^ 31)
    (hb2 : s.nextSeqno + 2 ^ 32 ≤ 2 ^ 64) (op : Op) : (s.step op).Accounted := by
  cases op with
  | fillWindow => exact h.fillWindow
  | write data => exact ⟨h.toQueued.write data, h.first_le, h.ack_lt⟩
  | endInput => exact ⟨h.toQueued.endInput, h.first_le, h.ack_lt⟩
  | ack ackno w => exact h.ackReceived hb1 hb2 ackno w
  | tick ms => exact h.same (tick_ticked s ms).same
  | sendEmpty => exact h.same (same_sendEmpty s)

/-! ## The ackno only grows -/

theorem fillWindow_receiveAck (s : TCPSender) : s.fillWindow.receiveAck = s.receiveAck :=
  fillWindow_inv (P := fun t => t.receiveAck = s.receiveAck)
    (fun hs => (fillWindow_syn hs).1.receiveAck) (fun _ => rfl)
    fun _ _ _ _ ht hp => ht.sent.receiveAck.trans hp

theorem ackReceived_receiveAck (s : TCPSender) (ackno : WrappingInt32) (w : UInt16) :
    s.receiveAck ≤ (s.ackReceived ackno w).receiveAck := by
  rcases ackReceived_cases s ackno w with ⟨-, -, heq⟩ | ⟨-, -, -, heq⟩ |
    ⟨-, hgt, e, popped, -, ha, heq⟩
  · exact Nat.le_of_eq (by rw [heq])
  · exact Nat.le_of_eq (by rw [heq])
  · rw [heq, (same_restartTimer _).receiveAck, fillWindow_receiveAck, ha.eq]
    exact Nat.le_of_lt hgt

theorem step_receiveAck (s : TCPSender) (op : Op) : s.receiveAck ≤ (s.step op).receiveAck := by
  cases op with
  | fillWindow => exact Nat.le_of_eq (fillWindow_receiveAck s).symm
  | ack ackno w => exact ackReceived_receiveAck s ackno w
  | tick ms => exact Nat.le_of_eq (by rw [step, (tick_ticked s ms).eq])
  | write data => exact Nat.le_refl _
  | endInput => exact Nat.le_refl _
  | sendEmpty => exact Nat.le_refl _

end

/-! ## Runs -/

/-- The queue is a contiguous run of non-empty segments up to `nextSeqno`, `bytesInFlight` is
their length, and the ackno lies in the first of them, or at `nextSeqno` when there is none. -/
structure Balanced (s : TCPSender) : Prop where
  queue : ∃ start, Contiguous s.isn start s.segmentsInFlight s.nextSeqno ∧
    ∀ first rest, s.segmentsInFlight = first :: rest →
      start ≤ s.receiveAck ∧ s.receiveAck < start + first.lengthInSequenceSpace
  bytes : s.bytesInFlight = seqLength s.segmentsInFlight
  ack_le : s.receiveAck ≤ s.nextSeqno
  idle : s.segmentsInFlight = [] → s.receiveAck = s.nextSeqno ∧ s.bytesInFlight = 0

theorem Accounted.balanced {s : TCPSender} (h : s.Accounted) : s.Balanced where
  queue := ⟨s.firstSeqno, h.run, fun first rest hq => ⟨h.first_le, h.ack_lt first rest hq⟩⟩
  bytes := h.bytes
  ack_le := h.ack_le
  idle hq := by
    have hb := h.bytes
    have hle := h.ack_le
    have hfirst := h.first_le
    rw [hq, seqLength_nil] at hb
    simp only [TCPSender.firstSeqno] at hfirst
    omega

/-- **The sender's accounts balance** in every state of a run within the bounds, and the ackno
never decreases. -/
theorem always_balanced (capacity : Nat) (retxTimeout : UInt16) (fixedIsn : Option WrappingInt32)
    (random : UInt32) (ops : List Op)
    (hb : Always step Bounded (new capacity retxTimeout fixedIsn random) ops) :
    Always step Balanced (new capacity retxTimeout fixedIsn random) ops ∧
      Along step (fun s op => s.receiveAck ≤ (s.step op).receiveAck)
        (new capacity retxTimeout fixedIsn random) ops := by
  constructor
  · have hall := hb.along.always (I := Accounted)
      (accounted_new capacity retxTimeout fixedIsn random)
      fun s op h hg => h.step hg.1.1 (by have := hg.1.2; omega) op
    exact hall.mono fun s h => h.balanced
  · exact hb.along.mono fun s op _ => step_receiveAck s op

/-- SYN, four bytes in two segments, an ack in the middle of the first one, a timeout. -/
def partialAckOps : List Op :=
  [.fillWindow, .ack ⟨8⟩ 3, .write [97, 98, 99, 100], .fillWindow, .ack ⟨9⟩ 3, .tick 1000]

theorem balanced_partialAck : Always step Bounded (new 8 1000 (some ⟨7⟩) 0) partialAckOps ∧
    Always step Balanced (new 8 1000 (some ⟨7⟩) 0) partialAckOps :=
  ⟨by decide, (always_balanced 8 1000 (some ⟨7⟩) 0 partialAckOps (by decide)).1⟩

end TCPSender

end Sponge
