import Sponge.Receiver.Step
import Sponge.Lib.Run

/-!
# The advertised acknowledgment number

`ackno` is a counter. It is advanced by what a push writes only when the
segment starts exactly at it (or carries SYN). A segment that starts before it
and reaches past it (`Straddles`) also writes, and leaves the counter behind.
Without such a segment the counter is exact in every state of every run
(`ackno_exact_of_no_straddle`); `ackno_behind_after_overlap` is a run with one.
-/

namespace Sponge

open Lib

namespace TCPReceiver

/-- What happens to a receiver: a segment arrives, the application reads. -/
inductive Op where
  | segment (seg : TCPSegment)
  | read (n : Nat)
  deriving DecidableEq, Repr

def step (r : TCPReceiver) : Op → TCPReceiver
  | .segment seg => r.segmentReceived seg
  | .read n => r.readOut n

theorem Inv.step {r : TCPReceiver} (h : r.Inv) (op : Op) : (r.step op).Inv := by
  cases op with
  | segment seg => exact h.segmentReceived seg
  | read n => exact h.readOut n

/-- The number of sequence numbers received in order: SYN, the bytes, and FIN. -/
def nextExpected (r : TCPReceiver) : Nat :=
  1 + r.streamOut.bytesWritten + (if r.streamOut.inputEnded then 1 else 0)

/-- The ackno sent out, if any, is the first sequence number not received in order. -/
def AcknoExact (r : TCPReceiver) : Prop :=
  ∀ a ∈ r.acknoOut, a = wrap r.nextExpected r.isn

instance (r : TCPReceiver) : Decidable r.AcknoExact :=
  inferInstanceAs (Decidable (∀ a ∈ r.acknoOut, _))

/-- The segment starts before the ackno, reaches past it and finds room. -/
def Straddles (r : TCPReceiver) (seg : TCPSegment) : Prop :=
  r.Takes seg ∧ seg.header.syn = false ∧ seg.header.seqno ≠ r.ackno ∧
    r.segmentIndex seg < r.streamOut.bytesWritten ∧
    r.streamOut.bytesWritten < r.segmentIndex seg + seg.payload.length ∧
    0 < r.streamOut.remainingCapacity

instance (r : TCPReceiver) (seg : TCPSegment) : Decidable (r.Straddles seg) :=
  inferInstanceAs (Decidable (_ ∧ _))

def NoStraddle (r : TCPReceiver) : Op → Prop
  | .segment seg => ¬ r.Straddles seg
  | .read _ => True

instance (r : TCPReceiver) : ∀ op, Decidable (r.NoStraddle op)
  | .segment seg => inferInstanceAs (Decidable (¬ r.Straddles seg))
  | .read _ => isTrue trivial

/-- The counter, where a SYN has fixed it, is in step with the stream. -/
def Counted (r : TCPReceiver) : Prop := r.syn = true → r.ackno = wrap r.nextExpected r.isn

theorem Counted.acknoExact {r : TCPReceiver} (h : r.Counted) : r.AcknoExact := by
  intro a ha
  rw [Option.mem_def, acknoOut] at ha
  split at ha
  · cases ha
  · rename_i hs
    push Not at hs
    cases ha
    exact h (by simpa using hs.2)

section
variable {r : TCPReceiver} {seg : TCPSegment}

/-- What is written starts at the ackno, unless the segment straddles it. -/
theorem Taken.at_ackno {r' : TCPReceiver} {w : List UInt8} (h : r.Inv) (hc : r.Counted)
    (ht : r.Takes seg) (hn : ¬ r.Straddles seg) (hw : Taken r seg r' w)
    (hsyn : seg.header.syn = false) (hne : w ≠ []) : r.ackno = seg.header.seqno := by
  by_contra hack
  obtain ⟨hle, hlt⟩ := hw.pushed.covers hne
  have hhead := h.re.written
  have hroom : 0 < r.streamOut.remainingCapacity :=
    Nat.lt_of_lt_of_le (List.length_pos_iff.mpr hne) hw.pushed.length_le
  rcases Nat.lt_or_ge (r.segmentIndex seg) r.streamOut.bytesWritten with hlo | hhi
  · refine hn ⟨ht, hsyn, fun h => hack h.symm, hlo, ?_, hroom⟩
    simp only [streamOut, ByteStream.bytesWritten]
    omega
  · -- the index is the head, so the seqno is the ackno
    have hidx : r.segmentIndex seg = r.streamOut.bytesWritten := by
      simp only [streamOut, ByteStream.bytesWritten] at hhi ⊢
      omega
    have hr : r.syn = true := by
      rcases ht with ⟨hs, -⟩ | ⟨-, hs, -⟩
      · rw [hsyn] at hs; cases hs
      · exact hs
    have hseq := wrap_segmentIndex (r := r) hsyn
    rw [hidx] at hseq
    apply hack
    rw [hc hr, ← hseq, nextExpected, ByteStream.inputEnded, ht.open h, Nat.add_comm 1]
    rfl

theorem Taken.moves {r' : TCPReceiver} {w : List UInt8} (h : r.Inv) (hc : r.Counted)
    (ht : r.Takes seg) (hn : ¬ r.Straddles seg) (hw : Taken r seg r' w) :
    (if r.ackno = seg.header.seqno ∨ seg.header.syn = true then w.length else 0) = w.length := by
  split
  · rfl
  · rename_i hne
    push Not at hne
    have hnil : w = [] := by
      by_contra hw0
      exact hne.1 (hw.at_ackno h hc ht hn (by simpa using hne.2) hw0)
    rw [hnil, List.length_nil]

/-- The counter moves by what is written, when the segment starts at it or carries SYN, and by one
for the end of the stream. -/
theorem Taken.ackno_eq {r' : TCPReceiver} {w : List UInt8} {p : Nat} {isn : WrappingInt32}
    (hw : Taken r seg r' w)
    (hbase : (if seg.header.syn then seg.header.seqno.add 1 else r.ackno) = wrap p isn) :
    r'.ackno = wrap (p +
      (if r.ackno = seg.header.seqno ∨ seg.header.syn = true then w.length else 0) +
      (if r'.streamOut.inputEnd then 1 else 0)) isn := by
  have hdata : (if r.ackno = seg.header.seqno ∨ seg.header.syn = true then
      (wrap p isn).add (UInt32.ofNat w.length) else wrap p isn) = wrap (p +
      (if r.ackno = seg.header.seqno ∨ seg.header.syn = true then w.length else 0)) isn := by
    split
    · exact wrap_add p w.length isn
    · rfl
  have hack := hw.ackno
  simp only [hbase, hdata] at hack
  rw [hack, hw.ended]
  cases r'.finNotCount with
  | true => rfl
  | false => exact wrap_add _ 1 isn

theorem Counted.segmentReceived (hc : r.Counted) (h : r.Inv) (hn : ¬ r.Straddles seg) :
    (r.segmentReceived seg).Counted := by
  by_cases ht : r.Takes seg
  · obtain ⟨w, hw⟩ := segmentReceived_taken h ht
    intro _
    have hopen := ht.open h
    have hwr := hw.pushed.written
    -- where the counter starts from
    have hbase : (if seg.header.syn then seg.header.seqno.add 1 else r.ackno) =
        wrap (1 + r.streamOut.written) (r.segmentReceived seg).isn := by
      rw [hw.isn]
      rcases ht with ⟨hs, hl⟩ | ⟨hs, hsyn, -⟩
      · have h0 : r.streamOut.written = 0 := by
          rw [streamOut, h.re.written]
          exact (h.listen hl).2
        rw [if_pos hs, if_pos hs, h0]
        exact add_one_eq_wrap _
      · rw [hs, if_neg Bool.false_ne_true, if_neg Bool.false_ne_true, hc hsyn, nextExpected,
          ByteStream.inputEnded, hopen]
        rfl
    -- it moves by all that is written
    rw [hw.ackno_eq hbase, hw.moves h hc ht hn, nextExpected, ByteStream.inputEnded,
      ByteStream.bytesWritten, streamOut, streamOut, hwr, Nat.add_assoc 1]
  · rw [segmentReceived_idle h ht]
    exact hc

theorem Counted.step {op : Op} (hc : r.Counted) (h : r.Inv) (hn : r.NoStraddle op) :
    (r.step op).Counted := by
  cases op with
  | segment seg => exact hc.segmentReceived h hn
  | read n => exact hc

end

theorem counted_mk {capacity : Nat} {r : TCPReceiver} (h : mk? capacity = some r) : r.Counted := by
  intro hs
  rw [(inv_mk h).2.2.1] at hs
  cases hs

/-- In a run in which no segment straddles the ackno, every state advertises the first
sequence number not received in order. -/
theorem ackno_exact_of_no_straddle {capacity : Nat} {r : TCPReceiver} {ops : List Op}
    (h : mk? capacity = some r) (hn : Along step NoStraddle r ops) :
    Always step AcknoExact r ops := by
  have hall : Always step (fun r => r.Inv ∧ r.Counted) r ops :=
    hn.always ⟨(inv_mk h).1, counted_mk h⟩ fun r op hi hs => ⟨hi.1.step op, hi.2.step hi.1 hs⟩
  exact hall.mono fun r hi => hi.2.acknoExact

/-- SYN, a segment that arrives early, and the one before it. -/
def reorderedOps : List Op :=
  [.segment { header := { seqno := ⟨7⟩, syn := true } },
   .segment { header := { seqno := ⟨10⟩, fin := true }, payload := [99] },
   .segment { header := { seqno := ⟨8⟩ }, payload := [97, 98] },
   .read 1]

theorem ackno_exact_reordered : ∃ r, mk? 4 = some r ∧ Along step NoStraddle r reorderedOps ∧
    Always step AcknoExact r reorderedOps :=
  ⟨_, rfl, by decide, ackno_exact_of_no_straddle (show mk? 4 = some _ from rfl) (by decide)⟩

/-- SYN, two bytes, and then the same two and one more in one segment. -/
def overlapOps : List Op :=
  [.segment { header := { seqno := ⟨7⟩, syn := true } },
   .segment { header := { seqno := ⟨8⟩ }, payload := [97, 98] },
   .segment { header := { seqno := ⟨8⟩ }, payload := [97, 98, 99] }]

/-- After the overlap three bytes are written and two are acknowledged. -/
theorem ackno_behind_after_overlap : ∃ r, mk? 4 = some r ∧
    (run step r overlapOps).streamOut.bytesWritten = 3 ∧
    (run step r overlapOps).acknoOut = some (wrap 3 ⟨7⟩) ∧
    ¬ Always step AcknoExact r overlapOps :=
  ⟨_, rfl, by decide, by decide, by decide⟩

end TCPReceiver

end Sponge
