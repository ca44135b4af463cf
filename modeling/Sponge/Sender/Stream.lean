import Sponge.Lib.Pieces
import Sponge.Sender.Window

/-!
# The stream in the sender's segments

`W` is what the application has written before FIN is sent; what it writes later
stays in the stream for good. `Carries W ended isn p seg` says what a segment at
the absolute sequence number `p` holds: SYN alone at 0, and otherwise the bytes
of `W` from `p - 1` on, with FIN only when `W` has ended, behind its last byte.
`Reading W s` ties `nextSeqno` to what has been read from the stream; every
segment that is sent carries what it should (`fillWindow_sends`).

A `Transcript` lists the segments of a run in the order they are first sent.
-/

namespace Sponge

open Lib

/-- The segments with their absolute sequence numbers, the first one at `p`. -/
def numbered : Nat → List TCPSegment → List (Nat × TCPSegment)
  | _, [] => []
  | p, seg :: segs => (p, seg) :: numbered (p + seg.lengthInSequenceSpace) segs

theorem mem_numbered {p n : Nat} {segs : List TCPSegment} {seg : TCPSegment} :
    (n, seg) ∈ numbered p segs ↔
      ∃ pre post, segs = pre ++ seg :: post ∧ n = p + seqLength pre := by
  induction segs generalizing p with
  | nil => simp [numbered]
  | cons s segs ih =>
    simp only [numbered, List.mem_cons, Prod.mk.injEq, ih]
    constructor
    · rintro (⟨rfl, rfl⟩ | ⟨pre, post, rfl, rfl⟩)
      · exact ⟨[], segs, rfl, rfl⟩
      · exact ⟨s :: pre, post, rfl, by rw [seqLength_cons, Nat.add_assoc]⟩
    · rintro ⟨pre, post, heq, rfl⟩
      cases pre with
      | nil =>
        obtain ⟨rfl, -⟩ := List.cons.inj heq
        exact .inl ⟨rfl, rfl⟩
      | cons s' pre =>
        obtain ⟨rfl, rfl⟩ := List.cons.inj heq
        exact .inr ⟨pre, post, rfl, by rw [seqLength_cons, Nat.add_assoc]⟩

theorem numbered_append (p : Nat) (a b : List TCPSegment) :
    numbered p (a ++ b) = numbered p a ++ numbered (p + seqLength a) b := by
  induction a generalizing p with
  | nil => rfl
  | cons seg a ih => simp only [List.cons_append, numbered, ih, seqLength_cons, Nat.add_assoc]

/-- The queued segments with their absolute sequence numbers. -/
def TCPSender.outstanding (s : TCPSender) : List (Nat × TCPSegment) :=
  numbered s.firstSeqno s.segmentsInFlight

/-- What the segment at the absolute sequence number `p` holds of the stream `W`. -/
structure Carries (W : List UInt8) (ended : Bool) (isn : WrappingInt32) (p : Nat)
    (seg : TCPSegment) : Prop where
  syn : p = 0 → seg = { header := { seqno := wrap 0 isn, syn := true } }
  header : p ≠ 0 → seg.header = { seqno := wrap p isn, fin := seg.header.fin }
  nonempty : 0 < seg.lengthInSequenceSpace
  size : seg.payload.length ≤ TCPConfig.MAX_PAYLOAD_SIZE
  slice : p ≠ 0 → SliceAt W (p - 1) seg.payload
  fin : seg.header.fin = true → ended = true ∧ p + seg.payload.length = W.length + 1

namespace Carries

variable {W d : List UInt8} {ended ended' : Bool} {isn : WrappingInt32} {p : Nat} {seg : TCPSegment}

theorem seqno (h : Carries W ended isn p seg) : seg.header.seqno = wrap p isn := by
  by_cases hp : p = 0
  · rw [h.syn hp, hp]
  · rw [h.header hp]

theorem ack (h : Carries W ended isn p seg) : seg.header.ack = false := by
  by_cases hp : p = 0
  · rw [h.syn hp]
  · rw [h.header hp]

theorem syn_iff (h : Carries W ended isn p seg) : seg.header.syn = true ↔ p = 0 := by
  constructor
  · intro hs
    by_contra hp
    rw [h.header hp] at hs
    cases hs
  · intro hp
    rw [h.syn hp]

theorem ends (h : Carries W ended isn p seg) (he : ended = true → ended' = true) :
    Carries W ended' isn p seg :=
  ⟨h.syn, h.header, h.nonempty, h.size, h.slice, fun hf => ⟨he (h.fin hf).1, (h.fin hf).2⟩⟩

/-- The stream may grow as long as it has not ended. -/
theorem grow (h : Carries W ended isn p seg) (hd : ended = true → d = []) :
    Carries (W ++ d) ended isn p seg where
  syn := h.syn
  header := h.header
  nonempty := h.nonempty
  size := h.size
  slice hp := (h.slice hp).mono d
  fin hf := by
    obtain ⟨h1, h2⟩ := h.fin hf
    rw [hd h1, List.append_nil]
    exact ⟨h1, h2⟩

/-- All of the segment lies in SYN, the stream and FIN. -/
theorem stop_le (h : Carries W ended isn p seg) :
    p + seg.lengthInSequenceSpace ≤ W.length + 1 + (if seg.header.fin then 1 else 0) := by
  by_cases hp : p = 0
  · rw [h.syn hp, hp]
    simp [TCPSegment.lengthInSequenceSpace]
  · rw [TCPSegment.lengthInSequenceSpace, h.header hp]
    simp only [Bool.false_eq_true, if_false]
    cases hf : seg.header.fin with
    | true =>
      have := (h.fin hf).2
      simp only [if_true]
      omega
    | false =>
      -- without FIN the payload is not empty and lies in the stream
      have hne := h.nonempty
      rw [TCPSegment.lengthInSequenceSpace, h.header hp, hf] at hne
      simp only [Bool.false_eq_true, if_false] at hne ⊢
      have hle := (h.slice hp).length_le (List.length_pos_iff.mp hne)
      omega

end Carries

namespace TCPSender

/-- What the sender will still read from its stream. -/
def unread (s : TCPSender) : List UInt8 := if s.fin then [] else s.stream.buffer

/-- `nextSeqno` counts SYN, what has been read from the stream `W`, and FIN. -/
structure Reading (W : List UInt8) (s : TCPSender) : Prop where
  buffer : ∃ taken, W = taken ++ s.unread ∧
    (s.syn = true → s.nextSeqno = 1 + taken.length + (if s.fin then 1 else 0)) ∧
    (s.syn = false → taken = [])
  unstarted : s.syn = false → s.nextSeqno = 0 ∧ s.fin = false
  fin : s.fin = true → s.stream.inputEnd = true

section
variable {W : List UInt8} {s t e : TCPSender} {win : Nat} {seg : TCPSegment}

theorem reading_new (capacity : Nat) (retxTimeout : UInt16) (fixedIsn : Option WrappingInt32)
    (random : UInt32) : Reading [] (new capacity retxTimeout fixedIsn random) :=
  ⟨⟨[], rfl, by rintro ⟨⟩, fun _ => rfl⟩, fun _ => ⟨rfl, rfl⟩, by rintro ⟨⟩⟩

theorem Reading.same (h : Reading W s) (ht : Same s t) : Reading W t where
  buffer := by rw [unread, ht.fin, ht.buffer, ht.syn, ht.nextSeqno]; exact h.buffer
  unstarted := by rw [ht.syn, ht.nextSeqno, ht.fin]; exact h.unstarted
  fin := by rw [ht.fin, ht.inputEnd]; exact h.fin

theorem Reading.acked {absAckno : Nat} {popped : List TCPSegment} {w : UInt16} (h : Reading W s)
    (ha : Acked { s with windowSize := w } absAckno e popped) : Reading W e := by
  rw [ha.eq]
  exact ⟨h.buffer, h.unstarted, h.fin⟩

theorem Same.outstanding (ht : Same s t) : t.outstanding = s.outstanding := by
  rw [TCPSender.outstanding, TCPSender.outstanding, ht.firstSeqno, ht.segmentsInFlight]

theorem Reading.nextSeqno_le (h : Reading W s) : s.nextSeqno ≤ W.length + 2 := by
  obtain ⟨taken, hW, hnext, -⟩ := h.buffer
  have hlen := congrArg List.length hW
  rw [List.length_append] at hlen
  cases hs : s.syn with
  | false =>
    have := (h.unstarted hs).1
    omega
  | true =>
    have := hnext hs
    split at this <;> omega

/-- What is written before FIN is sent is read; what is written later is not. -/
theorem Reading.write (h : Reading W s) (data : List UInt8) :
    Reading (W ++ if s.fin then [] else data.take (s.stream.write data).2) (s.write data) := by
  obtain ⟨taken, hW, hnext, hnone⟩ := h.buffer
  refine ⟨⟨taken, ?_, hnext, hnone⟩, h.unstarted, h.fin⟩
  rw [hW, List.append_assoc]
  unfold unread TCPSender.write
  cases s.fin <;> rfl

theorem Reading.turn (h : Reading W s) (hs : s.syn = true) (ht : Turn win s seg t) :
    Reading W t ∧ Carries W t.fin s.isn s.nextSeqno seg := by
  obtain ⟨taken, hW, hnext, -⟩ := h.buffer
  have hnext := hnext hs
  rw [unread, ht.unfinished] at hW
  rw [ht.unfinished] at hnext
  simp only [Bool.false_eq_true, if_false, Nat.add_zero] at hnext hW
  obtain ⟨len, hlen⟩ : ∃ len, len = min (s.remain win) TCPConfig.MAX_PAYLOAD_SIZE := ⟨_, rfl⟩
  have hpay := ht.payload
  have hst := ht.stream
  have hfin := ht.fin_iff
  rw [← hlen] at hpay hst hfin
  have hseglen := ht.length_eq
  have hrest : t.unread = t.stream.buffer := by
    rw [unread, ht.fin]
    split
    · -- FIN goes behind the last byte
      rename_i hf
      rw [hst, ByteStream.popOutput_buffer]
      exact (List.drop_eq_nil_iff.mpr (hfin.mp hf).1).symm
    · rfl
  have hW' : W = (taken ++ seg.payload) ++ t.unread := by
    rw [hrest, hst, ByteStream.popOutput_buffer, hpay, List.append_assoc, List.take_append_drop]
    exact hW
  constructor
  · refine ⟨⟨taken ++ seg.payload, hW', ?_, ?_⟩, ?_, ?_⟩
    · intro _
      rw [ht.sent.nextSeqno, hnext, hseglen, ht.fin, List.length_append]
      omega
    · intro h'
      rw [ht.syn, hs] at h'
      cases h'
    · intro h'
      rw [ht.syn, hs] at h'
      cases h'
    · intro hf
      rw [ht.fin] at hf
      rw [hst]
      exact (hfin.mp hf).2.1
  · exact {
      syn := fun hp => by omega
      header := fun _ => ht.header
      nonempty := ht.sent.nonempty
      size := by
        rw [hpay, List.length_take]
        omega
      slice := fun _ => by
        have hpre : SliceAt W 0 (taken ++ seg.payload) := sliceAt_zero_iff.mpr ⟨_, hW'.symm⟩
        have hcut := hpre.drop taken.length
        rw [List.drop_left] at hcut
        rwa [hnext, Nat.add_sub_cancel_left, ← Nat.zero_add taken.length]
      fin := fun hf => by
        refine ⟨ht.fin.trans hf, ?_⟩
        have hl := congrArg List.length hW'
        rw [unread, ht.fin, hf, if_pos rfl, List.append_nil, List.length_append] at hl
        omega }

theorem Reading.synSent (h : Reading W s) (hs : s.syn = false) :
    Reading W s.fillWindow ∧ Carries W s.fillWindow.fin s.isn s.nextSeqno s.synSegment := by
  obtain ⟨hsent, hsyn, hfin, hst⟩ := fillWindow_syn hs
  obtain ⟨hzero, hopen⟩ := h.unstarted hs
  obtain ⟨taken, hW, -, htaken⟩ := h.buffer
  have hlen : s.synSegment.lengthInSequenceSpace = 1 := rfl
  constructor
  · refine ⟨⟨taken, by rw [unread, hst, hfin]; exact hW, ?_, ?_⟩, ?_, ?_⟩
    · intro _
      rw [hsent.nextSeqno, hlen, hfin, hopen, hzero, htaken hs]
      rfl
    · intro h'
      rw [hsyn] at h'
      cases h'
    · intro h'
      rw [hsyn] at h'
      cases h'
    · intro hf
      rw [hfin, hopen] at hf
      cases hf
  · exact {
      syn := fun _ => by rw [synSegment, hzero]
      header := fun hp => absurd hzero hp
      nonempty := hsent.nonempty
      size := Nat.zero_le _
      slice := fun hp => absurd hzero hp
      fin := by rintro ⟨⟩ }

/-- `fillWindow` queues and sends a list of new segments, and each carries what it should. -/
structure Sends (W : List UInt8) (s : TCPSender) (new : List TCPSegment) (t : TCPSender) :
    Prop where
  reading : Reading W t
  carries : ∀ n seg, (n, seg) ∈ numbered s.nextSeqno new → Carries W t.fin s.isn n seg
  nextSeqno : t.nextSeqno = s.nextSeqno + seqLength new
  segmentsInFlight : t.segmentsInFlight = s.segmentsInFlight ++ new
  segmentsOut : t.segmentsOut = s.segmentsOut ++ new
  isn : t.isn = s.isn
  fin : s.fin = true → t.fin = true

theorem Sends.snoc {new : List TCPSegment} (h : Sends W s new t) (ht : Sent t seg e)
    (hr : Reading W e) (hc : Carries W e.fin t.isn t.nextSeqno seg)
    (he : t.fin = true → e.fin = true) : Sends W s (new ++ [seg]) e where
  reading := hr
  carries n seg' hm := by
    rw [numbered_append, List.mem_append] at hm
    rcases hm with hm | hm
    · exact (h.carries n seg' hm).ends he
    · simp only [numbered, List.mem_singleton, Prod.mk.injEq] at hm
      obtain ⟨rfl, rfl⟩ := hm
      rw [← h.nextSeqno, ← h.isn]
      exact hc
  nextSeqno := by rw [ht.nextSeqno, h.nextSeqno, seqLength_append, seqLength_cons, seqLength_nil,
    Nat.add_zero, Nat.add_assoc]
  segmentsInFlight := by rw [ht.segmentsInFlight, h.segmentsInFlight, List.append_assoc]
  segmentsOut := by rw [ht.segmentsOut, h.segmentsOut, List.append_assoc]
  isn := ht.isn.trans h.isn
  fin hf := he (h.fin hf)

theorem Sends.nil (h : Reading W s) : Sends W s [] s :=
  ⟨h, by simp [numbered], rfl, by simp, by simp, rfl, fun hf => hf⟩

theorem fillWindow_sends (h : Reading W s) : ∃ new, Sends W s new s.fillWindow := by
  refine fillWindow_inv (P := fun t => ∃ new, Sends W s new t) ?_ ?_ ?_
  · intro hs
    obtain ⟨hr, hc⟩ := h.synSent hs
    refine ⟨_, (Sends.nil h).snoc (fillWindow_syn hs).1 hr hc fun hf => ?_⟩
    rw [(fillWindow_syn hs).2.2.1]
    exact hf
  · intro b
    exact ⟨[], h.same (same_setZero s b), by simp [numbered], rfl, by simp, by simp, rfl,
      fun hf => hf⟩
  · rintro s' seg t hs ht ⟨new, hn⟩
    obtain ⟨hr, hc⟩ := hn.reading.turn hs ht
    exact ⟨_, hn.snoc ht.sent hr hc (by rw [ht.unfinished]; rintro ⟨⟩)⟩

end

end TCPSender

end Sponge
