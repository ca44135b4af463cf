import Sponge.Connection.Calls

/-!
# Answers

A segment that occupies sequence numbers is answered with the receiver's ackno
and window, by what the ack lets the sender send or by an empty segment. A
segment that occupies none is never answered with another one of its kind, so
two idle endpoints do not answer each other's acks for ever.
-/

namespace Sponge

open Lib

namespace TCPConnection

/-- The segment carries the ackno of the receiver and its window, in the 16 bits of the field. -/
def Acks (r : TCPReceiver) (seg : TCPSegment) : Prop :=
  seg.header.ack = true ∧ r.acknoOut = some seg.header.ackno ∧
    seg.header.win = UInt16.ofNat r.windowSize

instance (r : TCPReceiver) (seg : TCPSegment) : Decidable (Acks r seg) :=
  inferInstanceAs (Decidable (_ ∧ _ ∧ _))

/-- The answer to `seg`: a segment that occupies sequence numbers gets its ack, one that
occupies none gets no segment of its kind. -/
structure Answered (c : TCPConnection) (seg : TCPSegment) (c' : TCPConnection) : Prop where
  queue : c'.segmentsOut = c.segmentsOut ++ added c c'
  acks : 0 < seg.lengthInSequenceSpace → c'.receiver.acknoOut.isSome →
    added c c' ≠ [] ∧ ∀ out ∈ added c c', Acks c'.receiver out
  noEcho : seg.lengthInSequenceSpace = 0 → ∀ out ∈ added c c', 0 < out.lengthInSequenceSpace

section
variable {c c' : TCPConnection} {seg : TCPSegment}

theorem stamp_acks (h : c.receiver.acknoOut.isSome) (seg : TCPSegment) :
    Acks c.receiver (c.stamp seg) := by
  obtain ⟨ackno, ha⟩ := Option.isSome_iff_exists.mp h
  unfold Acks stamp
  rw [ha]
  cases c.needSendRst <;> exact ⟨rfl, rfl, rfl⟩

/-- A segment with an ack lets the sender push only segments that occupy sequence numbers. -/
theorem begun_out_pos (h : c.Live) (hacc : c.Accepts seg) :
    ∀ out ∈ (c.begun (.segmentReceived seg)).sender.segmentsOut, 0 < out.lengthInSequenceSpace := by
  rw [begun_sender hacc]
  split
  · obtain ⟨new, hout, hnew⟩ := TCPSender.ackReceived_out c.sender seg.header.ackno seg.header.win
    rw [hout, h.sender.out, List.nil_append]
    exact hnew
  · rw [h.sender.out]
    rintro _ ⟨⟩

theorem answered_of_sent {b : TCPConnection} (hout : b.segmentsOut = c.segmentsOut)
    (hack : 0 < seg.lengthInSequenceSpace → b.receiver.acknoOut.isSome →
      b.sender.fillWindow.segmentsOut ≠ [])
    (hpos : seg.lengthInSequenceSpace = 0 →
      ∀ out ∈ b.sender.segmentsOut, 0 < out.lengthInSequenceSpace) :
    Answered c seg b.sent.cleanShutdown := by
  obtain ⟨hq, hr⟩ := sent_cleanShutdown b
  rw [hout] at hq
  have hadd := added_eq hq
  refine ⟨by rw [hadd]; exact hq, fun hlen hackno => ?_, fun hlen out hm => ?_⟩
  · rw [hr] at hackno ⊢
    rw [hadd]
    refine ⟨by simpa using hack hlen hackno, fun out hm => ?_⟩
    obtain ⟨s, -, rfl⟩ := List.mem_map.mp hm
    exact stamp_acks hackno s
  · rw [hadd] at hm
    obtain ⟨s, hs, rfl⟩ := List.mem_map.mp hm
    obtain ⟨new, hnew, -, hall⟩ := TCPSender.fillWindow_out b.sender
    rw [stamp_length]
    rw [hnew, List.mem_append] at hs
    rcases hs with hs | hs
    · exact hpos hlen s hs
    · exact (hall s hs).1

theorem answered (h : c.Live) (hacc : c.Accepts seg) (hrst : seg.header.rst = false) :
    Answered c seg (c.step (.segmentReceived seg)) := by
  have hends := step_ends h hacc.1 (.segmentReceived seg)
  have hframe := begun_frame c (.segmentReceived seg)
  have hout : (c.begun (.segmentReceived seg)).segmentsOut = c.segmentsOut := by rw [hframe]
  generalize c.step (.segmentReceived seg) = c' at hends
  cases hends with
  | listening _ hl _ _ hseg =>
    -- nothing is sent, and the receiver has no ackno
    have hs : c.sender.syn = false := by
      rw [hframe] at hl
      exact h.synSended.symm.trans hl
    have hlisten := (begun_listening h hs fun s ho => ⟨(hseg s ho).1, (hseg s ho).2.1⟩).2.2
    have hadd : added c (c.begun (.segmentReceived seg)) = [] := added_eq (by rw [hout]; simp)
    refine ⟨by rw [hadd, hout]; simp, fun _ hackno => ?_, by rw [hadd]; rintro _ _ ⟨⟩⟩
    rw [acknoOut_listening hlisten] at hackno
    cases hackno
  | ignored _ _ hno =>
    rw [(hno hacc).1] at hrst
    cases hrst
  | sends _ _ _ hseg => exact answered_of_sent hout (hseg seg rfl).2 fun _ => begun_out_pos h hacc
  | answers _ _ _ hlen =>
    refine answered_of_sent (b := { c.begun (.segmentReceived seg) with
      sender := (c.begun (.segmentReceived seg)).sender.sendEmptySegment }) hout
      (fun _ _ => fillWindow_out_ne_nil (by simp [TCPSender.sendEmptySegment])) fun h0 => ?_
    omega
  | resets _ _ hr =>
    rw [hr] at hrst
    cases hrst

end

/-- **Every segment that occupies sequence numbers is answered**, and acks are not: for a segment
without RST that comes to a connection in a state of any run, unless it carries data and an ack
before SYN is acknowledged. -/
theorem segment_answered (cfg : TCPConfig) (random : UInt32) (c0 : TCPConnection) (ops : List Op)
    (seg : TCPSegment) (h : mk? cfg random = some c0) (ha : (run step c0 ops).active = true)
    (hrst : seg.header.rst = false)
    (hsyn : ¬ ((run step c0 ops).sender.stateSummary = .synSent ∧ seg.header.ack = true ∧
      seg.payload.length ≠ 0)) :
    Answered (run step c0 ops) seg ((run step c0 ops).step (.segmentReceived seg)) :=
  answered (alive_run h ops ha) ⟨ha, hsyn⟩ hrst

/-- The handshake of a connection that opens, with a window of one. -/
def openedOps : List Op :=
  [.connect, .segmentReceived { header :=
    { syn := true, ack := true, seqno := ⟨40⟩, ackno := ⟨8⟩, win := 1 } }]

def nextByte : TCPSegment :=
  { header := { ack := true, seqno := ⟨41⟩, ackno := ⟨8⟩, win := 1 }, payload := [97] }

/-- A byte on an established connection is acknowledged by one segment. -/
theorem segment_answered_byte : ∃ c0, mk? { fixedIsn := some ⟨7⟩ } 0 = some c0 ∧
    ((run step c0 openedOps).step (.segmentReceived nextByte)).receiver.acknoOut = some ⟨42⟩ ∧
    ∃ out, added (run step c0 openedOps)
        ((run step c0 openedOps).step (.segmentReceived nextByte)) = [out] ∧
      Acks ((run step c0 openedOps).step (.segmentReceived nextByte)).receiver out ∧
      out.header.ackno = ⟨42⟩ := by
  refine ⟨_, rfl, by decide, ?_⟩
  obtain ⟨-, hall⟩ := (segment_answered { fixedIsn := some ⟨7⟩ } 0 _ openedOps nextByte rfl
    (by decide) (by decide) (by decide)).acks (by decide) (by decide)
  exact ⟨_, rfl, hall _ List.mem_cons_self, rfl⟩

end TCPConnection

end Sponge
