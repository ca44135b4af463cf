import Sponge.Connection.Silence
import Sponge.Receiver.Step
import Sponge.Sender.Rest

/-!
# One call on an active connection

`Ends c op c'` lists the ways a call can end once the sender or the receiver has
had its argument (`begun`): nothing is sent, the window is filled and the queue
of the sender is moved out (`sent`), an empty segment answers, the peer's RST or
the retransmission limit shuts the connection down. `step_ends` says that each
call on a live connection ends in one of them; the properties of runs take a
call apart with it and do not unfold it.

`Live` is what holds of an active connection between two calls.
-/

namespace Sponge

open Lib

namespace TCPConnection

/-- The window is filled, and what the sender has pushed is moved out. -/
def sent (c : TCPConnection) : TCPConnection :=
  { c with
    synSended := true
    segmentsOut := c.segmentsOut ++ c.sender.fillWindow.segmentsOut.map c.stamp
    sender := { c.sender.fillWindow with segmentsOut := [] } }

/-- The time since the last segment was received, with the operation taken into account. -/
def timeAfter (c : TCPConnection) : Op → Nat
  | .tick ms => (c.timeSinceLastSegmentReceived + ms) % 2 ^ 64
  | .segmentReceived _ => 0
  | .connect | .write _ | .endInputStream | .read _ => c.timeSinceLastSegmentReceived

/-- The sender or the receiver has had the argument of the operation, and the clock is set. -/
def begun (c : TCPConnection) (op : Op) : TCPConnection :=
  { c.front op with timeSinceLastSegmentReceived := c.timeAfter op }

/-- How a call ends. -/
inductive Ends (c : TCPConnection) : Op → TCPConnection → Prop where
  | listening (op : Op) : (c.begun op).synSended = false → op ≠ .connect →
      ¬ (c.begun op).sender.consecutiveRetrans > TCPConfig.MAX_RETX_ATTEMPTS →
      (∀ seg, op = .segmentReceived seg →
        c.Accepts seg ∧ seg.header.syn = false ∧ seg.header.rst = false) →
      Ends c op (c.begun op)
  | read (n : Nat) : Ends c (.read n) (c.begun (.read n))
  | ignored (seg : TCPSegment) : (c.begun (.segmentReceived seg)).sender = c.sender →
      (c.Accepts seg → seg.header.rst = true ∧ c.sender.syn = true) →
      Ends c (.segmentReceived seg) (c.begun (.segmentReceived seg))
  | sends (op : Op) :
      ((c.begun op).synSended = true ∨ op = .connect ∨
        ∃ seg, op = .segmentReceived seg ∧ seg.header.syn = true) →
      ¬ (c.begun op).sender.consecutiveRetrans > TCPConfig.MAX_RETX_ATTEMPTS →
      (∀ seg, op = .segmentReceived seg → c.Accepts seg ∧ (0 < seg.lengthInSequenceSpace →
        (c.begun op).receiver.acknoOut.isSome → (c.begun op).sender.fillWindow.segmentsOut ≠ [])) →
      Ends c op (c.begun op).sent.cleanShutdown
  | answers (seg : TCPSegment) : (c.begun (.segmentReceived seg)).synSended = true →
      c.Accepts seg → 0 < seg.lengthInSequenceSpace →
      (c.begun (.segmentReceived seg)).receiver.acknoOut.isSome →
      (c.begun (.segmentReceived seg)).sender.segmentsOut = [] →
      Ends c (.segmentReceived seg) (TCPConnection.sent { c.begun (.segmentReceived seg) with
        sender := (c.begun (.segmentReceived seg)).sender.sendEmptySegment }).cleanShutdown
  | resets (seg : TCPSegment) : c.Accepts seg → seg.header.rst = true →
      Ends c (.segmentReceived seg) ((c.begun (.segmentReceived seg)).uncleanShutdown false)
  | givesUp (ms : Nat) :
      (c.begun (.tick ms)).sender.consecutiveRetrans > TCPConfig.MAX_RETX_ATTEMPTS →
      Ends c (.tick ms) (((c.begun (.tick ms)).uncleanShutdown true).segmentSends false)

/-- What the call that turns `c` into `c'` adds to the outgoing queue. -/
def added (c c' : TCPConnection) : List TCPSegment := c'.segmentsOut.drop c.segmentsOut.length

/-- What holds of an active connection between two calls. -/
structure Live (c : TCPConnection) : Prop where
  sender : c.sender.AtRest
  synSended : c.synSended = c.sender.syn
  receiver : c.receiver.Inv
  listens : c.sender.syn = false → c.receiver.syn = false
  noRst : c.needSendRst = false
  inbound : c.receiver.streamOut.error = false
  retrans : ¬ c.sender.consecutiveRetrans > TCPConfig.MAX_RETX_ATTEMPTS

section
variable {c : TCPConnection}

theorem segmentSends_eq_self (h : c.synSended = false) : c.segmentSends false = c :=
  if_pos ⟨rfl, h⟩

theorem segmentSends_eq_sent {sendSyn : Bool} (h : sendSyn = true ∨ c.synSended = true) :
    c.segmentSends sendSyn = c.sent.cleanShutdown :=
  if_neg (by rcases h with h | h <;> simp [h])

theorem hear_setTime (c : TCPConnection) (seg : TCPSegment) (time : Nat) :
    TCPConnection.hear { c with timeSinceLastSegmentReceived := time } seg =
      { c.hear seg with timeSinceLastSegmentReceived := time } := by
  unfold hear acceptAck
  split <;> rfl

theorem begun_tick (ha : c.active = true) (ms : Nat) : c.begun (.tick ms) = { c with
    timeSinceLastSegmentReceived := (c.timeSinceLastSegmentReceived + ms) % 2 ^ 64
    sender := c.sender.tick ms } := by
  rw [begun, front, if_neg (by simp [ha])]
  rfl

theorem begun_accepted {seg : TCPSegment} (hacc : c.Accepts seg) :
    c.begun (.segmentReceived seg) = { c.hear seg with timeSinceLastSegmentReceived := 0 } := by
  rw [begun, front, if_pos hacc]
  rfl

theorem begun_refused {seg : TCPSegment} (hacc : ¬ c.Accepts seg) :
    c.begun (.segmentReceived seg) = { c with timeSinceLastSegmentReceived := 0 } := by
  rw [begun, front, if_neg hacc]
  rfl

/-- An accepted segment is replied to. -/
theorem segmentReceived_accepted {seg : TCPSegment} (hacc : c.Accepts seg) :
    c.segmentReceived seg = (c.begun (.segmentReceived seg)).reply seg := by
  rw [begun_accepted hacc, ← hear_setTime]
  unfold TCPConnection.segmentReceived
  rw [if_neg (by simp [hacc.1])]
  simp only
  rw [if_neg hacc.2]
  rfl

theorem segmentReceived_refused {seg : TCPSegment} (ha : c.active = true) (hacc : ¬ c.Accepts seg) :
    c.segmentReceived seg = c.begun (.segmentReceived seg) := by
  rw [begun_refused hacc]
  unfold TCPConnection.segmentReceived
  rw [if_neg (by simp [ha])]
  simp only
  rw [if_pos]
  by_contra hn
  exact hacc ⟨ha, hn⟩

/-- The sender with the ack of the segment, if it is looked at. -/
theorem begun_sender {seg : TCPSegment} (hacc : c.Accepts seg) :
    (c.begun (.segmentReceived seg)).sender =
      if seg.header.ack = true ∧ 0 < c.sender.nextSeqno then
        c.sender.ackReceived seg.header.ackno seg.header.win else c.sender := by
  rw [begun_accepted hacc]
  unfold hear acceptAck
  by_cases h : seg.header.ack = true ∧ 0 < c.sender.nextSeqno
  · rw [if_pos h, if_pos (by simp [h])]
  · rw [if_neg h, if_neg (by simpa using h)]

theorem begun_receiver {seg : TCPSegment} (hacc : c.Accepts seg) :
    (c.begun (.segmentReceived seg)).receiver = c.receiver.segmentReceived seg := by
  rw [begun_accepted hacc]
  show (c.acceptAck seg).receiver.segmentReceived seg = _
  rw [acceptAck_receiver]

theorem stamp_length (c : TCPConnection) (seg : TCPSegment) :
    (c.stamp seg).lengthInSequenceSpace = seg.lengthInSequenceSpace := by
  unfold stamp
  cases c.receiver.acknoOut <;> cases c.needSendRst <;> rfl

theorem stamp_rst (c : TCPConnection) (seg : TCPSegment) :
    (c.stamp seg).header.rst = (seg.header.rst || c.needSendRst) := by
  unfold stamp
  cases c.receiver.acknoOut <;> cases c.needSendRst <;> simp

theorem added_eq {c' : TCPConnection} {new : List TCPSegment}
    (h : c'.segmentsOut = c.segmentsOut ++ new) : added c c' = new := by
  rw [added, h, List.drop_left]

/-- What `sent` adds: the pushed segments, stamped. -/
theorem sent_cleanShutdown (c : TCPConnection) :
    c.sent.cleanShutdown.segmentsOut =
      c.segmentsOut ++ c.sender.fillWindow.segmentsOut.map c.stamp ∧
    c.sent.cleanShutdown.receiver = c.receiver := by
  obtain ⟨active, linger, -, heq⟩ := c.sent.cleanShutdown_eq
  rw [heq]
  exact ⟨rfl, rfl⟩

theorem sent_sender (c : TCPConnection) : c.sent.cleanShutdown.sender =
    { c.sender.fillWindow with segmentsOut := [] } ∧ c.sent.cleanShutdown.synSended = true := by
  obtain ⟨active, linger, -, heq⟩ := c.sent.cleanShutdown_eq
  rw [heq]
  exact ⟨rfl, rfl⟩

theorem cleanShutdown_linger (c : TCPConnection) : c.cleanShutdown.lingerAfterStreamsFinish =
    (c.lingerAfterStreamsFinish && !(c.receiver.streamOut.inputEnded && !c.sender.stream.eof)) := by
  unfold cleanShutdown
  cases c.receiver.streamOut.inputEnded && !c.sender.stream.eof with
  | true =>
    simp only [if_true, Bool.not_true, Bool.and_false]
    split
    · split <;> rfl
    · rfl
  | false =>
    simp only [Bool.false_eq_true, if_false, Bool.not_false, Bool.and_true]
    split
    · split <;> rfl
    · rfl

/-- When `cleanShutdown` ends the connection. -/
theorem cleanShutdown_closes (ha : c.active = true) (hc : c.cleanShutdown.active = false) :
    c.receiver.streamOut.inputEnded = true ∧ c.sender.stream.eof = true ∧
      c.sender.bytesInFlight = 0 ∧ (c.lingerAfterStreamsFinish = false ∨
        10 * c.cfg.rtTimeout.toNat ≤ c.timeSinceLastSegmentReceived) := by
  unfold cleanShutdown at hc
  cases hi : c.receiver.streamOut.inputEnded with
  | false => simp [hi, ha] at hc
  | true =>
    cases he : c.sender.stream.eof with
    | false => simp [hi, he, ha] at hc
    | true =>
      by_cases hb : c.sender.bytesInFlight = 0
      · refine ⟨rfl, rfl, hb, ?_⟩
        by_contra hn
        simp [hi, he, hb, ha, hn] at hc
      · simp [hi, he, hb, ha] at hc

/-- A receiver that is waiting for SYN takes nothing else. -/
theorem segmentReceived_listening {r : TCPReceiver} {seg : TCPSegment} (h : r.Inv)
    (hs : r.syn = false) (hseg : seg.header.syn = false) : r.segmentReceived seg = r :=
  TCPReceiver.segmentReceived_idle h (by simp [TCPReceiver.Takes, hs, hseg])

theorem acknoOut_listening {r : TCPReceiver} (hs : r.syn = false) : r.acknoOut = none :=
  if_pos (.inr hs)

/-- Only a tick counts a retransmission. -/
theorem begun_retrans_le (h : ¬ c.sender.consecutiveRetrans > TCPConfig.MAX_RETX_ATTEMPTS)
    {op : Op} (ht : ∀ ms, op ≠ .tick ms) :
    ¬ (c.begun op).sender.consecutiveRetrans > TCPConfig.MAX_RETX_ATTEMPTS := by
  cases op with
  | connect | write _ | endInputStream | read _ => exact h
  | tick ms => exact absurd rfl (ht ms)
  | segmentReceived seg =>
    by_cases hacc : c.Accepts seg
    · rw [begun_sender hacc]
      split
      · rcases TCPSender.ackReceived_timer c.sender seg.header.ackno seg.header.win with
          ⟨-, hsame⟩ | ⟨-, hr, -⟩
        · rw [hsame.consecutiveRetrans]
          exact h
        · rw [hr.consecutiveRetrans]
          decide
      · exact h
    · rw [begun_refused hacc]
      exact h

/-- A call that ends in `segmentSends`. -/
theorem ends_of_segmentSends {op : Op} (hne : op ≠ .connect)
    (hlisten : ∀ seg, op = .segmentReceived seg → (c.begun op).synSended = false →
      seg.header.syn = false ∧ seg.header.rst = false)
    (htick : ¬ (c.begun op).sender.consecutiveRetrans > TCPConfig.MAX_RETX_ATTEMPTS)
    (hseg : ∀ seg, op = .segmentReceived seg → c.Accepts seg ∧ (0 < seg.lengthInSequenceSpace →
      (c.begun op).receiver.acknoOut.isSome → (c.begun op).sender.fillWindow.segmentsOut ≠ [])) :
    Ends c op ((c.begun op).segmentSends false) := by
  cases hs : (c.begun op).synSended with
  | false =>
    rw [segmentSends_eq_self hs]
    exact .listening op hs hne htick fun seg ho => ⟨(hseg seg ho).1, hlisten seg ho hs⟩
  | true =>
    rw [segmentSends_eq_sent (.inr hs)]
    exact .sends op (.inl hs) htick hseg

theorem fillWindow_out_ne_nil {s : TCPSender} (h : s.segmentsOut ≠ []) :
    s.fillWindow.segmentsOut ≠ [] := by
  obtain ⟨new, hout, -, -⟩ := TCPSender.fillWindow_out s
  rw [hout]
  simp [h]

/-- The ack of a segment does not send SYN. -/
theorem begun_unopened_iff (h : c.Live) {seg : TCPSegment} (hacc : c.Accepts seg) :
    (c.begun (.segmentReceived seg)).sender.nextSeqno = 0 ↔ c.sender.syn = false := by
  rw [begun_sender hacc]
  constructor
  · intro hn
    rw [← Bool.not_eq_true]
    intro hs
    have hpos := h.sender.opened hs
    have hle := TCPSender.ackReceived_nextSeqno_le c.sender seg.header.ackno seg.header.win
    split at hn <;> omega
  · intro hs
    have hzero := h.sender.started.nextSeqno hs
    rw [if_neg (by rw [hzero]; simp)]
    exact hzero

theorem begun_synSended (h : c.Live) {seg : TCPSegment} (hacc : c.Accepts seg) :
    (c.begun (.segmentReceived seg)).synSended = c.sender.syn := by
  rw [← h.synSended, begun_accepted hacc]
  show (c.acceptAck seg).synSended = c.synSended
  unfold acceptAck
  split <;> rfl

/-- The passive open sends SYN. -/
theorem connect_ends (h : c.Live) {seg : TCPSegment} (hacc : c.Accepts seg)
    (hsyn : seg.header.syn = true) (hzero : c.sender.syn = false) :
    Ends c (.segmentReceived seg) (c.begun (.segmentReceived seg)).connect := by
  have hidle : (c.begun (.segmentReceived seg)).sender = c.sender := by
    rw [begun_sender hacc, if_neg (by rw [h.sender.started.nextSeqno hzero]; simp)]
  rw [TCPConnection.connect, segmentSends_eq_sent (.inl rfl)]
  refine .sends _ (.inr (.inr ⟨seg, rfl, hsyn⟩)) (begun_retrans_le h.retrans (by rintro _ ⟨⟩)) ?_
  rintro _ ⟨⟩
  refine ⟨hacc, fun _ _ => ?_⟩
  rw [hidle, (TCPSender.fillWindow_syn hzero).1.segmentsOut]
  simp

/-- RST ends the connection, but before SYN is acknowledged it counts only with an ack. -/
theorem reset_ends (h : c.Live) {seg : TCPSegment} (hacc : c.Accepts seg)
    (hrst : seg.header.rst = true) :
    Ends c (.segmentReceived seg)
      (if (c.begun (.segmentReceived seg)).sender.stateSummary = .synSent ∧
          seg.header.ack = false then c.begun (.segmentReceived seg)
        else (c.begun (.segmentReceived seg)).uncleanShutdown false) := by
  split
  · rename_i hack
    have hsame : (c.begun (.segmentReceived seg)).sender = c.sender := by
      rw [begun_sender hacc, if_neg (by simp [hack.2])]
    refine .ignored seg hsame fun _ => ⟨hrst, ?_⟩
    have hnext := (TCPSender.synSent_iff.mp hack.1).2.1
    rw [hsame] at hnext
    by_contra hs
    exact hnext (h.sender.started.nextSeqno (by simpa using hs))
  · exact .resets seg hacc hrst

/-- An empty segment answers one that asks for it while nothing else is to be sent. -/
theorem answer_ends (h : c.Live) {seg : TCPSegment} (hacc : c.Accepts seg)
    (hnosyn : c.sender.syn = false → seg.header.syn = false)
    (hlen : 0 < seg.lengthInSequenceSpace)
    (hackno : (c.begun (.segmentReceived seg)).receiver.acknoOut.isSome)
    (hout : (c.begun (.segmentReceived seg)).sender.segmentsOut = []) :
    Ends c (.segmentReceived seg) (TCPConnection.segmentSends { c.begun (.segmentReceived seg) with
      sender := (c.begun (.segmentReceived seg)).sender.sendEmptySegment } false) := by
  have hs : c.sender.syn = true := by
    -- a connection that listens has no ackno
    rw [← Bool.not_eq_false]
    intro hs
    have hl := h.listens hs
    rw [begun_receiver hacc, segmentReceived_listening h.receiver hl (hnosyn hs),
      acknoOut_listening hl] at hackno
    cases hackno
  have hsended := (begun_synSended h hacc).trans hs
  have hsend : TCPConnection.segmentSends { c.begun (.segmentReceived seg) with
      sender := (c.begun (.segmentReceived seg)).sender.sendEmptySegment } false =
      (TCPConnection.sent { c.begun (.segmentReceived seg) with
        sender := (c.begun (.segmentReceived seg)).sender.sendEmptySegment }).cleanShutdown :=
    segmentSends_eq_sent (.inr hsended)
  rw [hsend]
  exact .answers seg hsended hacc hlen hackno hout

theorem reply_ends (h : c.Live) {seg : TCPSegment} (hacc : c.Accepts seg) :
    Ends c (.segmentReceived seg) ((c.begun (.segmentReceived seg)).reply seg) := by
  have hunopened := begun_unopened_iff h hacc
  unfold reply
  split
  · rename_i hopen
    rw [Bool.and_eq_true, beq_iff_eq] at hopen
    exact connect_ends h hacc hopen.1 (hunopened.mp hopen.2)
  · rename_i hopen
    have hnosyn : c.sender.syn = false → seg.header.syn = false := by
      intro hs
      rw [hunopened.mpr hs] at hopen
      simpa using hopen
    split
    · rename_i hrst
      exact reset_ends h hacc hrst
    · rename_i hrst
      simp only
      split
      · rename_i hempty
        simp only [Bool.and_eq_true, decide_eq_true_eq, List.isEmpty_iff] at hempty
        exact answer_ends h hacc hnosyn hempty.1.1 hempty.1.2 hempty.2
      · rename_i hempty
        refine ends_of_segmentSends (by rintro ⟨⟩) ?_
          (begun_retrans_le h.retrans (by rintro _ ⟨⟩)) ?_
        · rintro _ ⟨⟩ hs
          rw [begun_synSended h hacc] at hs
          exact ⟨hnosyn hs, by simpa using hrst⟩
        rintro _ ⟨⟩
        refine ⟨hacc, fun hlen hackno => fillWindow_out_ne_nil fun hout => hempty ?_⟩
        simp [hlen, hackno, hout]

/-- **What a call does** to a live connection. -/
theorem step_ends (h : c.Live) (ha : c.active = true) (op : Op) : Ends c op (c.step op) := by
  cases op with
  | connect =>
    have heq : c.step .connect = (c.begun .connect).sent.cleanShutdown :=
      segmentSends_eq_sent (.inl rfl)
    rw [heq]
    exact .sends _ (.inr (.inl rfl)) h.retrans (by rintro _ ⟨⟩)
  | write data =>
    exact ends_of_segmentSends (show Op.write data ≠ .connect by rintro ⟨⟩) (by rintro _ ⟨⟩)
      h.retrans (by rintro _ ⟨⟩)
  | endInputStream =>
    exact ends_of_segmentSends (show Op.endInputStream ≠ .connect by rintro ⟨⟩) (by rintro _ ⟨⟩)
      h.retrans (by rintro _ ⟨⟩)
  | read n => exact .read n
  | tick ms =>
    have heq : c.step (.tick ms) =
        (if (c.begun (.tick ms)).sender.consecutiveRetrans > TCPConfig.MAX_RETX_ATTEMPTS then
          (c.begun (.tick ms)).uncleanShutdown true
        else c.begun (.tick ms)).segmentSends false := by
      rw [begun_tick ha]
      exact if_neg (by simp [ha])
    rw [heq]
    split
    · rename_i hgt
      exact .givesUp ms hgt
    · rename_i hle
      exact ends_of_segmentSends (by rintro ⟨⟩) (by rintro _ ⟨⟩) hle (by rintro _ ⟨⟩)
  | segmentReceived seg =>
    by_cases hacc : c.Accepts seg
    · have heq : c.step (.segmentReceived seg) = (c.begun (.segmentReceived seg)).reply seg :=
        segmentReceived_accepted hacc
      rw [heq]
      exact reply_ends h hacc
    · have heq : c.step (.segmentReceived seg) = c.begun (.segmentReceived seg) :=
        segmentReceived_refused ha hacc
      rw [heq]
      exact .ignored seg (by rw [begun_refused hacc]) fun h' => absurd h' hacc

/-! ## What the first part of a call leaves alone -/

theorem begun_frame (c : TCPConnection) (op : Op) : c.begun op = { c with
    sender := (c.begun op).sender
    receiver := (c.begun op).receiver
    timeSinceLastSegmentReceived := c.timeAfter op } := by
  cases op with
  | connect | write _ | endInputStream | read _ => rfl
  | tick ms =>
    rw [begun, front]
    split <;> rfl
  | segmentReceived seg =>
    by_cases hacc : c.Accepts seg
    · rw [begun_accepted hacc]
      unfold hear acceptAck
      split <;> rfl
    · rw [begun_refused hacc]
      rfl

theorem step_cfg (c : TCPConnection) (op : Op) : (c.step op).cfg = c.cfg :=
  (step_settles c op).inv (P := fun c' => c'.cfg = c.cfg)
    (fun _ _ hs hc => by cases hs <;> exact hc) (by
      have hb : (c.begun op).cfg = c.cfg := by rw [begun_frame]
      exact hb)

theorem begun_healthy (h : c.sender.Healthy) (op : Op) : (c.begun op).sender.Healthy := by
  cases op with
  | connect | read _ => exact h
  | write data => exact h.write data
  | endInputStream => exact h.endInput
  | tick ms =>
    rw [begun, front]
    split
    · exact h
    · exact h.tick ms
  | segmentReceived seg =>
    by_cases hacc : c.Accepts seg
    · rw [begun_sender hacc]
      split
      · rename_i hack
        refine h.ackReceived ?_ _ _
        by_contra hs
        rw [h.started.nextSeqno (by simpa using hs)] at hack
        exact absurd hack.2 (Nat.lt_irrefl 0)
      · exact h
    · rw [begun_refused hacc]
      exact h

theorem begun_inv (h : c.receiver.Inv) (op : Op) : (c.begun op).receiver.Inv := by
  cases op with
  | connect | write _ | endInputStream => exact h
  | read n => exact h.readOut n
  | tick ms =>
    rw [begun, front]
    split <;> exact h
  | segmentReceived seg =>
    by_cases hacc : c.Accepts seg
    · rw [begun_receiver hacc]
      exact h.segmentReceived seg
    · rw [begun_refused hacc]
      exact h

theorem begun_inbound (h : c.receiver.Inv) (op : Op) :
    (c.begun op).receiver.streamOut.error = c.receiver.streamOut.error := by
  cases op with
  | connect | write _ | endInputStream | read _ => rfl
  | tick ms =>
    rw [begun, front]
    split <;> rfl
  | segmentReceived seg =>
    by_cases hacc : c.Accepts seg
    · rw [begun_receiver hacc, TCPReceiver.segmentReceived_error h]
    · rw [begun_refused hacc]

/-! ## Every active connection is live -/

theorem sent_live (hs : c.sender.Healthy) (hr : c.receiver.Inv) (hn : c.needSendRst = false)
    (hi : c.receiver.streamOut.error = false)
    (hc : ¬ c.sender.consecutiveRetrans > TCPConfig.MAX_RETX_ATTEMPTS) :
    c.sent.cleanShutdown.Live := by
  obtain ⟨active, linger, -, heq⟩ := c.sent.cleanShutdown_eq
  have hsyn : c.sent.sender.syn = true := TCPSender.fillWindow_sets_syn c.sender
  rw [heq]
  exact {
    sender := hs.atRest
    synSended := hsyn.symm
    receiver := hr
    listens := fun h => by
      have h' : c.sent.sender.syn = false := h
      rw [hsyn] at h'
      cases h'
    noRst := hn
    inbound := hi
    retrans := by
      show ¬ c.sender.fillWindow.consecutiveRetrans > _
      rw [(TCPSender.fillWindow_keeps c.sender).consecutiveRetrans]
      exact hc }

theorem segmentSends_inactive (h : c.active = false) (sendSyn : Bool) :
    (c.segmentSends sendSyn).active = false := by
  by_cases hgo : sendSyn = true ∨ c.synSended = true
  · obtain ⟨active, linger, hact, heq⟩ := c.segmentSends_eq sendSyn hgo
    rw [heq]
    exact hact h
  · have heq : c.segmentSends sendSyn = c := if_pos (by simpa using hgo)
    rw [heq]
    exact h

theorem segmentSends_receiver (c : TCPConnection) (sendSyn : Bool) :
    (c.segmentSends sendSyn).receiver = c.receiver := by
  by_cases hgo : sendSyn = true ∨ c.synSended = true
  · obtain ⟨active, linger, -, heq⟩ := c.segmentSends_eq sendSyn hgo
    rw [heq]
  · have heq : c.segmentSends sendSyn = c := if_pos (by simpa using hgo)
    rw [heq]

theorem uncleanShutdown_inactive (c : TCPConnection) (sendRst : Bool) :
    (c.uncleanShutdown sendRst).active = false := by
  cases sendRst with
  | false => rfl
  | true =>
    unfold uncleanShutdown
    rw [if_pos rfl]
    apply segmentSends_inactive
    split <;> rfl

theorem uncleanShutdown_error (c : TCPConnection) (sendRst : Bool) :
    (c.uncleanShutdown sendRst).receiver.streamOut.error = true := by
  cases sendRst with
  | false => rfl
  | true =>
    unfold uncleanShutdown
    rw [if_pos rfl, segmentSends_receiver]
    split <;> rfl

/-- Before SYN is sent, nothing that is not `connect` or SYN makes the sender push anything. -/
theorem begun_listening (h : c.Live) (hs : c.sender.syn = false) {op : Op}
    (hsyn : ∀ seg, op = .segmentReceived seg → c.Accepts seg ∧ seg.header.syn = false) :
    (c.begun op).sender.syn = false ∧ (c.begun op).sender.segmentsOut = [] ∧
      (c.begun op).receiver.syn = false := by
  have hout := h.sender.out
  have hlisten := h.listens hs
  cases op with
  | connect | write _ | endInputStream | read _ => exact ⟨hs, hout, hlisten⟩
  | tick ms =>
    rw [begun, front]
    split
    · exact ⟨hs, hout, hlisten⟩
    · have ht := TCPSender.tick_ticked c.sender ms
      refine ⟨ht.same.syn.trans hs, ?_, hlisten⟩
      rcases ht.out with ho | ⟨seg, rest, hq, -⟩
      · exact ho.trans hout
      · rw [h.sender.started.queue_nil hs] at hq
        cases hq
  | segmentReceived seg =>
    obtain ⟨hacc, hseg⟩ := hsyn seg rfl
    rw [begun_sender hacc, begun_receiver hacc, if_neg (by
      rw [h.sender.started.nextSeqno hs]; simp), segmentReceived_listening h.receiver hlisten hseg]
    exact ⟨hs, hout, hlisten⟩

/-- A call keeps a connection live, or shuts it down. -/
theorem Live.ends {op : Op} {c' : TCPConnection} (h : c.Live) (he : Ends c op c')
    (ha' : c'.active = true) : c'.Live := by
  have hframe := begun_frame c op
  have hs := begun_healthy h.sender.toHealthy op
  have hr := begun_inv h.receiver op
  have hi := (begun_inbound h.receiver op).trans h.inbound
  have hn : (c.begun op).needSendRst = false := by rw [hframe]; exact h.noRst
  have hsyn : (c.begun op).synSended = c.synSended := by rw [hframe]
  cases he with
  | sends _ _ hc => exact sent_live hs hr hn hi hc
  | answers seg =>
    exact sent_live (hs.setOut _) hr hn hi (begun_retrans_le h.retrans (by rintro _ ⟨⟩))
  | resets => cases ha'
  | givesUp ms =>
    rw [segmentSends_inactive (uncleanShutdown_inactive _ true)] at ha'
    cases ha'
  | read n => exact ⟨h.sender, h.synSended, hr, h.listens, hn, hi, h.retrans⟩
  | listening _ hl _ hc hseg =>
    rw [hsyn, h.synSended] at hl
    obtain ⟨h1, h2, h3⟩ := begun_listening h hl fun seg ho => ⟨(hseg seg ho).1, (hseg seg ho).2.1⟩
    exact {
      sender := {
        toHealthy := hs
        out := h2
        done := fun h' => by rw [h1] at h'; cases h'
        zero := fun _ => (hs.unopened h1).1
        zeroed := fun hpos => by
          have := hs.started.nextSeqno h1
          have := hs.started.ack_le
          omega }
      synSended := by rw [hsyn, h.synSended, hl, h1]
      receiver := hr
      listens := fun _ => h3
      noRst := hn
      inbound := hi
      retrans := hc }
  | ignored seg hsame hrst =>
    refine ⟨by rw [hsame]; exact h.sender, by rw [hsyn, hsame]; exact h.synSended, hr, ?_, hn, hi,
      by rw [hsame]; exact h.retrans⟩
    intro hl
    rw [hsame] at hl
    by_cases hacc : c.Accepts seg
    · rw [(hrst hacc).2] at hl
      cases hl
    · rw [begun_refused hacc]
      exact h.listens hl

theorem Live.step (h : c.Live) (ha : c.active = true) (op : Op)
    (ha' : (c.step op).active = true) : (c.step op).Live :=
  h.ends (step_ends h ha op) ha'

/-- An operation does not revive a connection. -/
theorem step_inactive (h : c.active = false) (op : Op) : (c.step op).active = false := by
  cases op with
  | connect => exact segmentSends_inactive h true
  | write data =>
    have h' : ({ c with sender := c.sender.write data } : TCPConnection).active = false := h
    exact segmentSends_inactive h' false
  | endInputStream =>
    have h' : ({ c with sender := c.sender.endInput } : TCPConnection).active = false := h
    exact segmentSends_inactive h' false
  | read n => exact h
  | tick ms =>
    have heq : c.tick ms = c := if_pos h
    rw [step, heq]
    exact h
  | segmentReceived seg =>
    have heq : c.segmentReceived seg = c := if_pos h
    rw [step, heq]
    exact h

/-- An active connection is live. -/
def Alive (c : TCPConnection) : Prop := c.active = true → c.Live

theorem alive_step (h : c.Alive) (op : Op) : (c.step op).Alive := by
  intro ha'
  cases ha : c.active with
  | false =>
    rw [step_inactive ha] at ha'
    cases ha'
  | true => exact (h ha).step ha op ha'

theorem live_mk {cfg : TCPConfig} {random : UInt32} (h : mk? cfg random = some c) : c.Live := by
  simp only [mk?, Option.map_eq_some_iff] at h
  obtain ⟨r, hr, rfl⟩ := h
  obtain ⟨hi, -, hs, -⟩ := TCPReceiver.inv_mk hr
  simp only [TCPReceiver.mk?, Option.map_eq_some_iff] at hr
  obtain ⟨re, hre, rfl⟩ := hr
  obtain ⟨-, -, -, rfl⟩ := StreamReassembler.inv_mk hre
  exact ⟨TCPSender.atRest_new .., rfl, hi, fun _ => hs, rfl, rfl,
    (by decide : ¬ (0 : UInt32) > TCPConfig.MAX_RETX_ATTEMPTS)⟩

theorem alive_run {cfg : TCPConfig} {random : UInt32} (h : mk? cfg random = some c)
    (ops : List Op) : (run TCPConnection.step c ops).Alive :=
  run_inv (I := Alive) (fun _ => live_mk h) (fun _ op hc => alive_step hc op) ops


end

end TCPConnection

end Sponge
