import Sponge.Connection.Calls
import Sponge.Sender.Ended

/-!
# A clean close

`cleanShutdown` looks at the end of the two streams, at `bytesInFlight` and at
the linger flag, and never asks whether FIN was sent. That no connection closes
without it follows from what `fillWindow` leaves behind: it stops with room in
the window and the stream at its end only after FIN (`TCPSender.fin_of_idle`).

A `Watched` connection comes with an observer: the milliseconds ticked since the
last segment came in, and whether the outbound stream was at its end when the
inbound stream ended.
-/

namespace Sponge

open Lib

/-! ## FIN and the counters -/

namespace TCPSender

/-- SYN, FIN and the bytes read from the stream have each been given a sequence number, and FIN,
if it was sent, is in `out` or among the segments pushed. -/
structure Ledger (out : List TCPSegment) (s : TCPSender) : Prop where
  count : s.nextSeqno + s.stream.buffer.length =
    s.stream.written + (if s.syn then 1 else 0) + (if s.fin then 1 else 0)
  fin : s.fin = true → ∃ seg ∈ out ++ s.segmentsOut, seg.header.fin = true

section
variable {s t e : TCPSender} {out : List TCPSegment}

theorem Ledger.push (h : Ledger out s) (ht : ∃ new, t.segmentsOut = s.segmentsOut ++ new)
    (hcount : t.nextSeqno = s.nextSeqno ∧ t.stream = s.stream ∧ t.syn = s.syn ∧ t.fin = s.fin) :
    Ledger out t := by
  obtain ⟨new, hnew⟩ := ht
  obtain ⟨h1, h2, h3, h4⟩ := hcount
  refine ⟨by rw [h1, h2, h3, h4]; exact h.count, fun hf => ?_⟩
  rw [h4] at hf
  obtain ⟨seg, hm, hseg⟩ := h.fin hf
  refine ⟨seg, ?_, hseg⟩
  rw [hnew, ← List.append_assoc]
  exact List.mem_append_left _ hm

theorem Ledger.turn {win : Nat} {seg : TCPSegment} (h : Ledger out s) (ht : Turn win s seg t) :
    Ledger out t := by
  have hc := h.count
  have hfin := ht.fin
  refine ⟨?_, fun hf => ⟨seg, ?_, by rw [← hfin, hf]⟩⟩
  · rw [ht.unfinished] at hc
    have hlen := ht.payload_length
    rw [ht.sent.nextSeqno, ht.syn, hfin, ht.buffer_length, ht.length_eq, ht.stream,
      ByteStream.popOutput_written]
    rw [if_neg Bool.false_ne_true] at hc
    omega
  · rw [ht.sent.segmentsOut]
    simp

theorem Ledger.fillWindow (h : Ledger out s) : Ledger out s.fillWindow := by
  refine fillWindow_inv (P := Ledger out) (fun hs => ?_) (fun b => ⟨h.count, h.fin⟩)
    fun _ _ _ _ ht hp => hp.turn ht
  obtain ⟨hsent, hsyn, hfin, hst⟩ := fillWindow_syn hs
  have hc := h.count
  have hlen : s.synSegment.lengthInSequenceSpace = 1 := rfl
  rw [hs] at hc
  refine ⟨?_, fun hf => ?_⟩
  · rw [hsent.nextSeqno, hlen, hsyn, hfin, hst]
    simp only [Bool.false_eq_true, if_false, if_true] at hc ⊢
    omega
  · rw [hfin] at hf
    obtain ⟨seg, hm, hseg⟩ := h.fin hf
    exact ⟨seg, by rw [hsent.segmentsOut, ← List.append_assoc]; exact List.mem_append_left _ hm,
      hseg⟩

theorem Ledger.write (h : Ledger out s) (data : List UInt8) : Ledger out (s.write data) := by
  refine ⟨?_, h.fin⟩
  have hc := h.count
  have hn := ByteStream.write_snd s.stream data
  show s.nextSeqno + (s.stream.buffer ++ data.take (s.stream.write data).2).length =
    s.stream.written + (s.stream.write data).2 + (if s.syn then 1 else 0) + (if s.fin then 1 else 0)
  rw [List.length_append, List.length_take]
  omega

theorem Ledger.ackReceived (h : Ledger out s) (ackno : WrappingInt32) (w : UInt16) :
    Ledger out (s.ackReceived ackno w) := by
  rcases ackReceived_cases s ackno w with ⟨-, -, heq⟩ | ⟨-, -, -, heq⟩ | ⟨-, -, e, _, -, ha, heq⟩
  · rw [heq]
    exact h
  · rw [heq]
    exact ⟨h.count, h.fin⟩
  · have he : Ledger out e := by
      rw [ha.eq]
      exact ⟨h.count, h.fin⟩
    obtain ⟨counting, clock, hr⟩ := restartTimer_eq e.fillWindow
    rw [heq, hr]
    exact ⟨he.fillWindow.count, he.fillWindow.fin⟩

theorem Ledger.tick (h : Ledger out s) (ms : Nat) : Ledger out (s.tick ms) := by
  have ht := tick_ticked s ms
  refine h.push ?_ (by rw [ht.eq]; exact ⟨rfl, rfl, rfl, rfl⟩)
  rcases ht.out with ho | ⟨seg, -, -, ho⟩
  · exact ⟨[], by rw [ho, List.append_nil]⟩
  · exact ⟨[seg], ho⟩

/-- With nothing in flight and the stream at its end, the loop can only have stopped at FIN. -/
theorem fin_of_idle (h : s.Accounted) (hd : Done s.window s) (hb : s.bytesInFlight = 0)
    (he : s.stream.eof = true) : s.fin = true ∧ s.receiveAck = s.nextSeqno := by
  have hfirst := h.first_le
  have hle := h.ack_le
  rw [firstSeqno, hb, Nat.sub_zero] at hfirst
  have hack : s.receiveAck = s.nextSeqno := by omega
  refine ⟨?_, hack⟩
  rcases hd with hrem | hf | ⟨-, hend⟩
  · -- the whole window is left
    have hpos := s.window_pos
    rw [remain_eq_zero_iff, hack, sub64_of_le (Nat.le_refl _) (by simp), Nat.sub_self] at hrem
    omega
  · exact hf
  · rw [ByteStream.eof_iff, hend] at he
    cases he.2

end

end TCPSender

namespace TCPConnection

/-- No write comes behind the end of the stream. -/
def NoLateWrite (c : TCPConnection) : Op → Prop
  | .write _ => c.sender.stream.inputEnded = false
  | .connect | .endInputStream | .tick _ | .segmentReceived _ | .read _ => True

instance (c : TCPConnection) : ∀ op, Decidable (c.NoLateWrite op)
  | .write _ => inferInstanceAs (Decidable (_ = false))
  | .connect | .endInputStream | .tick _ | .segmentReceived _ | .read _ => isTrue trivial

section
variable {c : TCPConnection} {op : Op}

/-- The inbound stream ends, if it does, in the first part of a call. -/
theorem step_inputEnd (c : TCPConnection) (op : Op) :
    (c.step op).receiver.streamOut.inputEnd = (c.front op).receiver.streamOut.inputEnd := by
  refine (step_settles c op).inv (P := fun c' => c'.receiver.streamOut.inputEnd =
    (c.front op).receiver.streamOut.inputEnd) ?_ rfl
  intro a b hs h
  cases hs with
  | fill | flush | sendEmpty | flags | abort => exact h

/-- The inbound stream does not go on after its end. -/
theorem front_inputEnd (h : c.receiver.Inv) (op : Op)
    (he : c.receiver.streamOut.inputEnd = true) :
    (c.begun op).receiver.streamOut.inputEnd = true := by
  cases op with
  | connect | write _ | endInputStream | read _ => exact he
  | tick ms =>
    rw [begun, front]
    split <;> exact he
  | segmentReceived seg =>
    by_cases hacc : c.Accepts seg
    · rw [begun_receiver hacc]
      by_cases ht : c.receiver.Takes seg
      · have hopen := ht.open h
        rw [he] at hopen
        cases hopen
      · rw [TCPReceiver.segmentReceived_idle h ht]
        exact he
    · rw [begun_refused hacc]
      exact he

theorem begun_accounted (h : c.sender.Accounted) (hb : c.sender.Bounded) (op : Op) :
    (c.begun op).sender.Accounted := by
  have hbound := hb.2
  cases op with
  | connect | read _ => exact h
  | write data => exact h.step hb.1 (by omega) (.write data)
  | endInputStream => exact h.step hb.1 (by omega) .endInput
  | tick ms =>
    rw [begun, front]
    split
    · exact h
    · exact h.step hb.1 (by omega) (.tick ms)
  | segmentReceived seg =>
    by_cases hacc : c.Accepts seg
    · rw [begun_sender hacc]
      split
      · exact h.ackReceived hb.1 (by omega) _ _
      · exact h
    · rw [begun_refused hacc]
      exact h

theorem begun_ledger (h : c.sender.Ledger c.segmentsOut) (op : Op) :
    (c.begun op).sender.Ledger c.segmentsOut := by
  cases op with
  | connect | read _ => exact h
  | write data => exact h.write data
  | endInputStream => exact ⟨h.count, h.fin⟩
  | tick ms =>
    rw [begun, front]
    split
    · exact h
    · exact h.tick ms
  | segmentReceived seg =>
    by_cases hacc : c.Accepts seg
    · rw [begun_sender hacc]
      split
      · exact h.ackReceived _ _
      · exact h
    · rw [begun_refused hacc]
      exact h

/-- Without a late write the outbound stream stays at its end. -/
theorem begun_eof (h : c.sender.stream.eof = true) (hw : ∀ data, op ≠ .write data) :
    (c.begun op).sender.stream.eof = true := by
  cases op with
  | connect | read _ => exact h
  | write data => exact absurd rfl (hw data)
  | endInputStream =>
    rw [ByteStream.eof_iff] at h ⊢
    exact ⟨h.1, rfl⟩
  | tick ms =>
    rw [begun, front]
    split
    · exact h
    · show (c.sender.tick ms).stream.eof = true
      rw [TCPSender.tick_stream]
      exact h
  | segmentReceived seg =>
    by_cases hacc : c.Accepts seg
    · rw [begun_sender hacc]
      split
      · exact (TCPSender.ackReceived_quiet _ _ _).eof h
      · exact h
    · rw [begun_refused hacc]
      exact h

theorem stamp_fin (c : TCPConnection) (seg : TCPSegment) :
    (c.stamp seg).header.fin = seg.header.fin := by
  unfold stamp
  cases c.receiver.acknoOut <;> cases c.needSendRst <;> rfl

/-- The ledger of a sender whose segments have been moved to the outgoing queue. -/
theorem sent_ledger (h : c.sender.Ledger c.segmentsOut) :
    c.sent.sender.Ledger c.sent.segmentsOut := by
  have hf := h.fillWindow
  refine ⟨hf.count, fun hfin => ?_⟩
  obtain ⟨seg, hm, hseg⟩ := hf.fin hfin
  rcases List.mem_append.mp hm with hm | hm
  · exact ⟨seg, by simp [sent, hm], hseg⟩
  · refine ⟨c.stamp seg, ?_, (stamp_fin c seg).trans hseg⟩
    have hmem : c.stamp seg ∈ c.sender.fillWindow.segmentsOut.map c.stamp :=
      List.mem_map_of_mem hm
    simp [sent, hmem]

end

end TCPConnection

open TCPConnection

/-- A connection, the milliseconds ticked since the last segment came in (`quiet`), and whether
the outbound stream was at its end when the inbound stream ended (`eofFirst`). -/
structure Watched where
  conn : TCPConnection
  quiet : Nat := 0
  eofFirst : Bool := false
  deriving DecidableEq, Repr

namespace Watched

/-- The ack of the segment that ends the inbound stream is seen before its FIN, and may let the
sender read its stream to the end. -/
def step (w : Watched) (op : Op) : Watched where
  conn := w.conn.step op
  quiet := match op with
    | .tick ms => w.quiet + ms
    | .segmentReceived _ => 0
    | .connect | .write _ | .endInputStream | .read _ => w.quiet
  eofFirst :=
    if (w.conn.step op).inboundStream.inputEnded && !w.conn.inboundStream.inputEnded then
      (w.conn.front op).sender.stream.eof
    else w.eofFirst

/-- If this call ends the connection without an error, both streams have ended, FIN was sent and
all is acknowledged; and a connection that has to linger has done so. -/
def ClosesCleanly (w : Watched) (op : Op) : Prop :=
  w.conn.active = true → (w.step op).conn.active = false →
    (w.step op).conn.sender.stream.error = false →
    (w.step op).conn.inboundStream.error = false →
    (w.step op).conn.inboundStream.inputEnded = true ∧
      (∃ seg ∈ (w.step op).conn.segmentsOut, seg.header.fin = true) ∧
      (w.step op).conn.sender.nextSeqno = (w.step op).conn.sender.stream.bytesWritten + 2 ∧
      (w.step op).conn.sender.receiveAck = (w.step op).conn.sender.nextSeqno ∧
      (w.step op).conn.sender.bytesInFlight = 0 ∧
      ((w.step op).eofFirst = true → 10 * w.conn.cfg.rtTimeout.toNat ≤ (w.step op).quiet)

instance (w : Watched) (op : Op) : Decidable (w.ClosesCleanly op) :=
  inferInstanceAs (Decidable (_ → _ → _ → _ → _))

def NoLateWrite (w : Watched) (op : Op) : Prop := w.conn.NoLateWrite op

instance (w : Watched) (op : Op) : Decidable (w.NoLateWrite op) :=
  inferInstanceAs (Decidable (w.conn.NoLateWrite op))

/-- What an observer knows of an active connection. -/
structure Tracked (quiet : Nat) (eofFirst : Bool) (c : TCPConnection) : Prop where
  accounted : c.sender.Accounted
  ledger : c.sender.Ledger c.segmentsOut
  time : c.timeSinceLastSegmentReceived ≤ quiet
  lingers : c.receiver.streamOut.inputEnd = false → c.lingerAfterStreamsFinish = true
  first : eofFirst = true → c.lingerAfterStreamsFinish = true ∧ c.sender.stream.eof = true

section
variable {w : Watched} {op : Op} {quiet : Nat} {eofFirst : Bool} {c : TCPConnection}

theorem Tracked.sendEmpty (h : Tracked quiet eofFirst c) :
    Tracked quiet eofFirst { c with sender := c.sender.sendEmptySegment } where
  accounted := h.accounted.same (TCPSender.same_sendEmpty _)
  ledger := h.ledger.push ⟨_, rfl⟩ ⟨rfl, rfl, rfl, rfl⟩
  time := h.time
  lingers := h.lingers
  first := h.first

theorem Tracked.sent (h : Tracked quiet eofFirst c) :
    Tracked quiet eofFirst c.sent.cleanShutdown := by
  have hlinger := cleanShutdown_linger c.sent
  have heof : c.sender.stream.eof = true → c.sent.sender.stream.eof = true :=
    fun he => (TCPSender.fillWindow_quiet _).eof he
  obtain ⟨active, linger, -, heq⟩ := c.sent.cleanShutdown_eq
  rw [heq] at hlinger ⊢
  have hl : linger = (c.lingerAfterStreamsFinish &&
    !(c.receiver.streamOut.inputEnded && !c.sent.sender.stream.eof)) := hlinger
  exact {
    accounted := h.accounted.fillWindow.same (TCPSender.same_setOut ..)
    ledger := sent_ledger h.ledger
    time := h.time
    lingers := fun he => by
      have he' : c.receiver.streamOut.inputEnded = false := he
      show linger = true
      rw [hl, h.lingers he, he']
      rfl
    first := fun hf => by
      obtain ⟨h1, h2⟩ := h.first hf
      refine ⟨?_, heof h2⟩
      show linger = true
      rw [hl, h1, heof h2]
      simp }

/-- The first part of a call. -/
theorem Tracked.begun (h : Tracked w.quiet w.eofFirst w.conn) (hr : w.conn.receiver.Inv)
    (hb : w.conn.sender.Bounded) (hw : w.NoLateWrite op) :
    Tracked (w.step op).quiet (w.step op).eofFirst (w.conn.begun op) := by
  have hframe := begun_frame w.conn op
  have hlinger : (w.conn.begun op).lingerAfterStreamsFinish = w.conn.lingerAfterStreamsFinish := by
    rw [hframe]
  refine ⟨begun_accounted h.accounted hb op, ?_, ?_, fun he => ?_, fun hf => ?_⟩
  · have hout : (w.conn.begun op).segmentsOut = w.conn.segmentsOut := by rw [hframe]
    rw [hout]
    exact begun_ledger h.ledger op
  · have htime : (w.conn.begun op).timeSinceLastSegmentReceived = w.conn.timeAfter op := rfl
    rw [htime]
    have hq := h.time
    cases op with
    | tick ms =>
      have := Nat.mod_le (w.conn.timeSinceLastSegmentReceived + ms) (2 ^ 64)
      simp only [timeAfter, step]
      omega
    | segmentReceived _ => exact Nat.zero_le _
    | connect | write _ | endInputStream | read _ => exact hq
  · rw [hlinger]
    refine h.lingers ?_
    by_contra hn
    rw [front_inputEnd hr op (by simpa using hn)] at he
    cases he
  · rw [hlinger]
    simp only [step, inboundStream, ByteStream.inputEnded, step_inputEnd] at hf
    split at hf
    · -- the inbound stream ends with this call
      rename_i hnew
      rw [Bool.and_eq_true, Bool.not_eq_true'] at hnew
      exact ⟨h.lingers hnew.2, hf⟩
    · obtain ⟨h1, h2⟩ := h.first hf
      refine ⟨h1, begun_eof h2 ?_⟩
      rintro data rfl
      rw [ByteStream.eof_iff, show w.conn.sender.stream.inputEnd = false from hw] at h2
      cases h2.2

/-- A connection that `sent` closes has sent FIN, and everything is acknowledged. -/
theorem Tracked.closes (h : Tracked quiet eofFirst c) (hs : c.sender.Healthy)
    (ha : c.active = true) (hc : c.sent.cleanShutdown.active = false) :
    c.sent.cleanShutdown.inboundStream.inputEnded = true ∧
      (∃ seg ∈ c.sent.cleanShutdown.segmentsOut, seg.header.fin = true) ∧
      c.sent.cleanShutdown.sender.nextSeqno =
        c.sent.cleanShutdown.sender.stream.bytesWritten + 2 ∧
      c.sent.cleanShutdown.sender.receiveAck = c.sent.cleanShutdown.sender.nextSeqno ∧
      c.sent.cleanShutdown.sender.bytesInFlight = 0 ∧
      (eofFirst = true → 10 * c.cfg.rtTimeout.toNat ≤ quiet) := by
  obtain ⟨hend, heof, hzero, hlinger⟩ := cleanShutdown_closes (c := c.sent) ha hc
  have hsyn : c.sent.sender.syn = true := TCPSender.fillWindow_sets_syn c.sender
  have hacc : c.sent.sender.Accounted := h.accounted.fillWindow.same (TCPSender.same_setOut ..)
  have hledger := sent_ledger h.ledger
  obtain ⟨hfin, hack⟩ := TCPSender.fin_of_idle hacc (hs.atRest.done hsyn) hzero heof
  obtain ⟨active, linger, -, heq⟩ := c.sent.cleanShutdown_eq
  rw [heq]
  refine ⟨hend, ?_, ?_, hack, hzero, fun hf => ?_⟩
  · have hnil : c.sent.sender.segmentsOut = [] := rfl
    have hout := hledger.fin hfin
    rwa [hnil, List.append_nil] at hout
  · have hcount := hledger.count
    have hbuf := ((ByteStream.eof_iff _).mp heof).1
    rw [hfin, hsyn, hbuf] at hcount
    simp only [if_true, List.length_nil, Nat.add_zero] at hcount
    exact hcount
  · rcases hlinger with hl | hl
    · rw [show c.sent.lingerAfterStreamsFinish = c.lingerAfterStreamsFinish from rfl,
        (h.first hf).1] at hl
      cases hl
    · exact Nat.le_trans hl h.time

/-- An active connection is live, and the observer knows what is true of it. -/
def Observed (w : Watched) : Prop :=
  w.conn.active = true → w.conn.Live ∧ Tracked w.quiet w.eofFirst w.conn

theorem Observed.step (h : w.Observed) (hb : w.conn.sender.Bounded) (hw : w.NoLateWrite op) :
    (w.step op).Observed := by
  intro ha'
  cases ha : w.conn.active with
  | false =>
    have ha'' : (w.conn.step op).active = true := ha'
    rw [step_inactive ha] at ha''
    cases ha''
  | true =>
    obtain ⟨hlive, ht⟩ := h ha
    refine ⟨hlive.step ha op ha', ?_⟩
    have hbegun := ht.begun hlive.receiver hb hw
    have hends := step_ends hlive ha op
    have hact : (w.conn.step op).active = true := ha'
    show Tracked _ _ (w.conn.step op)
    generalize w.conn.step op = c' at hends hact
    cases hends with
    | listening | read | ignored => exact hbegun
    | sends => exact hbegun.sent
    | answers => exact hbegun.sendEmpty.sent
    | resets => cases hact
    | givesUp =>
      rw [segmentSends_inactive (uncleanShutdown_inactive _ true)] at hact
      cases hact

theorem Observed.closesCleanly (h : w.Observed) (hb : w.conn.sender.Bounded)
    (hw : w.NoLateWrite op) : w.ClosesCleanly op := by
  intro ha ha' _ hin
  obtain ⟨hlive, ht⟩ := h ha
  have hbegun := ht.begun hlive.receiver hb hw
  have hhealthy := begun_healthy hlive.sender.toHealthy op
  have hends := step_ends hlive ha op
  have hframe := begun_frame w.conn op
  have hact : (w.conn.begun op).active = true := by rw [hframe]; exact ha
  have hcfg : (w.conn.begun op).cfg = w.conn.cfg := by rw [hframe]
  have hconn : (w.step op).conn = w.conn.step op := rfl
  rw [hconn] at ha' hin ⊢
  generalize w.conn.step op = c' at hends ha' hin
  cases hends with
  | listening | read | ignored =>
    rw [hact] at ha'
    cases ha'
  | sends =>
    rw [← hcfg]
    exact hbegun.closes hhealthy hact ha'
  | answers =>
    rw [← hcfg]
    exact hbegun.sendEmpty.closes (hhealthy.setOut _) hact ha'
  | resets => cases hin
  | givesUp =>
    rw [inboundStream, segmentSends_receiver, uncleanShutdown_error] at hin
    cases hin

theorem observed_mk {cfg : TCPConfig} {random : UInt32} (h : mk? cfg random = some c) :
    Observed { conn := c } := by
  intro _
  have hlive := live_mk h
  refine ⟨hlive, ?_⟩
  simp only [mk?, Option.map_eq_some_iff] at h
  obtain ⟨r, -, rfl⟩ := h
  exact ⟨TCPSender.accounted_new .., ⟨rfl, by rintro ⟨⟩⟩, Nat.le_refl _, fun _ => rfl,
    by rintro ⟨⟩⟩

end

/-- **A clean close is never premature**, in every run without a late write and within the bounds
on what is outstanding and on what is sent. -/
theorem along_closesCleanly (cfg : TCPConfig) (random : UInt32) (c : TCPConnection)
    (ops : List Op) (h : mk? cfg random = some c)
    (hb : Always step (fun w => w.conn.sender.Bounded) { conn := c } ops)
    (hw : Along step NoLateWrite { conn := c } ops) :
    Along step ClosesCleanly { conn := c } ops :=
  (hb.along.and hw).imp (I := Observed) (observed_mk h)
    (fun _ _ hi hg => hi.step hg.1.1 hg.2) fun _ _ hi hg => hi.closesCleanly hg.1.1 hg.2

/-- FIN is sent first, and the segment that acknowledges it carries the peer's FIN. -/
def activeCloseOps : List Op :=
  [.connect,
   .segmentReceived { header :=
     { syn := true, ack := true, seqno := ⟨40⟩, ackno := ⟨8⟩, win := 10 } },
   .endInputStream,
   .segmentReceived { header :=
     { fin := true, ack := true, seqno := ⟨41⟩, ackno := ⟨9⟩, win := 10 } },
   .tick 9999, .tick 1]

/-- The active close lingers for ten timeouts. -/
theorem closesCleanly_activeClose : ∃ c, mk? { fixedIsn := some ⟨7⟩ } 0 = some c ∧
    (run step { conn := c } (activeCloseOps.take 5)).conn.active = true ∧
    (run step { conn := c } activeCloseOps).conn.active = false ∧
    (run step { conn := c } activeCloseOps).eofFirst = true ∧
    Along step ClosesCleanly { conn := c } activeCloseOps :=
  ⟨_, rfl, by decide, by decide, by decide,
    along_closesCleanly { fixedIsn := some ⟨7⟩ } 0 _ activeCloseOps rfl (by decide) (by decide)⟩

end Watched

end Sponge
