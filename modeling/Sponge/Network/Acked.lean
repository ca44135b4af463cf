import Sponge.Network.Eof

/-!
# What is acknowledged has arrived

The ackno is a counter of its own, but it never runs ahead: it stands for some
number up to what has been received in order (`Advertises`), every ack on the
network stands for no more than that, and the sender has recorded no more
(`AckLink`). So what the sender pops because of an ack is written at the other
side, as long as no FIN ends the inbound stream early there, no ack comes that is
half the ring old, and nothing more is written while FIN is outstanding.
-/

namespace Sponge

open Lib TCPConnection StreamReassembler

/-! ## The acknowledging side -/

/-- The ackno of the receiver stands for `b`, which has been received in order. -/
structure Advertises (isn : WrappingInt32) (r : TCPReceiver) (b : Nat) : Prop where
  listen : r.syn = false → b = 0
  ackno : r.syn = true → r.ackno = wrap b isn
  le : b ≤ r.nextExpected

section
variable {W reads : List UInt8} {ended : Bool} {isn : WrappingInt32} {r r' : TCPReceiver}
  {seg : TCPSegment} {w : List UInt8} {b p : Nat}

theorem Advertises.taken (h : Advertises isn r b) (hh : Hears W ended isn reads r)
    (hg : Genuine W ended isn r.streamOut.written seg) (ht : r.Takes seg)
    (hw : TCPReceiver.Taken r seg r' w) : ∃ b', b ≤ b' ∧ Advertises isn r' b' := by
  have hle := h.le
  simp only [TCPReceiver.nextExpected, ByteStream.inputEnded, ht.open hh.inv,
    ByteStream.bytesWritten, Bool.false_eq_true, if_false] at hle
  -- where the counter starts from
  obtain ⟨p, hbp, hp, hbase⟩ : ∃ p, b ≤ p ∧ p ≤ 1 + r.streamOut.written ∧
      (if seg.header.syn then seg.header.seqno.add 1 else r.ackno) = wrap p isn := by
    rcases ht with ⟨hs, hl⟩ | ⟨hs, hsyn, -⟩
    · refine ⟨1, ?_, by omega, ?_⟩
      · rw [h.listen hl]
        exact Nat.zero_le 1
      · rw [if_pos hs, (hg.syn hs).2.2]
        exact add_one_eq_wrap isn
    · refine ⟨b, Nat.le_refl b, by omega, ?_⟩
      rw [hs, if_neg Bool.false_ne_true]
      exact h.ackno hsyn
  have hwr : r'.streamOut.written = r.streamOut.written + w.length := hw.pushed.written
  refine ⟨_, ?_, fun hs => ?_, fun _ => hw.ackno_eq hbase, ?_⟩
  · omega
  · rw [hw.syn] at hs
    cases hs
  · show _ ≤ 1 + r'.streamOut.written + (if r'.streamOut.inputEnd then 1 else 0)
    rw [hwr]
    apply Nat.add_le_add_right
    split <;> omega

theorem Advertises.segmentReceived (h : Advertises isn r b) (hh : Hears W ended isn reads r)
    (hg : Genuine W ended isn r.streamOut.written seg) :
    ∃ b', b ≤ b' ∧ Advertises isn (r.segmentReceived seg) b' := by
  by_cases ht : r.Takes seg
  · obtain ⟨w, hw⟩ := TCPReceiver.segmentReceived_taken hh.inv ht
    exact h.taken hh hg ht hw
  · rw [TCPReceiver.segmentReceived_idle hh.inv ht]
    exact ⟨b, Nat.le_refl b, h⟩

/-- An operation on the connection does not take an ack back. -/
theorem Advertises.step {c : TCPConnection} {op : TCPConnection.Op}
    (h : Advertises isn c.receiver b) (hh : Hears W ended isn reads c.receiver)
    (hg : ∀ seg, op = .segmentReceived seg →
      Genuine W ended isn c.inboundStream.bytesWritten seg) :
    ∃ b', b ≤ b' ∧ Advertises isn (c.step op).receiver b' := by
  obtain ⟨r, hr, hcase⟩ := step_receiver c op
  obtain ⟨b', hb, hfront⟩ : ∃ b', b ≤ b' ∧ Advertises isn r b' := by
    rcases hcase with ⟨rfl, -⟩ | ⟨n, -, rfl⟩ | ⟨seg, rfl, -, rfl⟩
    · exact ⟨b, Nat.le_refl b, h⟩
    · exact ⟨b, Nat.le_refl b, h.listen, h.ackno, h.le⟩
    · exact h.segmentReceived hh (hg seg rfl)
  refine ⟨b', hb, ?_⟩
  rcases hr with heq | heq
  · rw [heq]
    exact hfront
  · rw [heq]
    exact ⟨hfront.listen, hfront.ackno, hfront.le⟩

/-- What ends at or before what has been received in order is written. -/
theorem Hears.covers (h : Hears W ended isn reads r) (hc : Complete W r)
    (hcar : Carries W ended isn p seg) (hle : p + seg.lengthInSequenceSpace ≤ r.nextExpected) :
    SliceAt (reads ++ r.streamOut.buffer) (p - 1) seg.payload ∧
      (seg.header.fin = true →
        r.streamOut.inputEnd = true ∧ reads ++ r.streamOut.buffer = W) := by
  have hlen := h.length
  by_cases hp : p = 0
  · rw [hcar.syn hp]
    exact ⟨sliceAt_nil _ _, by rintro ⟨⟩⟩
  cases hend : r.streamOut.inputEnd with
  | true =>
    -- the stream has ended: all of `W` is there
    have hall : reads ++ r.streamOut.buffer = W :=
      h.stream.eq_of_length (hlen.trans (hc hend))
    rw [hall]
    exact ⟨hcar.slice hp, fun _ => ⟨rfl, rfl⟩⟩
  | false =>
    simp only [TCPReceiver.nextExpected, ByteStream.inputEnded, hend, ByteStream.bytesWritten,
      Bool.false_eq_true, if_false] at hle
    rw [TCPSegment.lengthInSequenceSpace, hcar.header hp] at hle
    simp only [Bool.false_eq_true, if_false] at hle
    refine ⟨(hcar.slice hp).restrict h.stream (by omega), fun hf => ?_⟩
    -- FIN lies behind all of `W`
    have hfin := (hcar.fin hf).2
    have hpre := h.stream.length_le
    rw [hf, if_pos rfl] at hle
    omega

end

/-! ## The sending side -/

namespace TCPSender

/-- Each of the entries is still outstanding, or acknowledged. -/
def Kept (old : List (Nat × TCPSegment)) (s : TCPSender) : Prop :=
  ∀ entry ∈ old, entry ∈ s.outstanding ∨
    entry.1 + entry.2.lengthInSequenceSpace ≤ s.receiveAck

section
variable {old : List (Nat × TCPSegment)} {s t e : TCPSender}

theorem Kept.same (h : Kept old s) (ht : Same s t) : Kept old t := by
  unfold Kept
  rw [ht.outstanding, ht.receiveAck]
  exact h

theorem Sent.outstanding {seg : TCPSegment} (ht : Sent s seg t) (hq : s.Queued) :
    t.outstanding = s.outstanding ++ [(s.nextSeqno, seg)] := by
  rw [TCPSender.outstanding, TCPSender.outstanding, ht.firstSeqno, ht.segmentsInFlight,
    numbered_append, hq.run.length]
  rfl

theorem Kept.sent {seg : TCPSegment} (h : Kept old s) (hq : s.Queued) (ht : Sent s seg t) :
    Kept old t := by
  intro entry hm
  rw [ht.outstanding hq, ht.receiveAck, List.mem_append]
  rcases h entry hm with h | h
  · exact .inl (.inl h)
  · exact .inr h

theorem Kept.fillWindow (h : Kept old s) (hq : s.Queued) : Kept old s.fillWindow :=
  (fillWindow_inv (P := fun t => t.Queued ∧ Kept old t)
    (fun hs => ⟨hq.fillWindow, h.sent hq (fillWindow_syn hs).1⟩)
    (fun b => ⟨hq.same (same_setZero s b), h.same (same_setZero s b)⟩)
    fun _ _ _ _ ht hp => ⟨hp.1.sent ht.sent, hp.2.sent hp.1 ht.sent⟩).2

/-- The pop loop pops only what ends at or before the ackno. -/
theorem Kept.acked {absAckno : Nat} {popped : List TCPSegment} (hq : s.Queued)
    (ha : Acked s absAckno e popped) (hn : s.nextSeqno + 2 ^ 32 ≤ 2 ^ 64) :
    Kept s.outstanding e := by
  intro entry hm
  rw [ha.outstanding hq, List.mem_append] at hm
  rcases hm with hm | hm
  · right
    obtain ⟨pre, post, hpop, hentry⟩ := mem_numbered.mp (show (entry.1, entry.2) ∈ _ from hm)
    have hrun := hq.run
    rw [ha.queue, hpop, List.append_assoc, Contiguous.append_iff, List.cons_append] at hrun
    obtain ⟨-, hseq, -, hrest⟩ := hrun
    have hstop := ha.stops_le entry.2 (by rw [hpop]; simp)
    have hlen := hrest.length
    have hread := le_unwrap_wrap (p := entry.1) (c := s.nextSeqno) s.isn hn (by omega)
    rw [hseq, ← hentry] at hstop
    have hack : e.receiveAck = absAckno := by rw [ha.eq]
    omega
  · exact .inl hm

theorem Kept.ackReceived (hq : s.Queued) (hn : s.nextSeqno + 2 ^ 32 ≤ 2 ^ 64)
    (ackno : WrappingInt32) (w : UInt16) : Kept s.outstanding (s.ackReceived ackno w) := by
  have hrefl : Kept s.outstanding s := fun entry hm => .inl hm
  have hw := same_setWindow s w
  rcases ackReceived_cases s ackno w with ⟨-, -, heq⟩ | ⟨-, -, -, heq⟩ |
    ⟨hle, -, e, popped, -, ha, heq⟩
  · rw [heq]
    exact hrefl
  · rw [heq]
    exact hrefl.same hw
  · have hk := Kept.acked (hq.same hw) ha hn
    rw [hw.outstanding] at hk
    rw [heq]
    exact (hk.fillWindow ((hq.same hw).acked ha hle)).same (same_restartTimer _)

end

/-- FIN is sent and nothing is outstanding. -/
def Finished (s : TCPSender) : Prop := s.syn = true ∧ s.fin = true ∧ s.segmentsInFlight = []

theorem Finished.fillWindow {s : TCPSender} (h : s.Finished) : s.fillWindow.Finished :=
  fillWindow_inv (P := Finished) (fun hs => by rw [h.1] at hs; cases hs) (fun _ => h)
    fun _ _ _ _ ht hf => absurd hf.2.1 (ne_true_of_eq_false ht.unfinished)

end TCPSender

namespace TCPConnection

/-- An operation changes the recorded ackno only by accepting an ack. -/
theorem step_receiveAck (c : TCPConnection) (op : Op) :
    (c.step op).sender.receiveAck = c.sender.receiveAck ∨
      ∃ seg, op = .segmentReceived seg ∧ c.Accepts seg ∧ seg.header.ack = true ∧
        c.sender.receiveAck < unwrap seg.header.ackno c.sender.isn c.sender.checkpoint ∧
        unwrap seg.header.ackno c.sender.isn c.sender.checkpoint ≤ c.sender.nextSeqno ∧
        (c.step op).sender.receiveAck =
          unwrap seg.header.ackno c.sender.isn c.sender.checkpoint := by
  have hsettle : (c.step op).sender.receiveAck = (c.front op).sender.receiveAck := by
    refine (step_settles c op).inv
      (P := fun c' => c'.sender.receiveAck = (c.front op).sender.receiveAck) ?_ rfl
    intro c1 c2 hs h1
    cases hs with
    | fill => exact (TCPSender.fillWindow_receiveAck c1.sender).trans h1
    | flush | sendEmpty | abort | flags => exact h1
  rw [hsettle]
  cases op with
  | connect | write _ | endInputStream | read _ => exact .inl rfl
  | tick ms =>
    rw [front]
    split
    · exact .inl rfl
    · exact .inl (TCPSender.tick_ticked c.sender ms).same.receiveAck
  | segmentReceived seg =>
    rw [front]
    split
    · rename_i hacc
      unfold hear acceptAck
      split
      · rename_i hack
        rw [Bool.and_eq_true] at hack
        rcases TCPSender.ackReceived_cases c.sender seg.header.ackno seg.header.win with
          ⟨-, -, heq⟩ | ⟨-, -, -, heq⟩ | ⟨hle, hgt, e, popped, -, ha, heq⟩
        · simp only [heq, true_or]
        · simp only [heq, true_or]
        · refine .inr ⟨seg, rfl, hacc, hack.1, hgt, hle, ?_⟩
          simp only [heq]
          rw [(TCPSender.same_restartTimer _).receiveAck, TCPSender.fillWindow_receiveAck, ha.eq]
      · exact .inl rfl
    · exact .inl rfl

end TCPConnection

/-- What leaves the queue in an operation ends at or before the recorded ackno. -/
theorem Speaks.kept_step {isn : WrappingInt32} {e : Endpoint} (h : Speaks isn e)
    (hW : e.outgoing.length < 2 ^ 63) (op : TCPConnection.Op) :
    TCPSender.Kept e.conn.sender.outstanding (e.conn.step op).sender := by
  have hnext := h.speaking.reading.nextSeqno_le
  have hq := h.speaking.queued
  have hrefl : TCPSender.Kept e.conn.sender.outstanding e.conn.sender := fun entry hm => .inl hm
  have hfront : TCPSender.Kept e.conn.sender.outstanding (e.conn.front op).sender := by
    cases op with
    | connect | write _ | endInputStream | read _ => exact hrefl
    | tick ms =>
      rw [TCPConnection.front]
      split
      · exact hrefl
      · exact hrefl.same (TCPSender.tick_ticked e.conn.sender ms).same
    | segmentReceived seg =>
      rw [TCPConnection.front]
      split
      · unfold hear acceptAck
        split
        · exact TCPSender.Kept.ackReceived hq (by omega) seg.header.ackno seg.header.win
        · exact hrefl
      · exact hrefl
  refine ((step_settles e.conn op).inv (P := fun c => c.sender.Queued ∧
    TCPSender.Kept e.conn.sender.outstanding c.sender) ?_ ⟨h.front.queued, hfront⟩).2
  rintro c c' hs ⟨hc, hk⟩
  cases hs with
  | fill => exact ⟨hc.fillWindow, hk.fillWindow hc⟩
  | flush => exact ⟨hc.same (TCPSender.same_setOut ..), hk.same (TCPSender.same_setOut ..)⟩
  | sendEmpty => exact ⟨hc.same (TCPSender.same_sendEmpty _), hk.same (TCPSender.same_sendEmpty _)⟩
  | abort => exact ⟨hc.same (TCPSender.same_setError _), hk.same (TCPSender.same_setError _)⟩
  | flags => exact ⟨hc, hk⟩

/-! ## The two sides together -/

/-- The ack was enqueued when more than 2^31 less was acknowledged than now, and is taken for a
new one. -/
def StaleAck (s : TCPSender) (pkt : Packet) : Prop :=
  pkt.heard + 2 ^ 31 < s.receiveAck ∧
    s.receiveAck < unwrap pkt.seg.header.ackno s.isn s.checkpoint ∧
    unwrap pkt.seg.header.ackno s.isn s.checkpoint ≤ s.nextSeqno

instance (s : TCPSender) (pkt : Packet) : Decidable (StaleAck s pkt) :=
  inferInstanceAs (Decidable (_ ∧ _ ∧ _))

/-- No stale ack is delivered to `y`. -/
def NoStaleAck (y : Side) (s : System) : Event → Prop
  | .deliver z k => z = y → ∀ pkt ∈ (s.endpoint y.other).net[k]?,
      (s.endpoint y).conn.Accepts pkt.seg → pkt.seg.header.ack = true →
        ¬ StaleAck (s.endpoint y).conn.sender pkt
  | .connect _ | .write _ _ | .endInputStream _ | .tick _ _ | .read _ _ => True

instance (y : Side) (s : System) : ∀ ev, Decidable (NoStaleAck y s ev)
  | .deliver z k => inferInstanceAs (Decidable (z = y → ∀ pkt ∈ (s.endpoint y.other).net[k]?, _))
  | .connect _ | .write _ _ | .endInputStream _ | .tick _ _ | .read _ _ => isTrue trivial

/-- While FIN is outstanding `y` writes nothing more. -/
def NoWriteBehindFin (y : Side) (s : System) : Event → Prop
  | .write z data => z = y → (s.endpoint y).conn.sender.fin = true →
      (s.endpoint y).conn.sender.segmentsInFlight ≠ [] → (s.endpoint y).writes (.write data) = []
  | .connect _ | .endInputStream _ | .tick _ _ | .read _ _ | .deliver _ _ => True

instance (y : Side) (s : System) : ∀ ev, Decidable (NoWriteBehindFin y s ev)
  | .write z _ => inferInstanceAs (Decidable (z = y → _ → _ → _))
  | .connect _ | .endInputStream _ | .tick _ _ | .read _ _ | .deliver _ _ => isTrue trivial

/-- What the event pops from the queue of the other side is written into the inbound stream of
`x`; with FIN, that stream has ended and is all that the other side wrote. -/
def PopsWritten (x : Side) (s : System) (ev : Event) : Prop :=
  ∀ entry ∈ (s.endpoint x.other).conn.sender.outstanding,
    entry ∉ ((s.step ev).endpoint x.other).conn.sender.outstanding →
    SliceAt (s.endpoint x).received (entry.1 - 1) entry.2.payload ∧
      (entry.2.header.fin = true → (s.endpoint x).conn.inboundStream.inputEnded = true ∧
        (s.endpoint x).received = (s.endpoint x.other).wrote)

instance (x : Side) (s : System) (ev : Event) : Decidable (PopsWritten x s ev) :=
  inferInstanceAs (Decidable (∀ entry ∈ _, _ → _))

/-- What `x` has acknowledged covers what the other side has recorded and what is on the
network. -/
def AckLink (isn : Side → WrappingInt32) (x : Side) (s : System) : Prop :=
  ∃ b, Advertises (isn x.other) (s.endpoint x).conn.receiver b ∧
    (s.endpoint x.other).conn.sender.receiveAck ≤ b ∧
    ∀ pkt ∈ (s.endpoint x).net, pkt.seg.header.ack = true →
      ∃ a, pkt.seg.header.ackno = wrap a (isn x.other) ∧ pkt.heard ≤ a ∧ a ≤ b

/-- What was written before FIN is all that was written, or nothing is outstanding any more. -/
def AllSent (e : Endpoint) : Prop := e.outgoing = e.wrote ∨ e.conn.sender.Finished

section
variable {isn : Side → WrappingInt32} {s : System} {x y : Side} {op : TCPConnection.Op} {ev : Event}

theorem AckLink.act_self (ha : AckLink isn x s) (h : Linked isn s) (hd : Delivered s x op) :
    AckLink isn x (s.act x op) := by
  obtain ⟨b, hadv, hle, hnet⟩ := ha
  obtain ⟨b', hb, hadv'⟩ := hadv.step (h.hears x) fun _ hop => h.genuine hd hop
  unfold AckLink System.act
  rw [System.endpoint_set, System.endpoint_set_other]
  refine ⟨b', hadv', by omega, fun pkt hm hack => ?_⟩
  rcases (h.speaks x).step_net op _ pkt hm with hm | ⟨hheard, hst⟩
  · obtain ⟨a, h1, h2, h3⟩ := hnet pkt hm hack
    exact ⟨a, h1, h2, by omega⟩
  · obtain ⟨hsyn, hackno⟩ := hst hack
    exact ⟨b', hackno.trans (hadv'.ackno hsyn), by omega, Nat.le_refl b'⟩

theorem AckLink.act_other (ha : AckLink isn x s) (h : Linked isn s) (hs : Short s)
    (hfresh : ∀ seg, op = .segmentReceived seg → (s.endpoint x.other).conn.Accepts seg →
      seg.header.ack = true → ∃ pkt ∈ (s.endpoint x).net, pkt.seg = seg ∧
        ¬ StaleAck (s.endpoint x.other).conn.sender pkt) :
    AckLink isn x (s.act x.other op) := by
  obtain ⟨b, hadv, hle, hnet⟩ := ha
  unfold AckLink System.act
  rw [System.endpoint_other_set, System.endpoint_set]
  refine ⟨b, hadv, ?_, hnet⟩
  rcases step_receiveAck (s.endpoint x.other).conn op with heq |
    ⟨seg, rfl, hacc, hack, hgt, hnext, heq⟩
  · exact Nat.le_trans (Nat.le_of_eq heq) hle
  · obtain ⟨pkt, hm, rfl, hst⟩ := hfresh seg rfl hacc hack
    obtain ⟨a, hackno, hheard, hab⟩ := hnet pkt hm hack
    have hsp := (h.speaks x.other).speaking
    have hlen := h.length_lt hs x.other
    have hread := hsp.reading.nextSeqno_le
    have hackle := hsp.queued.ack_le
    -- the ack is at most half the ring old, so it is not read as more than it stands for
    have hnear : (s.endpoint x.other).conn.sender.receiveAck ≤ pkt.heard + 2 ^ 31 := by
      by_contra hn
      exact hst ⟨by omega, hgt, hnext⟩
    apply Nat.le_trans (Nat.le_of_eq heq)
    rw [hackno, hsp.isn_eq, hsp.queued.checkpoint]
    exact Nat.le_trans (unwrap_wrap_le (isn x.other) (by omega) (by omega)) hab

theorem AckLink.step (ha : AckLink isn x s) (h : Linked isn s) (hs : Short s)
    (hr : InReach s ev) (hst : NoStaleAck x.other s ev) : AckLink isn x (s.step ev) := by
  unfold System.step
  cases ho : s.opOf ev with
  | none => exact ha
  | some zo =>
    obtain ⟨z, op⟩ := zo
    rcases side_cases x z with rfl | rfl
    · exact ha.act_self h (delivered_of_inReach hr ho)
    · apply ha.act_other h hs
      rintro seg rfl hacc hack
      obtain ⟨k, pkt, rfl, hpkt, rfl⟩ := opOf_segmentReceived ho
      have hfresh := hst rfl pkt hpkt hacc hack
      rw [Side.other_other] at hpkt
      exact ⟨pkt, List.mem_of_getElem? hpkt, rfl, hfresh⟩

theorem finished_step {e : Endpoint} (h : e.conn.sender.Finished) (op : TCPConnection.Op)
    (heard : Nat) : (e.step op heard).conn.sender.Finished := by
  refine step_sender (P := TCPSender.Finished) e.conn op ?_ ?_ ?_ ?_ ?_ h
  · intro s t hs hf
    exact ⟨hs.syn.trans hf.1, hs.fin.trans hf.2.1, hs.segmentsInFlight.trans hf.2.2⟩
  · intro s absAckno e popped ha hf
    have hq := ha.queue
    rw [hf.2.2, eq_comm, List.append_eq_nil_iff] at hq
    rw [ha.eq]
    exact ⟨hf.1, hf.2.1, hq.2⟩
  · exact fun s hf => hf.fillWindow
  · exact fun s data hf => hf
  · exact fun s hf => hf

theorem AllSent.step {e : Endpoint} {isn : WrappingInt32} (ha : AllSent e) (h : Speaks isn e)
    (hw : e.conn.sender.fin = true → e.conn.sender.segmentsInFlight ≠ [] → e.writes op = [])
    (heard : Nat) : AllSent (e.step op heard) := by
  have hr := h.speaking.reading
  rcases ha with ha | ha
  · cases hf : e.conn.sender.fin with
    | false =>
      left
      show e.outgoing ++ e.writesOut op = e.wrote ++ e.writes op
      rw [ha, Speaks.writesOut_of_open hf]
    | true =>
      by_cases hq : e.conn.sender.segmentsInFlight = []
      · have hsyn : e.conn.sender.syn = true := by
          by_contra hs
          rw [(hr.unstarted (by simpa using hs)).2] at hf
          cases hf
        exact .inr (finished_step ⟨hsyn, hf, hq⟩ op heard)
      · left
        show e.outgoing ++ e.writesOut op = e.wrote ++ e.writes op
        rw [ha, Speaks.writesOut_of_fin hf, hw hf hq]
  · exact .inr (finished_step ha op heard)

theorem allSent_step (ha : AllSent (s.endpoint y)) (h : Linked isn s)
    (hw : NoWriteBehindFin y s ev) : AllSent ((s.step ev).endpoint y) := by
  unfold System.step
  cases ho : s.opOf ev with
  | none => exact ha
  | some zo =>
    obtain ⟨z, op⟩ := zo
    simp only [System.act]
    rcases side_cases z y with rfl | rfl
    · rw [System.endpoint_set]
      refine ha.step (h.speaks y) (fun hf hq => ?_) _
      by_cases hd : ∃ data, op = .write data
      · obtain ⟨data, rfl⟩ := hd
        cases opOf_write ho
        exact hw rfl hf hq
      · exact Endpoint.writes_eq_nil _ fun data h' => hd ⟨data, h'⟩
    · rw [System.endpoint_set_other]
      exact ha

theorem popsWritten (h : Linked isn s) (hs : Short s) (hc : CompleteAt x s)
    (hall : AllSent (s.endpoint x.other)) (ha' : AckLink isn x (s.step ev)) :
    PopsWritten x s ev := by
  intro entry hm hpop
  unfold System.step at ha' hpop
  cases ho : s.opOf ev with
  | none =>
    rw [ho] at hpop
    exact absurd hm hpop
  | some zo =>
    obtain ⟨z, op⟩ := zo
    rw [ho] at ha' hpop
    simp only [System.act] at ha' hpop
    rcases side_cases x z with rfl | rfl
    · rw [System.endpoint_set_other] at hpop
      exact absurd hm hpop
    · obtain ⟨b, hadv, hle, -⟩ := ha'
      rw [System.endpoint_other_set] at hadv
      rw [System.endpoint_set] at hle hpop
      -- what is popped ends at or before the recorded ackno, and that has been received in order
      have hend : entry.1 + entry.2.lengthInSequenceSpace ≤
          (s.endpoint x).conn.receiver.nextExpected := by
        rcases (h.speaks x.other).kept_step (h.length_lt hs x.other) op entry hm with hk | hk
        · exact absurd hk hpop
        · exact Nat.le_trans (Nat.le_trans hk hle) hadv.le
      have hcar := (h.speaks x.other).speaking.carries entry (List.mem_append_right _ hm)
      obtain ⟨hslice, hfin⟩ := (h.hears x).covers hc hcar hend
      refine ⟨hslice, fun hf => ?_⟩
      obtain ⟨hended, hrecv⟩ := hfin hf
      refine ⟨hended, ?_⟩
      rcases hall with hall | hall
      · rw [← hall]
        exact hrecv
      · -- nothing is outstanding, so nothing is popped
        rw [TCPSender.outstanding, hall.2.2] at hm
        cases hm

theorem ackLink_mk {cfgA cfgB : TCPConfig} {randomA randomB : UInt32}
    (h : System.mk? cfgA cfgB randomA randomB = some s) (x : Side) : AckLink isn x s := by
  simp only [System.mk?, TCPConnection.mk?, TCPReceiver.mk?, Option.bind_eq_bind,
    Option.bind_eq_some_iff, Option.map_eq_some_iff, Option.pure_def, Option.some.injEq] at h
  obtain ⟨a, ⟨_, ⟨_, _, rfl⟩, rfl⟩, b, ⟨_, ⟨_, _, rfl⟩, rfl⟩, rfl⟩ := h
  refine ⟨0, ?_, ?_, ?_⟩
  · cases x <;> exact ⟨fun _ => rfl, by rintro ⟨⟩, Nat.zero_le _⟩
  · cases x <;> exact Nat.le_refl 0
  · cases x <;> rintro pkt ⟨⟩

end

/-- **No acknowledged byte is lost.** In every run in which no delivery to `x` completes an early
FIN, no stale ack comes to the other side and nothing is written there behind an outstanding FIN,
whatever the other side pops because of an ack has been written into the inbound stream of `x`. -/
theorem along_popsWritten (x : Side) (cfgA cfgB : TCPConfig) (randomA randomB : UInt32)
    (s : System) (evs : List Event) (h0 : System.mk? cfgA cfgB randomA randomB = some s)
    (hr : Along System.step InReach s evs) (hs : Always System.step Short s evs)
    (hne : Along System.step (NoEarlyFin x) s evs)
    (hst : Along System.step (NoStaleAck x.other) s evs)
    (hw : Along System.step (NoWriteBehindFin x.other) s evs) :
    Along System.step (PopsWritten x) s evs := by
  have hg := (((hr.and hs.along).and hne).and hst).and hw
  have hall := hg.always (I := fun s' => Linked (fun x => (s.endpoint x).conn.sender.isn) s' ∧
      CompleteAt x s' ∧ AckLink (fun x => (s.endpoint x).conn.sender.isn) x s' ∧
      AllSent (s'.endpoint x.other))
    ⟨linked_mk h0, completeAt_mk h0 x, ackLink_mk h0 x, .inl (outgoing_mk h0 x.other)⟩
    fun s' ev ⟨hl, hc, ha, hsent⟩ ⟨⟨⟨⟨hr, hs, _⟩, hne⟩, hst⟩, hw⟩ =>
      ⟨hl.step hs hr, hc.step hl hs hr hne, ha.step hl hs hr hst, allSent_step hsent hl hw⟩
  apply (hall.along.and hs.along).mono
  rintro s' ev ⟨⟨⟨hl, hc, -, hsent⟩, -, -, ha', -⟩, hs', -⟩
  exact popsWritten hl hs' hc hsent ha'

/-- The transfer in order, and the acks of it. -/
def ackedEvents : List Event := inOrderEvents ++ [.deliver .a 1, .deliver .a 2]

theorem popsWritten_inOrder : ∃ s, System.mk? (smallConfig 7) (smallConfig 40) 0 0 = some s ∧
    (run System.step s inOrderEvents).a.conn.sender.segmentsInFlight.length = 2 ∧
    (run System.step s ackedEvents).a.conn.sender.segmentsInFlight = [] ∧
    Along System.step (PopsWritten .b) s ackedEvents :=
  ⟨_, rfl, by decide, by decide, along_popsWritten .b (smallConfig 7) (smallConfig 40) 0 0 _ _ rfl
    (by decide) (by decide) (by decide) (by decide) (by decide)⟩

/-- One byte and the end, of which FIN comes first and is acknowledged. -/
def finAckedEvents : List Event :=
  [.connect .a, .deliver .b 0, .deliver .a 0, .deliver .b 1,
   .write .a [97], .endInputStream .a, .deliver .b 3, .deliver .a 1]

/-- FIN, counted without the byte before it, acknowledges that byte: the sender pops it though
the other side has not got it. -/
theorem unwritten_byte_popped :
    ∃ s, System.mk? (smallConfig 7) (smallConfig 40) 0 0 = some s ∧
      Along System.step InReach s finAckedEvents ∧
      (⟨8⟩ : WrappingInt32) ∉ (run System.step s finAckedEvents).a.conn.sender.segmentsInFlight.map
        (·.header.seqno) ∧
      (run System.step s finAckedEvents).a.wrote = [97] ∧
      (run System.step s finAckedEvents).b.received = [] ∧
      ¬ Along System.step (PopsWritten .b) s finAckedEvents :=
  ⟨_, rfl, by decide, by decide, by decide, by decide, by decide⟩

end Sponge
