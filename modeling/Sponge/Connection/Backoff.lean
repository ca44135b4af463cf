import Sponge.Connection.Tick

/-!
# Backoff

The timer has just been (re)started and no new ack comes: the oldest outstanding
segment is sent again after `rtTimeout`, twice that, four times that, and the
ninth time the connection gives up.

Whether `tick` doubles the timeout depends on the flag of a zero window, which
every `fillWindow` computes from the window on record. Until an ack has come
that window is 0, so the timeout of SYN is doubled at most once; and a timer
that starts on a stale clock (`Sponge.Timed`) is early. `schedule_iff`: from
every point but these, and only from those, each tick keeps to the schedule.
-/

namespace Sponge

open Lib TCPConnection
open TCPSender hiding Op step

/-- A connection, and what an observer has counted: the milliseconds ticked since the timer was
last (re)started, and the retransmissions since something started it that was not one. -/
structure Backoff where
  conn : TCPConnection
  elapsed : Nat := 0
  count : Nat := 0
  deriving DecidableEq, Repr

namespace Backoff

/-- From `s` to `t` the timer is started: something is outstanding that was not, or a new ack has
left something. -/
def Starts (s t : TCPSender) : Prop :=
  t.segmentsInFlight ≠ [] ∧ (s.segmentsInFlight = [] ∨ s.receiveAck < t.receiveAck)

instance (s t : TCPSender) : Decidable (Starts s t) := inferInstanceAs (Decidable (_ ∧ _))

def step (w : Backoff) (op : Op) : Backoff :=
  let c := w.conn.step op
  if Starts w.conn.sender c.sender then { conn := c }
  else match op with
    | .tick ms =>
      if added w.conn c = [] then { conn := c, elapsed := w.elapsed + ms, count := w.count }
      else { conn := c, count := w.count + 1 }
    | .connect | .write _ | .endInputStream | .segmentReceived _ | .read _ => { w with conn := c }

theorem step_conn (w : Backoff) (op : Op) : (w.step op).conn = w.conn.step op := by
  unfold step
  simp only
  split
  · rfl
  · split <;> try split
    all_goals rfl

/-- An ack of something that has been sent and was not acknowledged. -/
def Covers (s : TCPSender) (ackno : WrappingInt32) : Prop :=
  s.receiveAck < unwrap ackno s.isn s.checkpoint ∧ unwrap ackno s.isn s.checkpoint ≤ s.nextSeqno

instance (s : TCPSender) (ackno : WrappingInt32) : Decidable (Covers s ackno) :=
  inferInstanceAs (Decidable (_ ∧ _))

/-- No ack covers something new, and none advertises a window of 0. -/
def Undisturbed (w : Backoff) : Op → Prop
  | .segmentReceived seg => seg.header.ack = true →
      seg.header.win ≠ 0 ∧ ¬ Covers w.conn.sender seg.header.ackno
  | .connect | .write _ | .endInputStream | .tick _ | .read _ => True

instance (w : Backoff) : ∀ op, Decidable (w.Undisturbed op)
  | .segmentReceived _ => inferInstanceAs (Decidable (_ → _ ∧ _))
  | .connect | .write _ | .endInputStream | .tick _ | .read _ => isTrue trivial

/-- When the timer is to expire. -/
def due (w : Backoff) : Nat := w.conn.cfg.rtTimeout.toNat * 2 ^ w.count

/-- A tick sends nothing until the timer is due, and then the oldest outstanding segment; the ninth
time it ends the connection, with an error on both streams and an RST. Other calls send only
what is new. -/
def OnSchedule (w : Backoff) (op : Op) : Prop :=
  w.conn.active = true → match op with
    | .tick ms =>
      if w.elapsed + ms < w.due then
        added w.conn (w.conn.step op) = [] ∧ (w.conn.step op).active = true
      else if w.count < 8 then
        added w.conn (w.conn.step op) =
          (w.conn.sender.segmentsInFlight.take 1).map w.conn.stamp ∧
        (w.conn.step op).active = true
      else
        (w.conn.step op).active = false ∧ (w.conn.step op).sender.stream.error = true ∧
        (w.conn.step op).inboundStream.error = true ∧
        ∃ seg ∈ added w.conn (w.conn.step op), seg.header.rst = true
    | .connect | .write _ | .endInputStream | .segmentReceived _ | .read _ =>
      (w.conn.step op).sender.nextSeqno =
        w.conn.sender.nextSeqno + seqLength (added w.conn (w.conn.step op))

instance (w : Backoff) (op : Op) : Decidable (w.OnSchedule op) := by
  unfold OnSchedule
  cases op <;> infer_instance

/-- The 64-bit clock does not wrap around to below the timeout. -/
def Unwrapped (w : Backoff) : Op → Prop
  | .tick ms => w.conn.active = true → w.conn.sender.segmentsInFlight ≠ [] →
      w.conn.sender.clock + ms < 2 ^ 64 ∨
        w.conn.sender.retransTimeout.toNat ≤ w.conn.sender.clockAfter ms
  | .connect | .write _ | .endInputStream | .segmentReceived _ | .read _ => True

instance (w : Backoff) : ∀ op, Decidable (w.Unwrapped op)
  | .tick _ => inferInstanceAs (Decidable (_ → _ → _))
  | .connect | .write _ | .endInputStream | .segmentReceived _ | .read _ => isTrue trivial

/-- A window other than 0 is on record, and the clock is where the observer's is. -/
def Ready (w : Backoff) : Prop :=
  w.conn.active = true → w.conn.cfg.rtTimeout = 0 ∨
    w.conn.sender.windowSize ≠ 0 ∧ w.conn.sender.clock = 0

instance (w : Backoff) : Decidable w.Ready := inferInstanceAs (Decidable (_ → _ ∨ _ ∧ _))

section
variable {c : TCPConnection} {w : Backoff} {op : Op}

/-! ## What a call does to the timer -/

/-- `b` is `a` with an empty segment pushed at most. -/
structure Prompted (a b : TCPConnection) : Prop where
  segmentsOut : b.segmentsOut = a.segmentsOut
  sender : b.sender = { a.sender with segmentsOut := b.sender.segmentsOut }
  length : seqLength b.sender.segmentsOut = seqLength a.sender.segmentsOut

/-- A call is over when the sender or the receiver has had its argument, fills the window, or
shuts the connection down. -/
theorem step_eq (h : c.Live) (ha : c.active = true) (op : Op) : c.step op = c.begun op ∨
    (∃ b, Prompted (c.begun op) b ∧ c.step op = b.sent.cleanShutdown) ∨
    (c.step op).active = false ∧
      ((∃ ms, op = .tick ms) ∨ c.step op = (c.begun op).uncleanShutdown false) := by
  have hends := step_ends h ha op
  generalize c.step op = c' at hends
  cases hends with
  | listening | read | ignored => exact .inl rfl
  | sends => exact .inr (.inl ⟨c.begun op, ⟨rfl, rfl, rfl⟩, rfl⟩)
  | answers seg =>
    refine .inr (.inl ⟨{ c.begun (.segmentReceived seg) with
      sender := (c.begun (.segmentReceived seg)).sender.sendEmptySegment }, ⟨rfl, rfl, ?_⟩, rfl⟩)
    exact seqLength_append ..
  | resets => exact .inr (.inr ⟨rfl, .inr rfl⟩)
  | givesUp ms =>
    exact .inr (.inr
      ⟨segmentSends_inactive (uncleanShutdown_inactive _ true) false, .inl ⟨ms, rfl⟩⟩)

theorem fillWindow_seqLength (s : TCPSender) : s.nextSeqno + seqLength s.fillWindow.segmentsOut =
    s.fillWindow.nextSeqno + seqLength s.segmentsOut :=
  fillWindow_inv (P := fun t => s.nextSeqno + seqLength t.segmentsOut =
      t.nextSeqno + seqLength s.segmentsOut)
    (fun hs => by
      have hsent := (fillWindow_syn hs).1
      rw [hsent.nextSeqno, hsent.segmentsOut, seqLength_append, seqLength_cons, seqLength_nil]
      omega)
    (fun _ => rfl)
    fun _ _ _ _ ht hp => by
      rw [ht.sent.nextSeqno, ht.sent.segmentsOut, seqLength_append, seqLength_cons, seqLength_nil]
      omega

theorem seqLength_map_stamp (c : TCPConnection) (segs : List TCPSegment) :
    seqLength (segs.map c.stamp) = seqLength segs := by
  induction segs with
  | nil => rfl
  | cons seg segs ih => rw [List.map_cons, seqLength_cons, seqLength_cons, stamp_length, ih]

/-- The last part of a call leaves the timer alone, but for a clock that starts. -/
theorem step_keeps (h : c.Live) (ha : c.active = true) (op : Op)
    (ha' : (c.step op).active = true) : Keeps (c.begun op).sender (c.step op).sender ∧
      (c.step op).sender.receiveAck = (c.begun op).sender.receiveAck ∧
      (c.step op).sender.windowSize = (c.begun op).sender.windowSize := by
  rcases step_eq h ha op with heq | ⟨b, hb, heq⟩ | ⟨hdown, -⟩
  · rw [heq]
    exact ⟨.refl _, rfl, rfl⟩
  · rw [heq, (sent_sender b).1]
    have hk : Keeps (c.begun op).sender b.sender := by
      rw [hb.sender]
      exact ⟨rfl, rfl, rfl, .inl ⟨rfl, rfl, rfl⟩⟩
    have hout : Keeps b.sender.fillWindow { b.sender.fillWindow with segmentsOut := [] } :=
      ⟨rfl, rfl, rfl, .inl ⟨rfl, rfl, rfl⟩⟩
    refine ⟨(hk.trans (fillWindow_keeps _)).trans hout, ?_, ?_⟩
    · show b.sender.fillWindow.receiveAck = _
      rw [fillWindow_receiveAck, hb.sender]
    · show b.sender.fillWindow.windowSize = _
      rw [fillWindow_windowSize, hb.sender]
  · rw [hdown] at ha'
    cases ha'

/-- With nothing pushed before its last part, a call that is not a tick sends only what is new. -/
theorem step_seqLength (h : c.Live) (ha : c.active = true) (ht : ∀ ms, op ≠ .tick ms)
    (hout : (c.begun op).sender.segmentsOut = []) : (c.step op).sender.nextSeqno =
      (c.begun op).sender.nextSeqno + seqLength (added c (c.step op)) := by
  have hframe : (c.begun op).segmentsOut = c.segmentsOut := by rw [begun_frame]
  rcases step_eq h ha op with heq | ⟨b, hb, heq⟩ | ⟨-, ⟨ms, ho⟩ | heq⟩
  · have hnil : added c (c.begun op) = [] := added_eq (by rw [hframe]; simp)
    rw [heq, hnil]
    rfl
  · have hq := (sent_cleanShutdown b).1
    have hfill := fillWindow_seqLength b.sender
    have hnext : b.sender.nextSeqno = (c.begun op).sender.nextSeqno := by rw [hb.sender]
    rw [hb.length, hout, seqLength_nil, hnext] at hfill
    rw [hb.segmentsOut, hframe] at hq
    rw [heq, added_eq hq, (sent_sender b).1, seqLength_map_stamp]
    exact hfill.symm
  · exact absurd ho (ht ms)
  · have hnil : added c ((c.begun op).uncleanShutdown false) = [] := added_eq (by
      show (c.begun op).segmentsOut = _
      rw [hframe]
      simp)
    rw [heq, hnil]
    rfl

/-- The sender has not seen a new ack: its queue and its timer are where they were. -/
structure Unmoved (s t : TCPSender) : Prop extends SameTimer s t where
  receiveAck : t.receiveAck = s.receiveAck
  nextSeqno : t.nextSeqno = s.nextSeqno
  segmentsOut : t.segmentsOut = s.segmentsOut

theorem unmoved_refl (s : TCPSender) : Unmoved s s :=
  ⟨⟨rfl, rfl, rfl, rfl, rfl, rfl⟩, rfl, rfl, rfl⟩

theorem ackReceived_moves (s : TCPSender) (ackno : WrappingInt32) (win : UInt16) :
    (¬ Covers s ackno ∧ Unmoved s (s.ackReceived ackno win) ∧
        ((s.ackReceived ackno win).windowSize = s.windowSize ∨
          (s.ackReceived ackno win).windowSize = win)) ∨
      (Covers s ackno ∧ Rewound s (s.ackReceived ackno win) ∧
        s.receiveAck < (s.ackReceived ackno win).receiveAck) := by
  have htimer := ackReceived_timer s ackno win
  rcases ackReceived_cases s ackno win with ⟨hgt, -, heq⟩ | ⟨-, hle, -, heq⟩ |
    ⟨hle, hgt, e, popped, he, hacked, heq⟩
  · exact .inl ⟨fun hc => by have := hc.2; omega, by rw [heq]; exact unmoved_refl s,
      .inl (by rw [heq])⟩
  · exact .inl ⟨fun hc => by have := hc.1; omega,
      by rw [heq]; exact ⟨⟨rfl, rfl, rfl, rfl, rfl, rfl⟩, rfl, rfl, rfl⟩, .inr (by rw [heq])⟩
  · rcases htimer with ⟨hn, -⟩ | ⟨-, hr, -⟩
    · rw [he] at hn
      cases hn
    · refine .inr ⟨⟨hgt, hle⟩, hr, ?_⟩
      rw [heq, (same_restartTimer _).receiveAck, fillWindow_receiveAck, hacked.eq]
      exact hgt

/-- Only a new ack moves the timer of a call that is not a tick. -/
theorem begun_moves (c : TCPConnection) {op : Op} (ht : ∀ ms, op ≠ .tick ms) :
    Unmoved c.sender (c.begun op).sender ∨
      (Rewound c.sender (c.begun op).sender ∧
        c.sender.receiveAck < (c.begun op).sender.receiveAck) := by
  cases op with
  | tick ms => exact absurd rfl (ht ms)
  | connect | read _ => exact .inl (unmoved_refl _)
  | write _ | endInputStream => exact .inl ⟨⟨rfl, rfl, rfl, rfl, rfl, rfl⟩, rfl, rfl, rfl⟩
  | segmentReceived seg =>
    by_cases hacc : c.Accepts seg
    · rw [begun_sender hacc]
      split
      · rcases ackReceived_moves c.sender seg.header.ackno seg.header.win with ⟨-, hu, -⟩ | ⟨-, hr⟩
        · exact .inl hu
        · exact .inr hr
      · exact .inl (unmoved_refl _)
    · rw [begun_refused hacc]
      exact .inl (unmoved_refl _)

/-- With no new ack and no closed window the timer and the window stay. -/
theorem Undisturbed.begun (hu : w.Undisturbed op) (ht : ∀ ms, op ≠ .tick ms) :
    Unmoved w.conn.sender (w.conn.begun op).sender ∧
      (w.conn.sender.windowSize ≠ 0 → (w.conn.begun op).sender.windowSize ≠ 0) := by
  cases op with
  | tick ms => exact absurd rfl (ht ms)
  | connect | read _ => exact ⟨unmoved_refl _, id⟩
  | write _ | endInputStream =>
    exact ⟨⟨⟨rfl, rfl, rfl, rfl, rfl, rfl⟩, rfl, rfl, rfl⟩, id⟩
  | segmentReceived seg =>
    by_cases hacc : w.conn.Accepts seg
    · rw [begun_sender hacc]
      split
      · rename_i hack
        obtain ⟨hwin, hcov⟩ := hu hack.1
        rcases ackReceived_moves w.conn.sender seg.header.ackno seg.header.win with
          ⟨-, hm, hw⟩ | ⟨hc, -⟩
        · refine ⟨hm, fun h0 => ?_⟩
          rcases hw with hw | hw <;> rw [hw]
          · exact h0
          · exact hwin
        · exact absurd hc hcov
      · exact ⟨unmoved_refl _, id⟩
    · rw [begun_refused hacc]
      exact ⟨unmoved_refl _, id⟩

/-! ## The observer and the counter agree -/

/-- The timeout is the initial one until something is sent again, and the observer counts what
the sender counts. -/
structure Synced (w : Backoff) : Prop where
  live : w.conn.Live
  initial : w.conn.sender.initialRetransmissionTimeout = w.conn.cfg.rtTimeout.toUInt32
  idle : w.conn.sender.segmentsInFlight = [] → w.conn.sender.consecutiveRetrans = 0
  first : w.conn.sender.consecutiveRetrans = 0 →
    w.conn.sender.retransTimeout = w.conn.sender.initialRetransmissionTimeout
  counted : w.conn.sender.segmentsInFlight ≠ [] →
    w.conn.sender.consecutiveRetrans.toNat = w.count

theorem step_of_starts (h : Starts w.conn.sender (w.conn.step op).sender) :
    w.step op = { conn := w.conn.step op } := if_pos h

/-- A timer that runs is started by a new ack only. -/
theorem not_starts {s t : TCPSender} (hq : s.segmentsInFlight ≠ [])
    (hack : t.receiveAck = s.receiveAck) : ¬ Starts s t := by
  rintro ⟨-, hnil | hgt⟩
  · exact hq hnil
  · rw [hack] at hgt
    exact absurd hgt (Nat.lt_irrefl _)

theorem step_of_call (ht : ∀ ms, op ≠ .tick ms)
    (h : ¬ Starts w.conn.sender (w.conn.step op).sender) :
    w.step op = { w with conn := w.conn.step op } := by
  cases op with
  | tick ms => exact absurd rfl (ht ms)
  | connect | write _ | endInputStream | segmentReceived _ | read _ => exact if_neg h

theorem Synced.call (h : w.Synced) (ha : w.conn.active = true) (ht : ∀ ms, op ≠ .tick ms)
    (ha' : (w.conn.step op).active = true) : (w.step op).Synced := by
  have hlive := h.live.step ha op ha'
  obtain ⟨hk, hack, -⟩ := step_keeps h.live ha op ha'
  have hqueue : (w.conn.step op).sender.segmentsInFlight = [] →
      (w.conn.begun op).sender.segmentsInFlight = [] := by
    intro hq
    rcases hk.clock with ⟨h1, -, -⟩ | ⟨⟨seg, new, h1⟩, -, -⟩
    · rw [← h1]
      exact hq
    · rw [h1] at hq
      simp at hq
  rcases begun_moves w.conn ht with hu | ⟨hr, hgt⟩
  · refine ⟨by rw [step_conn]; exact hlive, ?_, ?_, ?_, ?_⟩
    · rw [step_conn, hk.initialRetransmissionTimeout, hu.initialRetransmissionTimeout, step_cfg]
      exact h.initial
    · rw [step_conn, hk.consecutiveRetrans, hu.consecutiveRetrans]
      exact fun hq => h.idle (hu.segmentsInFlight ▸ hqueue hq)
    · rw [step_conn, hk.consecutiveRetrans, hu.consecutiveRetrans, hk.retransTimeout,
        hu.retransTimeout, hk.initialRetransmissionTimeout, hu.initialRetransmissionTimeout]
      exact h.first
    · rw [step_conn, hk.consecutiveRetrans, hu.consecutiveRetrans]
      intro hq
      by_cases hs : Starts w.conn.sender (w.conn.step op).sender
      · -- the queue was empty
        rw [step_of_starts hs]
        rcases hs.2 with hnil | hlt
        · rw [h.idle hnil]
          rfl
        · rw [hack, hu.receiveAck] at hlt
          omega
      · rw [step_of_call ht hs]
        exact h.counted fun hnil => hs ⟨hq, .inl hnil⟩
  · refine ⟨by rw [step_conn]; exact hlive, ?_, ?_, ?_, ?_⟩
    · rw [step_conn, hk.initialRetransmissionTimeout, hr.initialRetransmissionTimeout, step_cfg]
      exact h.initial
    · rw [step_conn, hk.consecutiveRetrans, hr.consecutiveRetrans]
      exact fun _ => rfl
    · rw [step_conn, hk.retransTimeout, hr.retransTimeout, hk.initialRetransmissionTimeout,
        hr.initialRetransmissionTimeout]
      exact fun _ => rfl
    · rw [step_conn, hk.consecutiveRetrans, hr.consecutiveRetrans]
      intro hq
      rw [step_of_starts ⟨hq, .inr (by rw [hack]; exact hgt)⟩]
      rfl

/-- The timer runs and is not due: a tick moves the clocks. -/
theorem Synced.waits (ms : Nat) (h : w.Synced) (ha : w.conn.active = true)
    (hq : w.conn.sender.segmentsInFlight ≠ [])
    (hlt : w.conn.sender.clockAfter ms < w.conn.sender.retransTimeout.toNat) :
    w.step (.tick ms) =
        { conn := w.conn.step (.tick ms), elapsed := w.elapsed + ms, count := w.count } ∧
      (w.conn.step (.tick ms)).active = true ∧ added w.conn (w.conn.step (.tick ms)) = [] ∧
      (w.conn.step (.tick ms)).sender = { w.conn.sender with
        clock := w.conn.sender.clockAfter ms
        clockIsCounting := true
        windowIsZero := w.conn.sender.windowSize == 0 } := by
  obtain ⟨heq, -⟩ := tick_waits ms (.inr hlt)
  obtain ⟨h1, h2, -, h4⟩ := h.live.tick_sent ms ha (h.live.sender.started.syn hq)
    (by rw [heq]; exact h.live.retrans)
  rw [heq] at h1 h2
  rw [h.live.sender.out] at h2
  have hcount :
      (!w.conn.sender.segmentsInFlight.isEmpty && w.conn.sender.clockIsCounting) = true := by
    rw [h.live.sender.timer.counting hq]
    simpa using hq
  rw [hcount] at h1
  refine ⟨?_, h4 (.inl hq), h2, by rw [h1, ← h.live.sender.out]⟩
  have hns : ¬ Starts w.conn.sender (w.conn.step (.tick ms)).sender :=
    not_starts hq (by rw [h1])
  exact (if_neg hns).trans (if_pos h2)

/-- The timer expires, not for the ninth time: the oldest segment is sent again. -/
theorem Synced.fires (ms : Nat) (h : w.Synced) (ha : w.conn.active = true)
    (hq : w.conn.sender.segmentsInFlight ≠ [])
    (hle : w.conn.sender.retransTimeout.toNat ≤ w.conn.sender.clockAfter ms)
    (h8 : w.count < 8) :
    w.step (.tick ms) = { conn := w.conn.step (.tick ms), count := w.count + 1 } ∧
      (w.conn.step (.tick ms)).active = true ∧
      added w.conn (w.conn.step (.tick ms)) =
        (w.conn.sender.segmentsInFlight.take 1).map w.conn.stamp ∧
      (w.conn.step (.tick ms)).sender = { w.conn.sender with
        consecutiveRetrans := w.conn.sender.consecutiveRetrans + 1
        clockIsCounting := true
        clock := 0
        retransTimeout := if w.conn.sender.windowIsZero = false then
          w.conn.sender.retransTimeout * 2 else w.conn.sender.retransTimeout
        windowIsZero := w.conn.sender.windowSize == 0 } := by
  have hcounted := h.counted hq
  obtain ⟨seg, rest, hseg⟩ := List.exists_cons_of_ne_nil hq
  obtain ⟨heq, -⟩ := tick_fires hseg hle
  obtain ⟨h1, h2, -, h4⟩ := h.live.tick_sent ms ha (h.live.sender.started.syn hq) (by
    rw [heq]
    intro hgt
    have := (retrans_le h.live.retrans).mp hgt
    rw [this] at hcounted
    have h8' : (8 : UInt32).toNat = 8 := rfl
    omega)
  rw [heq] at h1 h2
  have hout : (w.conn.sender.retransmit seg).segmentsOut = [seg] := by
    simp [retransmit, h.live.sender.out]
  rw [hout] at h2
  refine ⟨?_, h4 (.inl hq), by rw [h2, hseg]; rfl, by rw [h1, ← h.live.sender.out]; rfl⟩
  have hns : ¬ Starts w.conn.sender (w.conn.step (.tick ms)).sender :=
    not_starts hq (by rw [h1]; rfl)
  exact (if_neg hns).trans (if_neg (by rw [h2]; simp))

/-- The timer expires for the ninth time. -/
theorem Synced.givesUp (h : w.Synced) (hq : w.conn.sender.segmentsInFlight ≠ []) {ms : Nat}
    (hle : w.conn.sender.retransTimeout.toNat ≤ w.conn.sender.clockAfter ms)
    (h8 : ¬ w.count < 8) :
    (w.conn.sender.tick ms).consecutiveRetrans > TCPConfig.MAX_RETX_ATTEMPTS := by
  obtain ⟨seg, rest, hseg⟩ := List.exists_cons_of_ne_nil hq
  rw [(tick_fires hseg hle).1]
  refine (retrans_le h.live.retrans).mpr ?_
  have hmax := h.live.retrans
  have hcounted := h.counted hq
  have h8' : (8 : UInt32).toNat = 8 := rfl
  rw [gt_iff_lt, UInt32.lt_iff_toNat_lt] at hmax
  have hmax' : TCPConfig.MAX_RETX_ATTEMPTS.toNat = 8 := rfl
  rw [← UInt32.toNat_inj]
  omega

theorem Synced.tick (h : w.Synced) (ha : w.conn.active = true) {ms : Nat}
    (ha' : (w.conn.step (.tick ms)).active = true) : (w.step (.tick ms)).Synced := by
  have hlive := h.live.step ha (.tick ms) ha'
  by_cases hq : w.conn.sender.segmentsInFlight = []
  · obtain ⟨hk, -, -⟩ := step_keeps h.live ha (.tick ms) ha'
    have htick : (w.conn.begun (.tick ms)).sender = w.conn.sender.tick ms := by rw [begun_tick ha]
    rw [htick, (tick_waits ms (.inl hq)).1] at hk
    have hzero : (w.conn.step (.tick ms)).sender.consecutiveRetrans = 0 :=
      hk.consecutiveRetrans.trans (h.idle hq)
    refine ⟨by rw [step_conn]; exact hlive, ?_, ?_, ?_, ?_⟩
    · rw [step_conn, hk.initialRetransmissionTimeout, step_cfg]
      exact h.initial
    · rw [step_conn]
      exact fun _ => hzero
    · rw [step_conn, hk.retransTimeout, hk.initialRetransmissionTimeout]
      exact fun _ => h.first (h.idle hq)
    · rw [step_conn, hzero]
      intro hq'
      rw [step_of_starts ⟨hq', .inl hq⟩]
      rfl
  · have hcounted := h.counted hq
    rcases Nat.lt_or_ge (w.conn.sender.clockAfter ms) w.conn.sender.retransTimeout.toNat with
      hlt | hle
    · obtain ⟨hw, -, -, hs⟩ := h.waits ms ha hq hlt
      rw [hw]
      refine ⟨hlive, ?_, ?_, ?_, ?_⟩ <;> simp only [hs]
      · rw [step_cfg]
        exact h.initial
      · exact h.idle
      · exact h.first
      · exact h.counted
    · by_cases h8 : w.count < 8
      · obtain ⟨hw, -, -, hs⟩ := h.fires ms ha hq hle h8
        have hone : (w.conn.sender.consecutiveRetrans + 1).toNat = w.count + 1 := by
          rw [UInt32.toNat_add, hcounted]
          have h1 : (1 : UInt32).toNat = 1 := rfl
          omega
        rw [hw]
        refine ⟨hlive, ?_, ?_, ?_, ?_⟩ <;> simp only [hs]
        · rw [step_cfg]
          exact h.initial
        · exact fun hnil => absurd hnil hq
        · intro hz
          rw [hz] at hone
          cases hone
        · exact fun _ => hone
      · rw [(h.live.tick_givesUp ha (h.givesUp hq hle h8)).1] at ha'
        cases ha'

/-- An active connection is in step with the observer. -/
theorem synced_step (h : w.conn.active = true → w.Synced) (op : Op) :
    (w.step op).conn.active = true → (w.step op).Synced := by
  rw [step_conn]
  intro ha'
  cases ha : w.conn.active with
  | false =>
    rw [step_inactive ha] at ha'
    cases ha'
  | true =>
    cases op with
    | tick ms => exact (h ha).tick ha ha'
    | connect | write _ | endInputStream | segmentReceived _ | read _ =>
      exact (h ha).call ha (by rintro _ ⟨⟩) ha'

theorem synced_run {cfg : TCPConfig} {random : UInt32} {c0 : TCPConnection}
    (h : mk? cfg random = some c0) (ops : List Op) :
    (run step { conn := c0 } ops).conn.active = true → (run step { conn := c0 } ops).Synced := by
  refine run_inv (I := fun w : Backoff => w.conn.active = true → w.Synced) (fun _ => ?_)
    (fun _ op hw => synced_step hw op) ops
  have hlive := live_mk h
  simp only [mk?, Option.map_eq_some_iff] at h
  obtain ⟨r, -, rfl⟩ := h
  exact ⟨hlive, rfl, fun _ => rfl, fun _ => rfl, fun hq => absurd rfl hq⟩

/-! ## From a timer that has just been started -/

/-- The sender's timer is the observer's, and the timeout has been doubled each time. -/
structure Paced (w : Backoff) : Prop extends w.Synced where
  queue : w.conn.sender.segmentsInFlight ≠ []
  clock : w.conn.cfg.rtTimeout = 0 ∨
    w.conn.sender.windowSize ≠ 0 ∧ w.conn.sender.clock = w.elapsed
  timeout : w.conn.sender.retransTimeout.toNat = w.due

/-- Before the first retransmission the timeout is that of the configuration. -/
theorem Synced.timeout (h : w.Synced) (hq : w.conn.sender.segmentsInFlight ≠ [])
    (hc : w.count = 0) :
    w.conn.sender.retransTimeout.toNat = w.conn.cfg.rtTimeout.toNat := by
  have hzero : w.conn.sender.consecutiveRetrans = 0 := by
    rw [← UInt32.toNat_inj, h.counted hq, hc]
    rfl
  rw [h.first hzero, h.initial]
  simp

theorem Synced.paced (h : w.Synced) (hq : w.conn.sender.segmentsInFlight ≠ [])
    (he : w.elapsed = 0) (hc : w.count = 0) (hr : w.conn.cfg.rtTimeout = 0 ∨
      w.conn.sender.windowSize ≠ 0 ∧ w.conn.sender.clock = 0) : w.Paced := by
  refine ⟨h, hq, by rw [he]; exact hr, ?_⟩
  rw [h.timeout hq hc, due, hc, Nat.pow_zero, Nat.mul_one]

/-- As long as the 64-bit clock does not wrap around, the timer expires when it is due. -/
theorem Paced.due_iff (h : w.Paced) {ms : Nat} (hu : w.conn.sender.clock + ms < 2 ^ 64 ∨
      w.conn.sender.retransTimeout.toNat ≤ w.conn.sender.clockAfter ms) :
    w.conn.sender.retransTimeout.toNat ≤ w.conn.sender.clockAfter ms ↔
      w.due ≤ w.elapsed + ms := by
  have hca : w.conn.sender.clockAfter ms = (w.conn.sender.clock + ms) % 2 ^ 64 := rfl
  have hmod := Nat.mod_le (w.conn.sender.clock + ms) (2 ^ 64)
  have htimeout := h.timeout
  rcases h.clock with hz | ⟨-, hclock⟩
  · have hdue : w.due = 0 := by
      rw [due, hz]
      exact Nat.zero_mul _
    omega
  · rcases hu with hu | hu
    · rw [Nat.mod_eq_of_lt hu] at hca
      omega
    · omega

/-- The timeout of the next retransmission fits into 32 bits. -/
theorem Paced.doubled (h : w.Paced) (h8 : w.count < 8) :
    (w.conn.sender.retransTimeout * 2).toNat = w.conn.cfg.rtTimeout.toNat * 2 ^ (w.count + 1) := by
  have htimeout := h.timeout
  have hlt := w.conn.cfg.rtTimeout.toNat_lt
  have hpow : 2 ^ w.count ≤ 2 ^ 7 := Nat.pow_le_pow_right (by omega) (by omega)
  have hmul := Nat.mul_le_mul (Nat.le_of_lt hlt) hpow
  have h2 : (2 : UInt32).toNat = 2 := rfl
  rw [due] at htimeout
  rw [UInt32.toNat_mul, htimeout, h2, Nat.mod_eq_of_lt (by omega), Nat.pow_succ, Nat.mul_assoc]

/-- With a window on record, a retransmission doubles the timeout. -/
theorem Paced.backedOff (h : w.Paced) (h8 : w.count < 8) :
    (if w.conn.sender.windowIsZero = false then w.conn.sender.retransTimeout * 2
      else w.conn.sender.retransTimeout).toNat =
      w.conn.cfg.rtTimeout.toNat * 2 ^ (w.count + 1) := by
  rcases h.clock with hz | ⟨hwin, -⟩
  · have hzero : w.conn.sender.retransTimeout = 0 := by
      rw [← UInt32.toNat_inj, h.timeout, due, hz]
      exact Nat.zero_mul _
    have hrt : w.conn.cfg.rtTimeout.toNat = 0 := by rw [hz]; rfl
    rw [hzero, hrt, Nat.zero_mul]
    split <;> rfl
  · have hopen : w.conn.sender.windowIsZero = false := by
      by_contra hn
      exact hwin (h.live.sender.zero (by simpa using hn))
    rw [if_pos hopen]
    exact h.doubled h8

theorem Paced.call (h : w.Paced) (ha : w.conn.active = true) (hu : w.Undisturbed op)
    (ht : ∀ ms, op ≠ .tick ms) (ha' : (w.conn.step op).active = true) : (w.step op).Paced := by
  obtain ⟨hk, hack, hwin⟩ := step_keeps h.live ha op ha'
  obtain ⟨hm, hw⟩ := hu.begun ht
  have hsync := h.toSynced.call ha ht ha'
  have hns : ¬ Starts w.conn.sender (w.conn.step op).sender :=
    not_starts h.queue (hack.trans hm.receiveAck)
  have hq : (w.conn.step op).sender.segmentsInFlight ≠ [] ∧
      (w.conn.step op).sender.clock = w.conn.sender.clock := by
    have hq0 := h.queue
    rw [← hm.segmentsInFlight] at hq0
    rw [← hm.clock]
    rcases hk.clock with ⟨h1, -, h3⟩ | ⟨⟨seg, new, h1⟩, -, h3⟩
    · rw [h1]
      exact ⟨hq0, h3⟩
    · -- the clock is counting, so that what is sent does not reset it
      refine ⟨by rw [h1]; simp, h3.trans (if_neg ?_)⟩
      rw [hm.clockIsCounting, h.live.sender.timer.counting h.queue]
      simp
  rw [step_of_call ht hns] at hsync ⊢
  refine ⟨hsync, hq.1, ?_, ?_⟩
  · show (w.conn.step op).cfg.rtTimeout = 0 ∨ (w.conn.step op).sender.windowSize ≠ 0 ∧
      (w.conn.step op).sender.clock = w.elapsed
    rw [step_cfg, hwin, hq.2]
    exact h.clock.imp_right fun hc => ⟨hw hc.1, hc.2⟩
  · show (w.conn.step op).sender.retransTimeout.toNat = (w.conn.step op).cfg.rtTimeout.toNat * _
    rw [step_cfg, hk.retransTimeout, hm.retransTimeout]
    exact h.timeout

theorem Paced.onSchedule_call (h : w.Paced) (ha : w.conn.active = true) (hu : w.Undisturbed op)
    (ht : ∀ ms, op ≠ .tick ms) : w.OnSchedule op := by
  obtain ⟨hm, -⟩ := hu.begun ht
  have hout : (w.conn.begun op).sender.segmentsOut = [] := by
    rw [hm.segmentsOut, h.live.sender.out]
  have hnew := step_seqLength h.live ha ht hout
  rw [hm.nextSeqno] at hnew
  intro _
  cases op with
  | tick ms => exact absurd rfl (ht ms)
  | connect | write _ | endInputStream | segmentReceived _ | read _ => exact hnew

theorem Paced.tick (h : w.Paced) (ha : w.conn.active = true) {ms : Nat}
    (hwrap : w.Unwrapped (.tick ms)) : w.OnSchedule (.tick ms) ∧
      ((w.conn.step (.tick ms)).active = true → (w.step (.tick ms)).Paced) := by
  have hdue := h.due_iff (hwrap ha h.queue)
  unfold OnSchedule
  rcases Nat.lt_or_ge (w.conn.sender.clockAfter ms) w.conn.sender.retransTimeout.toNat with
    hlt | hle
  · obtain ⟨hw, hact, hadd, hs⟩ := h.waits ms ha h.queue hlt
    have hearly : w.elapsed + ms < w.due := by omega
    refine ⟨fun _ => ?_, fun ha' => ?_⟩
    · simp only
      rw [if_pos hearly]
      exact ⟨hadd, hact⟩
    · have hsync := h.toSynced.tick ha ha'
      rw [hw] at hsync ⊢
      refine ⟨hsync, ?_, ?_, ?_⟩
      · show (w.conn.step (.tick ms)).sender.segmentsInFlight ≠ []
        rw [hs]
        exact h.queue
      · show (w.conn.step (.tick ms)).cfg.rtTimeout = 0 ∨
          (w.conn.step (.tick ms)).sender.windowSize ≠ 0 ∧
            (w.conn.step (.tick ms)).sender.clock = w.elapsed + ms
        rw [hs, step_cfg]
        refine h.clock.imp_right fun hc => ⟨hc.1, ?_⟩
        show (w.conn.sender.clock + ms) % 2 ^ 64 = _
        rw [Nat.mod_eq_of_lt, hc.2]
        exact (hwrap ha h.queue).resolve_right (by omega)
      · show (w.conn.step (.tick ms)).sender.retransTimeout.toNat =
          (w.conn.step (.tick ms)).cfg.rtTimeout.toNat * _
        rw [hs, step_cfg]
        exact h.timeout
  · have hlate : ¬ w.elapsed + ms < w.due := by omega
    by_cases h8 : w.count < 8
    · obtain ⟨hw, hact, hadd, hs⟩ := h.fires ms ha h.queue hle h8
      refine ⟨fun _ => ?_, fun ha' => ?_⟩
      · simp only
        rw [if_neg hlate, if_pos h8]
        exact ⟨hadd, hact⟩
      · have hsync := h.toSynced.tick ha ha'
        rw [hw] at hsync ⊢
        refine ⟨hsync, ?_, ?_, ?_⟩
        · show (w.conn.step (.tick ms)).sender.segmentsInFlight ≠ []
          rw [hs]
          exact h.queue
        · show (w.conn.step (.tick ms)).cfg.rtTimeout = 0 ∨
            (w.conn.step (.tick ms)).sender.windowSize ≠ 0 ∧
              (w.conn.step (.tick ms)).sender.clock = 0
          rw [hs, step_cfg]
          exact h.clock.imp_right fun hc => ⟨hc.1, rfl⟩
        · show (w.conn.step (.tick ms)).sender.retransTimeout.toNat =
            (w.conn.step (.tick ms)).cfg.rtTimeout.toNat * 2 ^ (w.count + 1)
          rw [hs, step_cfg]
          exact h.backedOff h8
    · have hdown := h.live.tick_givesUp ha (h.givesUp h.queue hle h8)
      refine ⟨fun _ => ?_, fun ha' => ?_⟩
      · simp only
        rw [if_neg hlate, if_neg h8]
        exact hdown
      · rw [hdown.1] at ha'
        cases ha'

theorem Paced.onSchedule_iff (h : w.Paced) (ha : w.conn.active = true) (hu : w.Undisturbed op) :
    w.OnSchedule op ↔ w.Unwrapped op := by
  cases op with
  | connect | write _ | endInputStream | segmentReceived _ | read _ =>
    exact iff_of_true (h.onSchedule_call ha hu (by rintro _ ⟨⟩)) trivial
  | tick ms =>
    refine ⟨fun hs _ _ => ?_, fun hwrap => (h.tick ha hwrap).1⟩
    by_contra hn
    -- the clock has wrapped around: the timer is due and does not expire
    obtain ⟨hge, hlt⟩ := not_or.mp hn
    obtain ⟨-, hact, hadd, -⟩ := h.waits ms ha h.queue (Nat.lt_of_not_le hlt)
    have htimeout := h.timeout
    have hlt32 := w.conn.sender.retransTimeout.toNat_lt
    have hlate : ¬ w.elapsed + ms < w.due := by
      rcases h.clock with hz | ⟨-, hclock⟩
      · rw [due, hz]
        simp
      · omega
    have hs' := hs ha
    simp only at hs'
    rw [if_neg hlate, hadd, hact] at hs'
    split at hs'
    · exact oldest_ne_nil h.queue hs'.1.symm
    · cases hs'.1

/-- What is sent again before the timer is due is off the schedule. -/
theorem not_onSchedule_of_early (ha : w.conn.active = true)
    (hq : w.conn.sender.segmentsInFlight ≠ []) {ms : Nat} (hearly : w.elapsed + ms < w.due)
    (hadd : added w.conn (w.conn.step (.tick ms)) =
      (w.conn.sender.segmentsInFlight.take 1).map w.conn.stamp) : ¬ w.OnSchedule (.tick ms) := by
  intro hs
  have hs' := hs ha
  simp only at hs'
  rw [if_pos hearly, hadd] at hs'
  exact oldest_ne_nil hq hs'.1

/-- A timer that starts on a stale clock is early. -/
theorem Synced.early (h : w.Synced) (ha : w.conn.active = true)
    (hq : w.conn.sender.segmentsInFlight ≠ []) (he : w.elapsed = 0) (hc : w.count = 0)
    (hrt : w.conn.cfg.rtTimeout.toNat ≠ 0) (hclock : w.conn.sender.clock ≠ 0) :
    w.Unwrapped (.tick (w.conn.cfg.rtTimeout.toNat - w.conn.sender.clock)) ∧
      ¬ w.OnSchedule (.tick (w.conn.cfg.rtTimeout.toNat - w.conn.sender.clock)) := by
  have htimeout := h.timeout hq hc
  have hlt := h.live.sender.timer.clock_lt
  have hrtlt := w.conn.cfg.rtTimeout.toNat_lt
  obtain ⟨ms, hms⟩ : ∃ ms, ms = w.conn.cfg.rtTimeout.toNat - w.conn.sender.clock := ⟨_, rfl⟩
  have hca : w.conn.sender.clockAfter ms = w.conn.sender.clock + ms := Nat.mod_eq_of_lt (by omega)
  rw [← hms]
  refine ⟨fun _ _ => .inl (by omega), ?_⟩
  obtain ⟨-, -, hadd, -⟩ := h.fires ms ha hq (by omega) (by omega)
  exact not_onSchedule_of_early ha hq (by rw [due, hc]; omega) hadd

/-- With the closed window noted, what is sent again leaves the timeout. -/
theorem Synced.refires (ms : Nat) (h : w.Synced) (ha : w.conn.active = true)
    (hq : w.conn.sender.segmentsInFlight ≠ []) (hclock : w.conn.sender.clock = 0)
    (hzero : w.conn.sender.windowIsZero = true)
    (hms : ms = w.conn.sender.retransTimeout.toNat) (h8 : w.count < 8) :
    (w.step (.tick ms)).Synced ∧ (w.step (.tick ms)).conn.active = true ∧
      (w.step (.tick ms)).conn.sender.segmentsInFlight ≠ [] ∧
      (w.step (.tick ms)).conn.sender.clock = 0 ∧
      (w.step (.tick ms)).conn.sender.retransTimeout = w.conn.sender.retransTimeout ∧
      (w.step (.tick ms)).elapsed = 0 ∧ (w.step (.tick ms)).count = w.count + 1 := by
  have hlt := w.conn.sender.retransTimeout.toNat_lt
  have hca : w.conn.sender.clockAfter ms = ms := by
    rw [clockAfter, hclock, Nat.zero_add, Nat.mod_eq_of_lt (by omega)]
  obtain ⟨hw, hact, -, hs⟩ := h.fires ms ha hq (by omega) h8
  have hsync := h.tick ha hact
  rw [hw] at hsync ⊢
  refine ⟨hsync, hact, ?_, ?_, ?_, rfl, rfl⟩ <;> simp only [hs]
  · exact hq
  · rw [if_neg (by simp [hzero])]

/-- Before a window is known, the second retransmission comes after the same timeout as the
first. -/
theorem Synced.undoubled (h : w.Synced) (ha : w.conn.active = true)
    (hq : w.conn.sender.segmentsInFlight ≠ []) (hc : w.count = 0)
    (hrt : w.conn.cfg.rtTimeout.toNat ≠ 0) (hclock : w.conn.sender.clock = 0)
    (hwin : w.conn.sender.windowSize = 0) :
    Along step Unwrapped w [.tick 0, .tick w.conn.cfg.rtTimeout.toNat,
        .tick w.conn.cfg.rtTimeout.toNat] ∧
      ¬ Along step OnSchedule w [.tick 0, .tick w.conn.cfg.rtTimeout.toNat,
        .tick w.conn.cfg.rtTimeout.toNat] := by
  have htimeout := h.timeout hq hc
  have hlt := w.conn.cfg.rtTimeout.toNat_lt
  obtain ⟨ms, hms⟩ : ∃ ms, ms = w.conn.cfg.rtTimeout.toNat := ⟨_, rfl⟩
  rw [← hms]
  -- the tick that notes the closed window
  have hca0 : w.conn.sender.clockAfter 0 = 0 := by rw [clockAfter, hclock]; rfl
  obtain ⟨hw1, ha1, -, hs1⟩ := h.waits 0 ha hq (by omega)
  have hsync1 := h.tick ha ha1
  obtain ⟨w1, hw1'⟩ : ∃ w1, w1 = w.step (.tick 0) := ⟨_, rfl⟩
  rw [← hw1'] at hsync1 hw1
  have hact1 : w1.conn.active = true := by rw [hw1]; exact ha1
  have hsender1 : w1.conn.sender = { w.conn.sender with
      clock := 0, clockIsCounting := true, windowIsZero := true } := by
    have hz : (w.conn.sender.windowSize == 0) = true := by rw [hwin]; rfl
    rw [hca0, hz] at hs1
    rw [hw1]
    exact hs1
  -- the first retransmission
  obtain ⟨hsync2, hact2, hq2, hclock2, hto2, hel2, hcount2⟩ := hsync1.refires ms hact1
    (by rw [hsender1]; exact hq) (by rw [hsender1]) (by rw [hsender1])
    (by rw [hsender1]; exact hms.trans htimeout.symm) (by rw [hw1]; show w.count < 8; omega)
  obtain ⟨w2, hw2⟩ : ∃ w2, w2 = w1.step (.tick ms) := ⟨_, rfl⟩
  rw [← hw2] at hsync2 hact2 hq2 hclock2 hto2 hel2 hcount2
  have hto2' : w2.conn.sender.retransTimeout.toNat = ms := by
    rw [hto2, hsender1]
    exact htimeout.trans hms.symm
  have hca2 : w2.conn.sender.clockAfter ms = ms := by
    rw [clockAfter, hclock2, Nat.zero_add, Nat.mod_eq_of_lt (by omega)]
  have hone : w2.count = 1 := by rw [hcount2, hw1]; exact congrArg (· + 1) hc
  -- the second one
  obtain ⟨-, -, hadd, -⟩ := hsync2.fires ms hact2 hq2 (by omega) (by omega)
  constructor
  · refine ⟨fun _ _ => .inl (by omega), ?_, ?_, trivial⟩
    · have hclock1 : w1.conn.sender.clock = 0 := by rw [hsender1]
      rw [← hw1']
      exact fun _ _ => .inl (by omega)
    · rw [← hw1', ← hw2]
      exact fun _ _ => .inl (by omega)
  · rintro ⟨-, -, hs, -⟩
    rw [← hw1', ← hw2] at hs
    refine not_onSchedule_of_early hact2 hq2 ?_ hadd hs
    have hcfg2 : w2.conn.cfg = w.conn.cfg := by
      rw [hw2, step_conn, step_cfg, hw1', step_conn, step_cfg]
    rw [due, hel2, hone, hcfg2]
    omega

/-- From a point that is not ready, some ticks leave the schedule. -/
theorem Synced.strays (h : w.Synced) (ha : w.conn.active = true)
    (hq : w.conn.sender.segmentsInFlight ≠ []) (he : w.elapsed = 0) (hc : w.count = 0)
    (hn : ¬ w.Ready) :
    ∃ ops, Along step Undisturbed w ops ∧ Along step Unwrapped w ops ∧
      ¬ Along step OnSchedule w ops := by
  obtain ⟨hrt, hready⟩ := not_or.mp (fun hr => hn fun _ => hr)
  have hrt' : w.conn.cfg.rtTimeout.toNat ≠ 0 := fun h0 => hrt (UInt16.toNat_inj.mp h0)
  by_cases hclock : w.conn.sender.clock = 0
  · have hwin : w.conn.sender.windowSize = 0 := by
      by_contra hw
      exact hready ⟨hw, hclock⟩
    obtain ⟨hwrap, hlate⟩ := h.undoubled ha hq hc hrt' hclock hwin
    exact ⟨[.tick 0, .tick _, .tick _], ⟨trivial, trivial, trivial, trivial⟩, hwrap, hlate⟩
  · obtain ⟨hwrap, hearly⟩ := h.early ha hq he hc hrt' hclock
    exact ⟨[.tick _], ⟨trivial, trivial⟩, ⟨hwrap, trivial⟩, fun hs => hearly hs.1⟩

theorem paced_step (h : w.conn.active = true → w.Paced) (hu : w.Undisturbed op)
    (hwrap : w.Unwrapped op) : (w.step op).conn.active = true → (w.step op).Paced := by
  rw [step_conn]
  intro ha'
  cases ha : w.conn.active with
  | false =>
    rw [step_inactive ha] at ha'
    cases ha'
  | true =>
    cases op with
    | tick ms => exact ((h ha).tick ha hwrap).2 ha'
    | connect | write _ | endInputStream | segmentReceived _ | read _ =>
      exact (h ha).call ha hu (by rintro _ ⟨⟩) ha'

theorem paced_onSchedule_iff (h : w.conn.active = true → w.Paced) (hu : w.Undisturbed op) :
    w.OnSchedule op ↔ w.Unwrapped op := by
  cases ha : w.conn.active with
  | false =>
    refine iff_of_true (fun ha' => by rw [ha] at ha'; cases ha') ?_
    cases op with
    | tick ms => exact fun ha' => by rw [ha] at ha'; cases ha'
    | connect | write _ | endInputStream | segmentReceived _ | read _ => trivial
  | true => exact (h ha).onSchedule_iff ha hu

end

/-- **Exponential backoff.** From a point where something is outstanding and the timer has just
been started, with no new ack and no closed window, all ticks keep to the schedule exactly when a
window is on record at that point and the clock is not stale. -/
theorem schedule_iff (cfg : TCPConfig) (random : UInt32) (c0 : TCPConnection) (pre : List Op)
    (h : mk? cfg random = some c0)
    (hq : (run step { conn := c0 } pre).conn.sender.segmentsInFlight ≠ [])
    (he : (run step { conn := c0 } pre).elapsed = 0)
    (hc : (run step { conn := c0 } pre).count = 0) :
    (∀ ops, Along step Undisturbed (run step { conn := c0 } pre) ops →
      (Along step OnSchedule (run step { conn := c0 } pre) ops ↔
        Along step Unwrapped (run step { conn := c0 } pre) ops)) ↔
      (run step { conn := c0 } pre).Ready := by
  have hsync := synced_run h pre
  generalize run step { conn := c0 } pre = w at hq he hc hsync
  constructor
  · intro hall ha
    by_contra hn
    obtain ⟨ops, hu, hwrap, hlate⟩ := (hsync ha).strays ha hq he hc fun hr => hn (hr ha)
    exact hlate ((hall ops hu).mpr hwrap)
  · intro hr ops hu
    exact along_iff_along (I := fun w : Backoff => w.conn.active = true → w.Paced) hu
      (fun ha => (hsync ha).paced hq he hc (hr ha)) (fun _ _ hi hu hwrap => paced_step hi hu hwrap)
      fun _ _ hi hu => paced_onSchedule_iff hi hu

/-- The peer takes SYN, opens a window of ten, and two bytes go out. -/
def established : List Op := [.connect, .segmentReceived { header :=
  { syn := true, ack := true, seqno := ⟨40⟩, ackno := ⟨8⟩, win := 10 } }, .write [97, 98]]

/-- Eight retransmissions and the end, in uneven ticks. -/
def expiries : List Op :=
  [.tick 999, .tick 1, .write [99], .tick 2000, .tick 3999, .tick 1, .tick 8000, .tick 16000,
    .tick 32000, .tick 64000, .tick 128000, .tick 256000]

theorem schedule_data : ∃ c0, mk? { fixedIsn := some ⟨7⟩ } 0 = some c0 ∧
    Along step OnSchedule (run step { conn := c0 } established) expiries :=
  ⟨_, rfl, ((schedule_iff { fixedIsn := some ⟨7⟩ } 0 _ established rfl (by decide) (by decide)
    (by decide)).mpr (by decide) expiries (by decide)).mpr (by decide)⟩

/-- SYN is sent a third time one second after the second time. -/
theorem syn_undoubled : ∃ c0, mk? { fixedIsn := some ⟨7⟩ } 0 = some c0 ∧
    (run step { conn := c0 } [.connect]).conn.sender.segmentsInFlight ≠ [] ∧
    (run step { conn := c0 } [.connect]).elapsed = 0 ∧
    (run step { conn := c0 } [.connect]).count = 0 ∧
    Along step Undisturbed (run step { conn := c0 } [.connect])
      [.tick 1, .tick 999, .tick 1000] ∧
    ¬ Along step OnSchedule (run step { conn := c0 } [.connect])
      [.tick 1, .tick 999, .tick 1000] :=
  ⟨_, rfl, by decide, by decide, by decide, by decide, by decide⟩

end Backoff

end Sponge
