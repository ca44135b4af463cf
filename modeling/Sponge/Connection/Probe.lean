import Sponge.Connection.State
import Sponge.Connection.Tick

/-!
# Probing a closed window

A peer with a closed window answers each probe with the ackno it has sent before
and a window of 0. For `ackReceived` that is an old ackno: it stores the window
and returns before the line that resets `consecutiveRetrans`. So the counter goes
on through any number of answered probes, and the ninth timeout in a row resets
the peer. Until then the probe is sent again at the unchanged timeout.
-/

namespace Sponge

open Lib TCPConnection
open TCPSender hiding Op step

/-- A connection, and the milliseconds on an observer's clock: what the timer shows at the start,
then the time since a tick last sent something. -/
structure Probing where
  conn : TCPConnection
  elapsed : Nat
  deriving DecidableEq, Repr

namespace Probing

def step (w : Probing) (op : Op) : Probing where
  conn := w.conn.step op
  elapsed := match op with
    | .tick ms => if added w.conn (w.conn.step (.tick ms)) = [] then w.elapsed + ms else 0
    | .connect | .write _ | .endInputStream | .segmentReceived _ | .read _ => w.elapsed

theorem step_conn (w : Probing) (op : Op) : (w.step op).conn = w.conn.step op := rfl

/-- What comes from the peer is an answer: an ack with the unchanged ackno and a window of 0. -/
def Answered (w : Probing) : Op → Prop
  | .connect => False
  | .segmentReceived seg => seg.header.ack = true ∧ seg.header.rst = false ∧
      seg.header.ackno = wrap w.conn.sender.receiveAck w.conn.sender.isn ∧ seg.header.win = 0
  | .write _ | .endInputStream | .tick _ | .read _ => True

instance (w : Probing) : ∀ op, Decidable (w.Answered op)
  | .connect => isFalse id
  | .segmentReceived _ => inferInstanceAs (Decidable (_ ∧ _ ∧ _ ∧ _))
  | .write _ | .endInputStream | .tick _ | .read _ => isTrue trivial

/-- A tick sends the oldest outstanding segment when the timeout has elapsed, and nothing
before. -/
def Timely (w : Probing) : Op → Prop
  | .tick ms => added w.conn (w.conn.step (.tick ms)) =
      if w.conn.sender.retransTimeout.toNat ≤ w.elapsed + ms then
        (w.conn.sender.segmentsInFlight.take 1).map w.conn.stamp else []
  | .connect | .write _ | .endInputStream | .segmentReceived _ | .read _ => True

instance (w : Probing) : ∀ op, Decidable (w.Timely op)
  | .tick _ => inferInstanceAs (Decidable (_ = _))
  | .connect | .write _ | .endInputStream | .segmentReceived _ | .read _ => isTrue trivial

/-- The connection stays up, without an error or RST, and probes at its unchanged timeout. -/
def Probes (w : Probing) (op : Op) : Prop :=
  (w.conn.step op).active = true ∧ (w.conn.step op).sender.stream.error = false ∧
    (w.conn.step op).inboundStream.error = false ∧
    (∀ seg ∈ added w.conn (w.conn.step op), seg.header.rst = false) ∧
    (w.conn.step op).sender.retransTimeout = w.conn.sender.retransTimeout ∧ w.Timely op

instance (w : Probing) (op : Op) : Decidable (w.Probes op) := by unfold Probes; infer_instance

/-- The tick is not the ninth timeout in a row (and the clock does not wrap around). -/
def Spared (w : Probing) : Op → Prop
  | .tick ms => w.conn.sender.segmentsInFlight ≠ [] →
      ¬ (w.conn.sender.consecutiveRetrans = 8 ∧
        w.conn.sender.retransTimeout.toNat ≤ w.conn.sender.clockAfter ms) ∧
      (w.conn.sender.clock + ms < 2 ^ 64 ∨
        w.conn.sender.retransTimeout.toNat ≤ w.conn.sender.clockAfter ms)
  | .connect | .write _ | .endInputStream | .segmentReceived _ | .read _ => True

instance (w : Probing) : ∀ op, Decidable (w.Spared op)
  | .tick _ => inferInstanceAs (Decidable (_ → _ ∧ _))
  | .connect | .write _ | .endInputStream | .segmentReceived _ | .read _ => isTrue trivial

/-- The window is closed, something has been acknowledged, and something is outstanding or
pending. -/
structure Closed (s : TCPSender) : Prop where
  window : s.windowSize = 0
  acked : 0 < s.receiveAck
  pending : s.segmentsInFlight ≠ [] ∨ s.stream.buffer ≠ []

/-- An active connection whose peer has closed its window; the observer's clock is the timer's. -/
structure Stalled (w : Probing) : Prop where
  live : w.conn.Live
  active : w.conn.active = true
  closed : Closed w.conn.sender
  clock : w.conn.sender.segmentsInFlight ≠ [] → w.conn.sender.clock = w.elapsed

section
variable {w : Probing} {c b : TCPConnection} {op : Op}

theorem timely_of_ne (ht : ∀ ms, op ≠ .tick ms) : w.Timely op := by
  cases op with
  | tick ms => exact absurd rfl (ht ms)
  | connect | write _ | endInputStream | segmentReceived _ | read _ => trivial

theorem step_elapsed (ht : ∀ ms, op ≠ .tick ms) : (w.step op).elapsed = w.elapsed := by
  cases op with
  | tick ms => exact absurd rfl (ht ms)
  | connect | write _ | endInputStream | segmentReceived _ | read _ => rfl

theorem Closed.syn (h : c.Live) (hc : Closed c.sender) : c.sender.syn = true := by
  by_contra hs
  have := h.sender.started.nextSeqno (by simpa using hs)
  have := h.sender.started.ack_le
  have := hc.acked
  omega

/-- What `sent` leaves of a connection with a closed window. -/
theorem sent_closed (hs : b.sender.Healthy) (hc : Closed b.sender) (ha : b.active = true)
    (hn : b.needSendRst = false) (hsyn : b.sender.syn = true)
    (hpush : ∀ seg ∈ b.sender.segmentsOut, seg.header.rst = false)
    (hidle : b.sender.segmentsInFlight = [] → Done b.sender.window b.sender) :
    b.sent.cleanShutdown.active = true ∧ Closed b.sent.cleanShutdown.sender ∧
      b.sent.cleanShutdown.sender.retransTimeout = b.sender.retransTimeout ∧
      (∀ seg ∈ b.sender.fillWindow.segmentsOut.map b.stamp, seg.header.rst = false) ∧
      (b.sent.cleanShutdown.sender.segmentsInFlight ≠ [] →
        b.sender.segmentsInFlight ≠ [] ∧ b.sent.cleanShutdown.sender.clock = b.sender.clock) := by
  have hk := fillWindow_keeps b.sender
  obtain ⟨new, hout, hqueue, hnew⟩ := fillWindow_out b.sender
  have hpending : b.sender.fillWindow.segmentsInFlight ≠ [] ∨
      b.sender.fillWindow.stream.buffer ≠ [] := by
    by_cases hq : b.sender.segmentsInFlight = []
    · -- nothing is outstanding: nothing is sent, and something stays pending
      rcases fillWindow_idle_or_sends hsyn with ⟨-, heq⟩ | ⟨hd, -⟩
      · rw [heq]
        exact hc.pending
      · exact absurd (hidle hq) hd
    · rw [hqueue]
      exact .inl (by simp [hq])
  rw [(sent_sender b).1]
  refine ⟨stays_active (c := b.sent) ha ?_, ⟨?_, ?_, hpending⟩, hk.retransTimeout, ?_, fun hq => ?_⟩
  · exact hpending.imp_left hs.fillWindow.started.bytes_pos
  · exact (fillWindow_windowSize b.sender).trans hc.window
  · show 0 < b.sender.fillWindow.receiveAck
    rw [fillWindow_receiveAck]
    exact hc.acked
  · intro seg hm
    obtain ⟨s, hs', rfl⟩ := List.mem_map.mp hm
    rw [stamp_rst, hn, Bool.or_false]
    rw [hout, List.mem_append] at hs'
    rcases hs' with hs' | hs'
    · exact hpush s hs'
    · exact (hnew s hs').2
  · have hq0 : b.sender.segmentsInFlight ≠ [] := by
      intro hq0
      rcases fillWindow_idle_or_sends hsyn with ⟨-, heq⟩ | ⟨hd, -⟩
      · have hq' : b.sender.fillWindow.segmentsInFlight ≠ [] := hq
        rw [heq] at hq'
        exact hq' hq0
      · exact hd (hidle hq0)
    refine ⟨hq0, ?_⟩
    show b.sender.fillWindow.clock = b.sender.clock
    rcases hk.clock with ⟨-, -, h3⟩ | ⟨-, -, h3⟩
    · exact h3
    · rw [h3, hs.timer.counting hq0, if_neg (by simp)]

/-- With nothing outstanding the loop has stopped for good, whatever is written. -/
theorem Closed.done {s t : TCPSender} (h : Closed s) (hd : Done s.window s)
    (hq : s.segmentsInFlight = []) (hw : t.window = s.window) (hn : t.nextSeqno = s.nextSeqno)
    (ha : t.receiveAck = s.receiveAck) (hf : t.fin = s.fin) : Done t.window t := by
  rcases hd with hd | hd | hd
  · left
    rw [remain, hw, hn, ha]
    exact hd
  · exact .inr (.inl (hf.trans hd))
  · rcases h.pending with hp | hp
    · exact absurd hq hp
    · exact absurd hd.1 hp

/-- A call that is not a tick and leaves the queue of the sender alone. -/
theorem Stalled.sent (h : w.Stalled) (ht : ∀ ms, op ≠ .tick ms) {b : TCPConnection}
    (hstep : w.conn.step op = b.sent.cleanShutdown) (hs : b.sender.Healthy)
    (hc : Closed b.sender) (ha : b.active = true) (hn : b.needSendRst = false)
    (hpush : ∀ seg ∈ b.sender.segmentsOut, seg.header.rst = false)
    (hout : b.segmentsOut = w.conn.segmentsOut)
    (hsame : SameTimer w.conn.sender b.sender) (hsyn : b.sender.syn = true)
    (hidle : b.sender.segmentsInFlight = [] → Done b.sender.window b.sender) :
    w.Probes op ∧ (w.step op).Stalled := by
  obtain ⟨h1, h2, h3, h4, h5⟩ := sent_closed hs hc ha hn hsyn hpush hidle
  have hlive := h.live.step h.active op (by rw [hstep]; exact h1)
  have hq := (sent_cleanShutdown b).1
  rw [hout] at hq
  refine ⟨⟨by rw [hstep]; exact h1, hlive.sender.error, hlive.inbound, ?_, ?_, timely_of_ne ht⟩,
    hlive, by rw [step_conn, hstep]; exact h1, ?_, ?_⟩
  · rw [hstep, added_eq hq]
    exact h4
  · rw [hstep, h3, hsame.retransTimeout]
  · rw [step_conn, hstep]
    exact h2
  · rw [step_elapsed ht, step_conn, hstep]
    intro hne
    obtain ⟨h6, h7⟩ := h5 hne
    rw [h7, hsame.clock]
    exact h.clock (by rw [← hsame.segmentsInFlight]; exact h6)

/-- A call that pushes segments at most before its last part. -/
theorem Stalled.pushed (h : w.Stalled) (ht : ∀ ms, op ≠ .tick ms) {b : TCPConnection}
    {segs : List TCPSegment} (hstep : w.conn.step op = b.sent.cleanShutdown)
    (hs : b.sender = { w.conn.sender with segmentsOut := segs })
    (hpush : ∀ seg ∈ segs, seg.header.rst = false) (ha : b.active = true)
    (hn : b.needSendRst = false) (hout : b.segmentsOut = w.conn.segmentsOut) :
    w.Probes op ∧ (w.step op).Stalled := by
  have hsyn := h.closed.syn h.live
  refine h.sent ht hstep ?_ ?_ ha hn ?_ hout ?_ ?_ ?_ <;> rw [hs]
  · exact h.live.sender.toHealthy.setOut segs
  · exact ⟨h.closed.window, h.closed.acked, h.closed.pending⟩
  · exact hpush
  · exact ⟨rfl, rfl, rfl, rfl, rfl, rfl⟩
  · exact hsyn
  · exact fun _ => h.live.sender.done hsyn

/-- A call that leaves the sender alone and adds nothing. -/
theorem Stalled.quiet (h : w.Stalled) (ht : ∀ ms, op ≠ .tick ms)
    (hact : (w.conn.step op).active = true) (hs : (w.conn.step op).sender = w.conn.sender)
    (hout : (w.conn.step op).segmentsOut = w.conn.segmentsOut) :
    w.Probes op ∧ (w.step op).Stalled := by
  have hlive := h.live.step h.active op hact
  have hadd : added w.conn (w.conn.step op) = [] := added_eq (by rw [hout, List.append_nil])
  refine ⟨⟨hact, hlive.sender.error, hlive.inbound, by rw [hadd]; rintro _ ⟨⟩, by rw [hs],
    timely_of_ne ht⟩, hlive, hact, ?_, ?_⟩
  · rw [step_conn, hs]
    exact h.closed
  · rw [step_elapsed ht, step_conn, hs]
    exact h.clock

/-! ## Each call -/

/-- The answer to a probe is an old ack: it stores the window that is on record. -/
theorem ackReceived_answer {s : TCPSender} (h : s.Queued) (hw : s.windowSize = 0) :
    s.ackReceived (wrap s.receiveAck s.isn) 0 = s := by
  have hold : unwrap (wrap s.receiveAck s.isn) s.isn s.checkpoint ≤ s.receiveAck := by
    rw [h.checkpoint]
    exact unwrap_wrap_self_le s.receiveAck s.isn
  have hack := h.ack_le
  rw [ackReceived]
  simp only
  rw [if_neg (by omega), if_pos hold, ← hw]

theorem Stalled.answered (h : w.Stalled) {seg : TCPSegment}
    (hg : w.Answered (.segmentReceived seg)) :
    w.Probes (.segmentReceived seg) ∧ (w.step (.segmentReceived seg)).Stalled := by
  obtain ⟨-, hrst, hackno, hwin⟩ := hg
  have hsyn := h.closed.syn h.live
  have hframe := begun_frame w.conn (.segmentReceived seg)
  have hsender : (w.conn.begun (.segmentReceived seg)).sender = w.conn.sender := by
    by_cases hacc : w.conn.Accepts seg
    · rw [begun_sender hacc, hackno, hwin,
        ackReceived_answer h.live.sender.started.toQueued h.closed.window]
      split <;> rfl
    · rw [begun_refused hacc]
  have hends := step_ends h.live h.active (.segmentReceived seg)
  have hact : (w.conn.begun (.segmentReceived seg)).active = true := by
    rw [hframe]
    exact h.active
  have hnorst : (w.conn.begun (.segmentReceived seg)).needSendRst = false := by
    rw [hframe]
    exact h.live.noRst
  have hout : (w.conn.begun (.segmentReceived seg)).segmentsOut = w.conn.segmentsOut := by
    rw [hframe]
  generalize hc' : w.conn.step (.segmentReceived seg) = c' at hends
  cases hends with
  | listening _ hl =>
    rw [hframe] at hl
    have hl' : w.conn.synSended = false := hl
    rw [h.live.synSended, hsyn] at hl'
    cases hl'
  | ignored =>
    refine h.quiet (by rintro _ ⟨⟩) ?_ ?_ ?_
    · rw [hc']
      exact hact
    · rw [hc', hsender]
    · rw [hc', hout]
  | sends =>
    refine h.pushed (by rintro _ ⟨⟩) hc' hsender ?_ hact hnorst hout
    rw [h.live.sender.out]
    rintro _ ⟨⟩
  | answers =>
    refine h.pushed (by rintro _ ⟨⟩) hc' (by rw [hsender]; rfl) ?_ hact hnorst hout
    show ∀ s ∈ w.conn.sender.segmentsOut ++ _, s.header.rst = false
    rw [h.live.sender.out]
    simp
  | resets _ _ hr =>
    rw [hrst] at hr
    cases hr

/-- Something is written, or the stream ends: the timer and the queue stay. -/
theorem Stalled.call (h : w.Stalled) (ht : ∀ ms, op ≠ .tick ms) {t : TCPSender}
    (hstep : w.conn.step op = TCPConnection.segmentSends { w.conn with sender := t } false)
    (hs : t.Healthy) (hsame : Same { w.conn.sender with stream := t.stream } t)
    (htimer : SameTimer w.conn.sender t) (hwin : t.windowSize = w.conn.sender.windowSize)
    (hout : t.segmentsOut = [])
    (hbuf : w.conn.sender.stream.buffer ≠ [] → t.stream.buffer ≠ []) :
    w.Probes op ∧ (w.step op).Stalled := by
  have hsyn := h.closed.syn h.live
  have hgo : TCPConnection.segmentSends { w.conn with sender := t } false =
      (TCPConnection.sent { w.conn with sender := t }).cleanShutdown :=
    segmentSends_eq_sent (.inr (h.live.synSended.trans hsyn))
  refine h.sent ht (hstep.trans hgo) hs ⟨hwin.trans h.closed.window, ?_, ?_⟩ h.active h.live.noRst
    (by rw [hout]; rintro _ ⟨⟩) rfl htimer (hsame.syn.trans hsyn) fun hq => ?_
  · rw [hsame.receiveAck]
    exact h.closed.acked
  · rw [hsame.segmentsInFlight]
    exact h.closed.pending.imp_right hbuf
  · refine h.closed.done (h.live.sender.done hsyn) ?_ ?_ hsame.nextSeqno hsame.receiveAck hsame.fin
    · rw [← htimer.segmentsInFlight]
      exact hq
    · rw [window_eq, window_eq, hwin]

/-- A tick at which the timer expires: the probe is sent again, but for the ninth time in a
row. -/
theorem Stalled.tick_fires (h : w.Stalled) {ms : Nat}
    (hr : w.conn.sender.Retransmits ms) {seg : TCPSegment} {rest : List TCPSegment}
    (hq : w.conn.sender.segmentsInFlight = seg :: rest)
    (heq : w.conn.sender.tick ms = w.conn.sender.retransmit seg) :
    (w.Probes (.tick ms) ↔ w.Spared (.tick ms)) ∧
      (w.Spared (.tick ms) → (w.step (.tick ms)).Stalled) := by
  have hle := ((retransmits_iff _ _).mp hr).2
  have hne : w.conn.sender.segmentsInFlight ≠ [] := by rw [hq]; simp
  have hgt : (w.conn.sender.tick ms).consecutiveRetrans > TCPConfig.MAX_RETX_ATTEMPTS ↔
      w.conn.sender.consecutiveRetrans = 8 := by
    rw [heq]
    exact retrans_le h.live.retrans
  by_cases h8 : w.conn.sender.consecutiveRetrans = 8
  · -- the ninth time in a row
    have hno : ¬ w.Spared (.tick ms) := fun hsp => (hsp hne).1 ⟨h8, hle⟩
    refine ⟨iff_of_false (fun hp => ?_) hno, fun hsp => absurd hsp hno⟩
    have hdown := (h.live.tick_givesUp h.active (hgt.mpr h8)).1
    rw [hp.1] at hdown
    cases hdown
  · obtain ⟨h1, h2, -, h4⟩ := h.live.tick_sent ms h.active (h.closed.syn h.live)
      (fun hc => h8 (hgt.mp hc))
    have hact := h4 (.inl hne)
    have hlive := h.live.step h.active (.tick ms) hact
    rw [heq] at h1 h2
    have hpush : (w.conn.sender.retransmit seg).segmentsOut = [seg] := by
      simp [retransmit, h.live.sender.out]
    rw [hpush] at h2
    have hzero : w.conn.sender.windowIsZero = true :=
      h.live.sender.zeroed h.closed.acked h.closed.window
    have hclk : (w.conn.step (.tick ms)).sender.clock = 0 := by rw [h1]; rfl
    have hel : (w.step (.tick ms)).elapsed = 0 := if_neg (by rw [h2]; simp)
    have hclosed : Closed (w.step (.tick ms)).conn.sender := by
      rw [step_conn, h1]
      exact ⟨h.closed.window, h.closed.acked, .inl hne⟩
    refine ⟨iff_of_true ⟨hact, hlive.sender.error, hlive.inbound, ?_, ?_, ?_⟩
      fun _ => ⟨fun hc => h8 hc.1, .inr hle⟩, fun _ => ⟨hlive, hact, hclosed, fun _ => ?_⟩⟩
    · rw [h2]
      simp only [List.map_cons, List.map_nil, List.mem_singleton, forall_eq]
      rw [stamp_rst, h.live.noRst, Bool.or_false]
      exact h.live.sender.plain seg (by rw [hq]; exact List.mem_cons_self)
    · rw [h1]
      simp [retransmit, hzero]
    · show added _ _ = _
      rw [h2, if_pos, hq]
      · rfl
      · rw [← h.clock hne]
        exact Nat.le_trans hle (Nat.mod_le _ _)
    · rw [hel]
      exact hclk

/-- A tick at which it does not expire sends nothing: that is in time unless the clock has wrapped
around. -/
theorem Stalled.tick_waits (h : w.Stalled) {ms : Nat} (hr : ¬ w.conn.sender.Retransmits ms)
    (heq : w.conn.sender.tick ms = { w.conn.sender with
      clock := w.conn.sender.clockAfter ms
      clockIsCounting :=
        !w.conn.sender.segmentsInFlight.isEmpty && w.conn.sender.clockIsCounting }) :
    (w.Probes (.tick ms) ↔ w.Spared (.tick ms)) ∧
      (w.Spared (.tick ms) → (w.step (.tick ms)).Stalled) := by
  have htlt := w.conn.sender.retransTimeout.toNat_lt
  have hca : w.conn.sender.clockAfter ms = (w.conn.sender.clock + ms) % 2 ^ 64 := rfl
  have hearly : w.conn.sender.segmentsInFlight ≠ [] →
      w.conn.sender.clockAfter ms < w.conn.sender.retransTimeout.toNat := by
    intro hne
    by_contra hn
    exact hr ((retransmits_iff _ _).mpr ⟨hne, by omega⟩)
  have hle : ¬ (w.conn.sender.tick ms).consecutiveRetrans > TCPConfig.MAX_RETX_ATTEMPTS := by
    rw [heq]
    exact h.live.retrans
  obtain ⟨h1, h2, -, h4⟩ := h.live.tick_sent ms h.active (h.closed.syn h.live) hle
  have hact := h4 h.closed.pending
  have hlive := h.live.step h.active (.tick ms) hact
  rw [heq] at h1 h2
  rw [h.live.sender.out, List.map_nil] at h2
  refine ⟨⟨fun hp hne => ⟨fun hc => ?_, .inl ?_⟩, fun hsp => ?_⟩, fun hsp => ?_⟩
  · have := hearly hne
    omega
  · -- nothing was sent, so the timeout has not elapsed on the observer's clock
    have hsend : added _ _ = _ := hp.2.2.2.2.2
    have hclock := h.clock hne
    rw [h2] at hsend
    by_cases hto : w.conn.sender.retransTimeout.toNat ≤ w.elapsed + ms
    · rw [if_pos hto] at hsend
      exact absurd hsend.symm (oldest_ne_nil hne)
    · omega
  · refine ⟨hact, hlive.sender.error, hlive.inbound, by rw [h2]; rintro _ ⟨⟩, by rw [h1], ?_⟩
    show added _ _ = _
    rw [h2]
    by_cases hq : w.conn.sender.segmentsInFlight = []
    · simp [hq]
    · have hclock := h.clock hq
      have hlt := hearly hq
      rcases (hsp hq).2 with hno | hno
      · rw [Nat.mod_eq_of_lt hno] at hca
        rw [if_neg (by omega)]
      · omega
  · have hel : (w.step (.tick ms)).elapsed = w.elapsed + ms := if_pos h2
    have hclosed : Closed (w.step (.tick ms)).conn.sender := by
      rw [step_conn, h1]
      exact ⟨h.closed.window, h.closed.acked, h.closed.pending⟩
    refine ⟨hlive, hact, hclosed, fun hne => ?_⟩
    rw [hel, step_conn, h1]
    rw [step_conn, h1] at hne
    have hclock := h.clock hne
    have hlt := hearly hne
    show w.conn.sender.clockAfter ms = _
    rcases (hsp hne).2 with hno | hno
    · rw [hca, Nat.mod_eq_of_lt hno, hclock]
    · omega

theorem Stalled.tick_iff (h : w.Stalled) (ms : Nat) :
    (w.Probes (.tick ms) ↔ w.Spared (.tick ms)) ∧
      (w.Spared (.tick ms) → (w.step (.tick ms)).Stalled) := by
  rcases tick_cases w.conn.sender ms with ⟨hr, seg, rest, hq, heq⟩ | ⟨hr, heq⟩
  · exact h.tick_fires hr hq heq
  · exact h.tick_waits hr heq

theorem Stalled.step_iff (h : w.Stalled) (hg : w.Answered op) :
    (w.Probes op ↔ w.Spared op) ∧ (w.Spared op → (w.step op).Stalled) := by
  have hs := h.live.sender.toHealthy
  have hout := h.live.sender.out
  cases op with
  | connect => exact absurd hg id
  | tick ms => exact h.tick_iff ms
  | segmentReceived seg =>
    obtain ⟨h1, h2⟩ := h.answered hg
    exact ⟨iff_of_true h1 trivial, fun _ => h2⟩
  | read n =>
    obtain ⟨h1, h2⟩ := h.quiet (show ∀ ms, Op.read n ≠ .tick ms by rintro _ ⟨⟩) h.active rfl rfl
    exact ⟨iff_of_true h1 trivial, fun _ => h2⟩
  | write data =>
    obtain ⟨h1, h2⟩ := h.call (show ∀ ms, TCPConnection.Op.write data ≠ .tick ms by rintro _ ⟨⟩) rfl
      (hs.write data)
      ⟨rfl, rfl, rfl, rfl, rfl, rfl, rfl, rfl, rfl, rfl⟩ ⟨rfl, rfl, rfl, rfl, rfl, rfl⟩ rfl hout
      fun hb => by
        show w.conn.sender.stream.buffer ++ _ ≠ []
        simp [hb]
    exact ⟨iff_of_true h1 trivial, fun _ => h2⟩
  | endInputStream =>
    obtain ⟨h1, h2⟩ := h.call (show ∀ ms, Op.endInputStream ≠ .tick ms by rintro _ ⟨⟩) rfl
      hs.endInput
      ⟨rfl, rfl, rfl, rfl, rfl, rfl, rfl, rfl, rfl, rfl⟩ ⟨rfl, rfl, rfl, rfl, rfl, rfl⟩ rfl hout
      fun hb => hb
    exact ⟨iff_of_true h1 trivial, fun _ => h2⟩

/-- An established connection has had an ack. -/
theorem acked_of_established (h : c.Live) (he : c.state = .ofState .established) :
    0 < c.sender.receiveAck := by
  refine Nat.pos_of_ne_zero fun hz => ?_
  have hsum : c.sender.stateSummary = .synAcked := congrArg TCPState.sender he
  have hb := h.sender.unacked hz
  have herr := h.sender.error
  by_cases h0 : c.sender.nextSeqno = 0
  · rw [stateSummary, herr, if_neg (by simp), if_pos h0] at hsum
    cases hsum
  · rw [synSent_iff.mpr ⟨herr, h0, hb.symm⟩] at hsum
    cases hsum

end

/-- **Probing.** On an established connection whose peer answers with a closed window, every call
leaves the connection up and the probe is sent again at the unchanged timeout, exactly when no
tick is the ninth timeout in a row. -/
theorem along_probes_iff (cfg : TCPConfig) (random : UInt32) (c0 : TCPConnection)
    (pre ops : List Op) (h : mk? cfg random = some c0)
    (he : (run TCPConnection.step c0 pre).state = .ofState .established)
    (hw : (run TCPConnection.step c0 pre).sender.windowSize = 0)
    (hp : (run TCPConnection.step c0 pre).sender.segmentsInFlight ≠ [] ∨
      (run TCPConnection.step c0 pre).sender.stream.buffer ≠ [])
    (hg : Along step Answered ⟨run TCPConnection.step c0 pre,
      (run TCPConnection.step c0 pre).sender.clock⟩ ops) :
    Along step Probes ⟨run TCPConnection.step c0 pre,
        (run TCPConnection.step c0 pre).sender.clock⟩ ops ↔
      Along step Spared ⟨run TCPConnection.step c0 pre,
        (run TCPConnection.step c0 pre).sender.clock⟩ ops := by
  have ha : (run TCPConnection.step c0 pre).active = true := congrArg TCPState.active he
  have hlive := alive_run h pre ha
  exact along_iff_along (I := Stalled) hg
    ⟨hlive, ha, ⟨hw, acked_of_established hlive he, hp⟩, fun _ => rfl⟩
    (fun _ _ hi hg hs => (hi.step_iff hg).2 hs) fun _ _ hi hg => (hi.step_iff hg).1

/-- An ack of SYN that advertises no window. -/
def noWindow (syn : Bool) (seqno : UInt32) : TCPSegment :=
  { header := { syn := syn, ack := true, seqno := ⟨seqno⟩, ackno := ⟨8⟩ } }

/-- The peer takes SYN, opens no window, and the first byte goes out as a probe. -/
def opened : List Op := [.connect, .segmentReceived (noWindow true 40), .write [97, 98]]

/-- Rounds of a probe that is sent again and its answer. -/
def rounds (n : Nat) : List Op :=
  (List.replicate n [.tick 1000, .segmentReceived (noWindow false 41)]).flatten

/-- Eight probes sent again, and waits between them. -/
theorem probes_eight : ∃ c0, mk? { fixedIsn := some ⟨7⟩ } 0 = some c0 ∧
    Along step Probes ⟨run TCPConnection.step c0 opened,
      (run TCPConnection.step c0 opened).sender.clock⟩ (.tick 999 :: .write [99] :: rounds 8) :=
  ⟨_, rfl, (along_probes_iff { fixedIsn := some ⟨7⟩ } 0 _ opened
    (.tick 999 :: .write [99] :: rounds 8) rfl (by decide) (by decide) (by decide)
    (by decide)).mpr (by decide)⟩

/-- The ninth probe that is due resets the peer, with all eight before it answered. -/
theorem ninth_probe_resets : ∃ c0, mk? { fixedIsn := some ⟨7⟩ } 0 = some c0 ∧
    (run TCPConnection.step c0 opened).state = .ofState .established ∧
    (run TCPConnection.step c0 opened).sender.windowSize = 0 ∧
    (run TCPConnection.step c0 opened).sender.segmentsInFlight ≠ [] ∧
    Along step Answered ⟨run TCPConnection.step c0 opened,
      (run TCPConnection.step c0 opened).sender.clock⟩ (rounds 9) ∧
    ¬ Along step Probes ⟨run TCPConnection.step c0 opened,
      (run TCPConnection.step c0 opened).sender.clock⟩ (rounds 9) ∧
    (run TCPConnection.step c0 (opened ++ rounds 9)).active = false ∧
    (run TCPConnection.step c0 (opened ++ rounds 9)).sender.stream.error = true :=
  ⟨_, rfl, by decide, by decide, by decide, by decide, by decide, by decide, by decide⟩

end Probing

end Sponge
