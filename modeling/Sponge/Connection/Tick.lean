import Sponge.Connection.Calls

/-!
# A tick on a live connection

Between two calls the sender has filled its window, so the `fillWindow` of a tick
sends nothing new: a tick waits, sends the oldest outstanding segment again, or,
at the ninth timeout in a row, gives up.
-/

namespace Sponge

open Lib

namespace TCPSender

section
variable {s : TCPSender}

theorem tick_fillWindow (h : s.AtRest) (hs : s.syn = true) (ms : Nat) :
    (s.tick ms).fillWindow = { s.tick ms with windowIsZero := s.windowSize == 0 } := by
  have ht := tick_ticked s ms
  have hwin : (s.tick ms).windowSize = s.windowSize := by rw [ht.eq]
  have hd : Done (s.tick ms).window (s.tick ms) := by
    rw [ht.eq]
    exact h.done hs
  rcases fillWindow_idle_or_sends (ht.same.syn.trans hs) with ⟨-, heq⟩ | ⟨hn, -⟩
  · rw [← hwin]
    exact heq
  · exact absurd hd hn

/-- What is outstanding occupies sequence numbers. -/
theorem Queued.bytes_pos (h : s.Queued) (hq : s.segmentsInFlight ≠ []) : 0 < s.bytesInFlight := by
  obtain ⟨seg, rest, hq⟩ := List.exists_cons_of_ne_nil hq
  have hrun := h.run
  rw [hq] at hrun
  have hpos := hrun.2.1
  rw [h.bytes, hq, seqLength_cons]
  omega

end

end TCPSender

open TCPSender

namespace TCPConnection

section
variable {c : TCPConnection} {ms : Nat}

/-- One more retransmission is too many after eight. -/
theorem retrans_le {n : UInt32} (h : ¬ n > TCPConfig.MAX_RETX_ATTEMPTS) :
    n + 1 > TCPConfig.MAX_RETX_ATTEMPTS ↔ n = 8 := by
  have hmax : TCPConfig.MAX_RETX_ATTEMPTS = 8 := rfl
  rw [hmax] at h ⊢
  rw [gt_iff_lt, UInt32.lt_iff_toNat_lt] at h ⊢
  rw [UInt32.toNat_add, ← UInt32.toNat_inj]
  have h8 : (8 : UInt32).toNat = 8 := rfl
  have h1 : (1 : UInt32).toNat = 1 := rfl
  omega

/-- With something outstanding or something to send, `cleanShutdown` does not close. -/
theorem stays_active (ha : c.active = true)
    (hb : 0 < c.sender.bytesInFlight ∨ c.sender.stream.buffer ≠ []) :
    c.cleanShutdown.active = true := by
  by_contra hc
  obtain ⟨-, heof, hzero, -⟩ := cleanShutdown_closes ha (by simpa using hc)
  rcases hb with hb | hb
  · omega
  · exact hb ((ByteStream.eof_iff _).mp heof).1

/-- `uncleanShutdown true` with something pushed: it goes out with RST. -/
theorem uncleanShutdown_eq_sent (hs : c.synSended = true) (hne : c.sender.segmentsOut ≠ []) :
    c.uncleanShutdown true = (TCPConnection.sent { c.abort with
      lingerAfterStreamsFinish := false, active := false, needSendRst := true }).cleanShutdown := by
  have hif : (if c.abort.sender.segmentsOut.isEmpty = true then
      { c.abort with
        lingerAfterStreamsFinish := false
        active := false
        needSendRst := true
        sender := c.abort.sender.sendEmptySegment }
      else { c.abort with
        lingerAfterStreamsFinish := false, active := false, needSendRst := true }) =
      { c.abort with lingerAfterStreamsFinish := false, active := false, needSendRst := true } :=
    if_neg (by simpa [TCPConnection.abort] using hne)
  exact (congrArg (fun z => TCPConnection.segmentSends z false) hif).trans
    (segmentSends_eq_sent (.inr hs))

/-- The connection with the clocks ticked. -/
def ticked (c : TCPConnection) (ms : Nat) : TCPConnection :=
  { c with
    timeSinceLastSegmentReceived := (c.timeSinceLastSegmentReceived + ms) % 2 ^ 64
    sender := c.sender.tick ms }

/-- The ticked connection with what `uncleanShutdown true` sets. -/
def givenUp (c : TCPConnection) (ms : Nat) : TCPConnection :=
  { (c.ticked ms).abort with
    lingerAfterStreamsFinish := false, active := false, needSendRst := true }

theorem Live.tick_eq_of_le (h : c.Live) (ha : c.active = true) (hs : c.sender.syn = true)
    (hc : ¬ (c.sender.tick ms).consecutiveRetrans > TCPConfig.MAX_RETX_ATTEMPTS) :
    c.step (.tick ms) = (c.ticked ms).sent.cleanShutdown := by
  have hb : c.begun (.tick ms) = c.ticked ms := begun_tick ha ms
  have hends := step_ends h ha (.tick ms)
  generalize c.step (.tick ms) = c' at hends
  cases hends with
  | listening _ hl =>
    rw [hb] at hl
    have hl' : c.synSended = false := hl
    rw [h.synSended, hs] at hl'
    cases hl'
  | givesUp _ hgt =>
    rw [hb] at hgt
    exact absurd hgt hc
  | sends => rw [hb]

/-- Only a tick that retransmits can give up. -/
theorem Live.fires_of_gt (h : c.Live)
    (hc : (c.sender.tick ms).consecutiveRetrans > TCPConfig.MAX_RETX_ATTEMPTS) :
    ∃ seg rest, c.sender.segmentsInFlight = seg :: rest ∧
      c.sender.tick ms = c.sender.retransmit seg := by
  rcases tick_cases c.sender ms with ⟨-, seg, rest, hq, heq⟩ | ⟨-, heq⟩
  · exact ⟨seg, rest, hq, heq⟩
  · rw [heq] at hc
    exact absurd hc h.retrans

theorem Live.tick_eq_of_gt (h : c.Live) (ha : c.active = true)
    (hc : (c.sender.tick ms).consecutiveRetrans > TCPConfig.MAX_RETX_ATTEMPTS) :
    c.step (.tick ms) = (c.givenUp ms).sent.cleanShutdown.sent.cleanShutdown := by
  have hb : c.begun (.tick ms) = c.ticked ms := begun_tick ha ms
  have hends := step_ends h ha (.tick ms)
  generalize c.step (.tick ms) = c' at hends
  obtain ⟨seg, rest, hq, heq⟩ := h.fires_of_gt hc
  have hsyn : (c.ticked ms).synSended = true := by
    show c.synSended = true
    rw [h.synSended]
    exact h.sender.started.syn (by rw [hq]; simp)
  cases hends with
  | listening _ _ _ hle =>
    rw [hb] at hle
    exact absurd hc hle
  | sends _ _ hle =>
    rw [hb] at hle
    exact absurd hc hle
  | givesUp =>
    rw [hb, uncleanShutdown_eq_sent hsyn (by
      show (c.sender.tick ms).segmentsOut ≠ []
      rw [heq]
      simp [retransmit]), segmentSends_eq_sent (.inr (sent_sender _).2)]
    rfl

theorem oldest_ne_nil (hq : c.sender.segmentsInFlight ≠ []) :
    (c.sender.segmentsInFlight.take 1).map c.stamp ≠ [] := by simpa using hq

/-- A tick that does not give up pushes what the sender's tick pushes. -/
theorem Live.tick_sent (ms : Nat) (h : c.Live) (ha : c.active = true) (hs : c.sender.syn = true)
    (hc : ¬ (c.sender.tick ms).consecutiveRetrans > TCPConfig.MAX_RETX_ATTEMPTS) :
    (c.step (.tick ms)).sender =
      { c.sender.tick ms with windowIsZero := c.sender.windowSize == 0, segmentsOut := [] } ∧
    added c (c.step (.tick ms)) = (c.sender.tick ms).segmentsOut.map c.stamp ∧
    (c.step (.tick ms)).receiver = c.receiver ∧
    (c.sender.segmentsInFlight ≠ [] ∨ c.sender.stream.buffer ≠ [] →
      (c.step (.tick ms)).active = true) := by
  have hfill : (c.ticked ms).sender.fillWindow =
      { c.sender.tick ms with windowIsZero := c.sender.windowSize == 0 } :=
    tick_fillWindow h.sender hs ms
  rw [h.tick_eq_of_le ha hs hc]
  obtain ⟨hsender, -⟩ := sent_sender (c.ticked ms)
  obtain ⟨hq, hr⟩ := sent_cleanShutdown (c.ticked ms)
  rw [hfill] at hsender hq
  refine ⟨hsender, added_eq hq, hr, fun hne => stays_active (c := (c.ticked ms).sent) ha ?_⟩
  show 0 < (c.ticked ms).sender.fillWindow.bytesInFlight ∨
    (c.ticked ms).sender.fillWindow.stream.buffer ≠ []
  rw [hfill]
  show 0 < (c.sender.tick ms).bytesInFlight ∨ (c.sender.tick ms).stream.buffer ≠ []
  rw [(tick_ticked c.sender ms).eq]
  exact hne.imp_left h.sender.started.bytes_pos

/-- A tick at the ninth timeout in a row ends the connection, with an error on both streams, and
the oldest outstanding segment goes out with RST. -/
theorem Live.tick_givesUp (h : c.Live) (ha : c.active = true)
    (hc : (c.sender.tick ms).consecutiveRetrans > TCPConfig.MAX_RETX_ATTEMPTS) :
    (c.step (.tick ms)).active = false ∧
    (c.step (.tick ms)).sender.stream.error = true ∧
    (c.step (.tick ms)).inboundStream.error = true ∧
    ∃ seg ∈ added c (c.step (.tick ms)), seg.header.rst = true := by
  rw [h.tick_eq_of_gt ha hc]
  obtain ⟨y, hy⟩ : ∃ y, y = c.givenUp ms := ⟨_, rfl⟩
  obtain ⟨seg, rest, -, heq⟩ := h.fires_of_gt hc
  rw [← hy]
  refine ⟨?_, ?_, ?_, ?_⟩
  · obtain ⟨_, _, h1, heq1⟩ := y.sent.cleanShutdown_eq
    obtain ⟨_, _, h2, heq2⟩ := y.sent.cleanShutdown.sent.cleanShutdown_eq
    rw [heq2]
    refine h2 ?_
    show y.sent.cleanShutdown.active = false
    rw [heq1]
    exact h1 (by rw [hy]; rfl)
  · rw [(sent_sender _).1]
    show (TCPSender.fillWindow _).stream.error = true
    rw [fillWindow_error, (sent_sender y).1]
    show (TCPSender.fillWindow _).stream.error = true
    rw [fillWindow_error, hy]
    rfl
  · rw [inboundStream, (sent_cleanShutdown _).2, (sent_cleanShutdown y).2, hy]
    rfl
  · have hq1 := (sent_cleanShutdown y).1
    have hq2 := (sent_cleanShutdown y.sent.cleanShutdown).1
    have hout : y.segmentsOut = c.segmentsOut := by rw [hy]; rfl
    rw [hq1, hout, List.append_assoc] at hq2
    rw [added_eq hq2]
    obtain ⟨new, hnew, -, -⟩ := fillWindow_out y.sender
    have hpush : seg ∈ y.sender.segmentsOut := by
      rw [hy]
      show seg ∈ (c.sender.tick ms).segmentsOut
      rw [heq]
      simp [retransmit]
    refine ⟨y.stamp seg, List.mem_append_left _ (List.mem_map_of_mem ?_), ?_⟩
    · rw [hnew]
      exact List.mem_append_left _ hpush
    · have hrst : y.needSendRst = true := by rw [hy]; rfl
      unfold stamp
      rw [hrst]
      rfl

end

end TCPConnection

end Sponge
