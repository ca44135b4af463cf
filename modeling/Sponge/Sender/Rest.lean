import Sponge.Sender.State
import Sponge.Sender.Timer

/-!
# The sender between two calls

A connection ends each of its calls with `fillWindow` and takes the outgoing
queue. `Healthy` is what holds of its sender all along, `AtRest` what holds when
it has done so: nothing is queued, the loop is at an exit, and the flag of a zero
window is not behind the window.
-/

namespace Sponge

namespace TCPSender

/-- SYN is the first sequence number, no window is known before it is sent, everything is in
flight until something is acknowledged, and neither RST nor an error comes from the sender. -/
structure Healthy (s : TCPSender) : Prop where
  started : s.Started
  opened : s.syn = true → 0 < s.nextSeqno
  unacked : s.receiveAck = 0 → s.bytesInFlight = s.nextSeqno
  plain : ∀ seg ∈ s.segmentsInFlight, seg.header.rst = false
  unopened : s.syn = false → s.windowSize = 0 ∧ s.windowIsZero = false
  timer : s.TimerInv
  error : s.stream.error = false

/-- Nothing is queued, and the last thing the sender did is to fill the window. -/
structure AtRest (s : TCPSender) : Prop extends Healthy s where
  out : s.segmentsOut = []
  done : s.syn = true → Done s.window s
  zero : s.windowIsZero = true → s.windowSize = 0
  zeroed : 0 < s.receiveAck → s.windowSize = 0 → s.windowIsZero = true

section
variable {s t : TCPSender}

theorem synSent_iff : s.stateSummary = .synSent ↔
    s.stream.error = false ∧ s.nextSeqno ≠ 0 ∧ s.nextSeqno = s.bytesInFlight := by
  unfold stateSummary
  cases s.stream.error with
  | true => simp
  | false =>
    by_cases h0 : s.nextSeqno = 0
    · simp [h0]
    · by_cases hb : s.nextSeqno = s.bytesInFlight
      · simp [hb]
      · rw [if_neg (by simp), if_neg h0, if_neg hb]
        refine iff_of_false ?_ fun h => hb h.2.2
        split
        · simp
        · split
          · simp
          · split <;> simp

/-- Before SYN nothing is outstanding. -/
theorem Started.queue_nil (h : s.Started) (hs : s.syn = false) : s.segmentsInFlight = [] := by
  have hzero := h.nextSeqno hs
  have hle := h.bytes_le
  have hrun := h.run
  rw [firstSeqno, show s.nextSeqno - s.bytesInFlight = 0 by omega, hzero] at hrun
  cases hq : s.segmentsInFlight with
  | nil => rfl
  | cons seg rest =>
    rw [hq] at hrun
    obtain ⟨-, hpos, hc⟩ := hrun
    have := hc.length
    omega

theorem Started.syn (h : s.Started) (hq : s.segmentsInFlight ≠ []) : s.syn = true := by
  by_contra hs
  exact hq (h.queue_nil (by simpa using hs))

theorem fillWindow_error (s : TCPSender) : s.fillWindow.stream.error = s.stream.error :=
  fillWindow_inv (P := fun t => t.stream.error = s.stream.error)
    (fun hs => by rw [(fillWindow_syn hs).2.2.2]) (fun _ => rfl)
    fun _ _ _ _ ht hp => by rw [ht.stream, ByteStream.popOutput_error, hp]

/-- Sending only moves `nextSeqno` up. -/
theorem fillWindow_nextSeqno_le (s : TCPSender) : s.nextSeqno ≤ s.fillWindow.nextSeqno :=
  fillWindow_inv (P := fun t => s.nextSeqno ≤ t.nextSeqno)
    (fun hs => by rw [(fillWindow_syn hs).1.nextSeqno]; omega) (fun _ => Nat.le_refl _)
    fun _ _ _ _ ht hp => by rw [ht.sent.nextSeqno]; omega

/-- After SYN, `nextSeqno` stays exactly when the loop is at an exit. -/
theorem fillWindow_nextSeqno_eq_iff (hs : s.syn = true) :
    s.fillWindow.nextSeqno = s.nextSeqno ↔ Done s.window s := by
  have hfill := fillWindow_eq hs
  rcases fillLoop_turn s.window_pos (s.stream.bufferSize + 1)
    { s with windowIsZero := s.windowSize == 0 } with ⟨hd, heq⟩ | ⟨seg, t, ht, heq⟩
  · rw [hfill, heq]
    exact iff_of_true rfl hd
  · refine iff_of_false (fun he => ?_) ht.not_done
    rw [hfill, heq] at he
    have hle : t.nextSeqno ≤ (fillLoop s.window (s.stream.bufferSize + 1) t).nextSeqno :=
      fillLoop_inv (P := fun u => t.nextSeqno ≤ u.nextSeqno) s.window_pos
        (fun _ _ _ hu hp => by rw [hu.sent.nextSeqno]; omega) _ (Nat.le_refl _)
    have hnext := ht.sent.nextSeqno
    have hpos := ht.sent.nonempty
    simp only at hnext
    omega

/-- What `fillWindow` sends occupies sequence numbers, without RST. -/
theorem fillWindow_out (s : TCPSender) : ∃ new, s.fillWindow.segmentsOut = s.segmentsOut ++ new ∧
    s.fillWindow.segmentsInFlight = s.segmentsInFlight ++ new ∧
    ∀ seg ∈ new, 0 < seg.lengthInSequenceSpace ∧ seg.header.rst = false := by
  refine fillWindow_inv (P := fun t => ∃ new, t.segmentsOut = s.segmentsOut ++ new ∧
    t.segmentsInFlight = s.segmentsInFlight ++ new ∧
    ∀ seg ∈ new, 0 < seg.lengthInSequenceSpace ∧ seg.header.rst = false) ?_ ?_ ?_
  · intro hs
    have hsent := (fillWindow_syn hs).1
    exact ⟨[s.synSegment], hsent.segmentsOut, hsent.segmentsInFlight,
      by simpa [synSegment] using hsent.nonempty⟩
  · exact fun _ => ⟨[], by simp, by simp, by simp⟩
  · rintro s' seg t - ht ⟨new, hout, hqueue, hnew⟩
    refine ⟨new ++ [seg], by rw [ht.sent.segmentsOut, hout, List.append_assoc],
      by rw [ht.sent.segmentsInFlight, hqueue, List.append_assoc], fun seg' hm => ?_⟩
    rcases List.mem_append.mp hm with hm | hm
    · exact hnew seg' hm
    · rw [List.mem_singleton.mp hm]
      exact ⟨ht.sent.nonempty, by rw [ht.header]⟩

/-! ## What keeps a sender healthy -/

theorem Healthy.setOut (h : s.Healthy) (out : List TCPSegment) :
    Healthy { s with segmentsOut := out } :=
  ⟨h.started.same (same_setOut s out), h.opened, h.unacked, h.plain, h.unopened,
    h.timer.same ⟨rfl, rfl, rfl, rfl, rfl, rfl⟩ rfl, h.error⟩

theorem Healthy.write (h : s.Healthy) (data : List UInt8) : (s.write data).Healthy :=
  ⟨started_step h.started (.write data), h.opened, h.unacked, h.plain, h.unopened,
    h.timer.step (.write data), h.error⟩

theorem Healthy.endInput (h : s.Healthy) : s.endInput.Healthy :=
  ⟨started_step h.started .endInput, h.opened, h.unacked, h.plain, h.unopened,
    h.timer.step .endInput, h.error⟩

theorem Healthy.tick (h : s.Healthy) (ms : Nat) : (s.tick ms).Healthy := by
  refine ⟨started_step h.started (.tick ms), ?_, ?_, ?_, ?_, h.timer.tick ms, ?_⟩
  · rw [(tick_ticked s ms).eq]
    exact h.opened
  · rw [(tick_ticked s ms).eq]
    exact h.unacked
  · rw [(tick_ticked s ms).eq]
    exact h.plain
  · rw [(tick_ticked s ms).eq]
    exact h.unopened
  · rw [(tick_ticked s ms).eq]
    exact h.error

theorem Healthy.fillWindow (h : s.Healthy) : s.fillWindow.Healthy := by
  refine ⟨started_step h.started .fillWindow, fun _ => ?_, fun hz => ?_, fun seg hm => ?_,
    fun hs => ?_, h.timer.fillWindow, ?_⟩
  · cases hs : s.syn with
    | false =>
      have hsent := (fillWindow_syn hs).1
      have := hsent.nextSeqno
      have := hsent.nonempty
      omega
    | true =>
      have := fillWindow_nextSeqno_le s
      have := h.opened hs
      omega
  · rw [fillWindow_receiveAck] at hz
    exact fillWindow_inv (P := fun t => t.bytesInFlight = t.nextSeqno)
      (fun hs => by
        have hsent := (fillWindow_syn hs).1
        rw [hsent.bytesInFlight, hsent.nextSeqno, h.unacked hz])
      (fun _ => h.unacked hz)
      fun _ _ _ _ ht hp => by rw [ht.sent.bytesInFlight, ht.sent.nextSeqno, hp]
  · obtain ⟨new, -, hqueue, hnew⟩ := fillWindow_out s
    rw [hqueue, List.mem_append] at hm
    rcases hm with hm | hm
    · exact h.plain seg hm
    · exact (hnew seg hm).2
  · rw [fillWindow_sets_syn] at hs
    cases hs
  · rw [fillWindow_error]
    exact h.error

theorem ackReceived_syn (h : s.syn = true) (ackno : WrappingInt32) (w : UInt16) :
    (s.ackReceived ackno w).syn = true := by
  rcases ackReceived_cases s ackno w with ⟨-, -, heq⟩ | ⟨-, -, -, heq⟩ | ⟨-, -, e, _, -, -, heq⟩
  · rw [heq]
    exact h
  · rw [heq]
    exact h
  · rw [heq, (same_restartTimer _).syn]
    exact fillWindow_sets_syn e

theorem ackReceived_error (s : TCPSender) (ackno : WrappingInt32) (w : UInt16) :
    (s.ackReceived ackno w).stream.error = s.stream.error := by
  rcases ackReceived_cases s ackno w with ⟨-, -, heq⟩ | ⟨-, -, -, heq⟩ | ⟨-, -, e, _, -, ha, heq⟩
  · rw [heq]
  · rw [heq]
  · obtain ⟨counting, clock, hr⟩ := restartTimer_eq e.fillWindow
    rw [heq, hr]
    exact (fillWindow_error e).trans (by rw [ha.eq])

theorem ackReceived_nextSeqno_le (s : TCPSender) (ackno : WrappingInt32) (w : UInt16) :
    s.nextSeqno ≤ (s.ackReceived ackno w).nextSeqno := by
  rcases ackReceived_cases s ackno w with ⟨-, -, heq⟩ | ⟨-, -, -, heq⟩ | ⟨-, -, e, _, -, ha, heq⟩
  · rw [heq]
  · rw [heq]
  · have hle := fillWindow_nextSeqno_le e
    rw [heq, (same_restartTimer _).nextSeqno]
    rw [ha.eq] at hle ⊢
    exact hle

/-- What an ack makes the sender send occupies sequence numbers. -/
theorem ackReceived_out (s : TCPSender) (ackno : WrappingInt32) (w : UInt16) :
    ∃ new, (s.ackReceived ackno w).segmentsOut = s.segmentsOut ++ new ∧
      ∀ seg ∈ new, 0 < seg.lengthInSequenceSpace := by
  rcases ackReceived_cases s ackno w with ⟨-, -, heq⟩ | ⟨-, -, -, heq⟩ | ⟨-, -, e, _, -, ha, heq⟩
  · exact ⟨[], by rw [heq]; simp, by simp⟩
  · exact ⟨[], by rw [heq]; simp, by simp⟩
  · obtain ⟨counting, clock, hr⟩ := restartTimer_eq e.fillWindow
    obtain ⟨new, hout, -, hnew⟩ := fillWindow_out e
    refine ⟨new, ?_, fun seg hm => (hnew seg hm).1⟩
    rw [heq, hr]
    exact hout.trans (by rw [ha.eq])

theorem ackReceived_plain (h : ∀ seg ∈ s.segmentsInFlight, seg.header.rst = false)
    (ackno : WrappingInt32) (w : UInt16) :
    ∀ seg ∈ (s.ackReceived ackno w).segmentsInFlight, seg.header.rst = false := by
  rcases ackReceived_cases s ackno w with ⟨-, -, heq⟩ | ⟨-, -, -, heq⟩ | ⟨-, -, e, _, -, ha, heq⟩
  · rw [heq]
    exact h
  · rw [heq]
    exact h
  · intro seg hm
    obtain ⟨new, -, hqueue, hnew⟩ := fillWindow_out e
    rw [heq, (same_restartTimer _).segmentsInFlight, hqueue, List.mem_append] at hm
    rcases hm with hm | hm
    · exact h seg (by
        have hq := ha.queue
        simp only at hq
        rw [hq]
        exact List.mem_append_right _ hm)
    · exact (hnew seg hm).2

theorem Healthy.ackReceived (h : s.Healthy) (hs : s.syn = true) (ackno : WrappingInt32)
    (w : UInt16) : (s.ackReceived ackno w).Healthy := by
  refine ⟨started_step h.started (.ack ackno w), fun _ => ?_, fun hz => ?_,
    ackReceived_plain h.plain ackno w, fun hs' => ?_, h.timer.ackReceived ackno w, ?_⟩
  · have := ackReceived_nextSeqno_le s ackno w
    have := h.opened hs
    omega
  · -- an ack of something new moves `receiveAck` above 0
    rcases ackReceived_cases s ackno w with ⟨-, -, heq⟩ | ⟨-, -, -, heq⟩ |
      ⟨-, hgt, e, _, -, ha, heq⟩
    · rw [heq] at hz ⊢
      exact h.unacked hz
    · rw [heq] at hz ⊢
      exact h.unacked hz
    · rw [heq, (same_restartTimer _).receiveAck, fillWindow_receiveAck, ha.eq] at hz
      simp only at hz
      omega
  · rw [ackReceived_syn hs] at hs'
    cases hs'
  · rw [ackReceived_error]
    exact h.error

/-- A sender that has filled the window and whose queue has been taken is at rest. -/
theorem Healthy.atRest (h : s.Healthy) : AtRest { s.fillWindow with segmentsOut := [] } where
  toHealthy := h.fillWindow.setOut []
  out := rfl
  done _ := by
    show Done s.fillWindow.window s.fillWindow
    have hwin : s.fillWindow.window = s.window := by
      rw [window_eq, window_eq, fillWindow_windowSize]
    rw [hwin]
    cases hs : s.syn with
    | true => exact fillWindow_done hs
    | false =>
      -- SYN takes the one sequence number of a window that is not known yet
      have hsent := (fillWindow_syn hs).1
      have hnext := h.started.nextSeqno hs
      have hack := h.started.ack_le
      have hlen : s.synSegment.lengthInSequenceSpace = 1 := rfl
      left
      rw [remain, hsent.nextSeqno, hsent.receiveAck, window_eq, (h.unopened hs).1, hnext, hlen,
        show s.receiveAck = 0 by omega]
      rfl
  zero hz := by
    show s.fillWindow.windowSize = 0
    have hz' : s.fillWindow.windowIsZero = true := hz
    rw [fillWindow_windowIsZero] at hz'
    rw [fillWindow_windowSize]
    split at hz'
    · rename_i hs
      exact (h.unopened hs).1
    · simpa using hz'
  zeroed hpos hz := by
    have hpos' : 0 < s.fillWindow.receiveAck := hpos
    have hz' : s.fillWindow.windowSize = 0 := hz
    show s.fillWindow.windowIsZero = true
    rw [fillWindow_receiveAck] at hpos'
    rw [fillWindow_windowSize] at hz'
    rw [fillWindow_windowIsZero, if_neg, hz']
    · rfl
    · intro hs
      have := h.started.nextSeqno hs
      have := h.started.ack_le
      omega

theorem atRest_new (capacity : Nat) (retxTimeout : UInt16) (fixedIsn : Option WrappingInt32)
    (random : UInt32) : AtRest (new capacity retxTimeout fixedIsn random) where
  started := started_new capacity retxTimeout fixedIsn random
  opened := by rintro ⟨⟩
  unacked _ := rfl
  plain := by rintro _ ⟨⟩
  unopened _ := ⟨rfl, rfl⟩
  timer := timerInv_new capacity retxTimeout fixedIsn random
  error := rfl
  out := rfl
  done := by rintro ⟨⟩
  zero := by rintro ⟨⟩
  zeroed hpos := absurd hpos (Nat.lt_irrefl 0)

end

end TCPSender

end Sponge
