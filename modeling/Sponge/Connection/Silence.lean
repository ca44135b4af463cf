import Sponge.Connection.Step
import Sponge.Sender.Window

/-!
# A finished connection

A connection that is not active does nothing on `tick` and `segmentReceived`.
The other entry points do not test `active`: each of them ends in
`segmentSends`, which sends what the sender still has queued, has room for in
the window, or puts SYN or FIN on. `always_silent_iff` says exactly when a
finished connection stays silent.
-/

namespace Sponge

open Lib

namespace TCPSender

/-- Nothing is queued, and `fillWindow` has nothing to send. -/
def Idle (s : TCPSender) : Prop := s.segmentsOut = [] ∧ s.syn = true ∧ Done s.window s

instance (s : TCPSender) : Decidable s.Idle :=
  inferInstanceAs (Decidable (_ ∧ _ ∧ (_ ∨ _ ∨ (_ ∧ _))))

theorem fillWindow_out_nil_iff (s : TCPSender) : s.fillWindow.segmentsOut = [] ↔ s.Idle := by
  unfold Idle
  cases hs : s.syn with
  | false =>
    rw [(fillWindow_syn hs).1.segmentsOut]
    simp
  | true =>
    rcases fillWindow_idle_or_sends hs with ⟨hd, heq⟩ | ⟨hd, seg, new, heq⟩
    · rw [heq]
      simp [hd]
    · rw [heq]
      simp [hd]

end TCPSender

namespace TCPConnection

/-- The operation does not make `segmentSends` send anything. -/
def Quiet (c : TCPConnection) : Op → Prop
  | .connect => c.sender.Idle
  | .write data => c.synSended = false ∨ (c.sender.write data).Idle
  | .endInputStream => c.synSended = false ∨ c.sender.endInput.Idle
  | .tick _ | .segmentReceived _ | .read _ => True

instance (c : TCPConnection) : ∀ op, Decidable (c.Quiet op)
  | .connect => inferInstanceAs (Decidable c.sender.Idle)
  | .write data => inferInstanceAs (Decidable (_ ∨ (c.sender.write data).Idle))
  | .endInputStream => inferInstanceAs (Decidable (_ ∨ c.sender.endInput.Idle))
  | .tick _ | .segmentReceived _ | .read _ => isTrue trivial

/-- The connection is not active and nothing was added to the outgoing queue `out`. -/
def Silent (out : List TCPSegment) (c : TCPConnection) : Prop :=
  c.active = false ∧ c.segmentsOut = out

instance (out : List TCPSegment) : DecidablePred (Silent out) :=
  fun c => inferInstanceAs (Decidable (c.active = false ∧ c.segmentsOut = out))

section
variable {c : TCPConnection} {out : List TCPSegment}

/-- `segmentSends` of a finished connection is silent exactly when the sender is idle. -/
theorem silent_segmentSends_iff (h : Silent out c) (sendSyn : Bool) :
    Silent out (c.segmentSends sendSyn) ↔
      (sendSyn = false ∧ c.synSended = false) ∨ c.sender.Idle := by
  by_cases hl : sendSyn = false ∧ c.synSended = false
  · have heq : c.segmentSends sendSyn = c := if_pos hl
    rw [heq]
    exact iff_of_true h (.inl hl)
  · have hgo : sendSyn = true ∨ c.synSended = true := by
      cases sendSyn with
      | true => exact .inl rfl
      | false => exact .inr (by simpa using hl)
    obtain ⟨active, linger, hact, heq⟩ := c.segmentSends_eq sendSyn hgo
    rw [heq, ← TCPSender.fillWindow_out_nil_iff, Silent]
    simp only [hact h.1, h.2, List.append_right_eq_self, List.map_eq_nil_iff, true_and, hl,
      false_or]

theorem silent_step_iff {op : Op} (h : Silent out c) : Silent out (c.step op) ↔ c.Quiet op := by
  cases op with
  | connect =>
    rw [step, TCPConnection.connect, silent_segmentSends_iff h]
    simp [Quiet]
  | write data =>
    have h' : Silent out { c with sender := c.sender.write data } := h
    rw [step, TCPConnection.write, silent_segmentSends_iff h']
    simp [Quiet]
  | endInputStream =>
    have h' : Silent out { c with sender := c.sender.endInput } := h
    rw [step, TCPConnection.endInputStream, silent_segmentSends_iff h']
    simp [Quiet]
  | tick ms =>
    have heq : c.tick ms = c := if_pos h.1
    rw [step, heq]
    exact iff_of_true h trivial
  | segmentReceived seg =>
    have heq : c.segmentReceived seg = c := if_pos h.1
    rw [step, heq]
    exact iff_of_true h trivial
  | read n => exact iff_of_true h trivial

end

/-- **Silence.** A finished connection stays inactive and adds nothing to its outgoing queue
exactly when the sender is idle at each call that reaches `segmentSends`. -/
theorem always_silent_iff (c : TCPConnection) (ops : List Op) (h : c.active = false) :
    Always step (Silent c.segmentsOut) c ops ↔ Along step Quiet c ops :=
  always_iff_along (I := fun _ => True) (G := fun _ _ => True) (along_of_forall fun _ _ => trivial)
    trivial ⟨h, rfl⟩ (fun _ _ _ _ => trivial) fun _ _ _ hs _ => silent_step_iff hs

/-- The peer answers SYN with an ack that opens a window of ten, and with RST. -/
def resetOps : List Op :=
  [.connect, .segmentReceived { header :=
    { rst := true, ack := true, ackno := ⟨8⟩, win := 10 } }]

theorem silent_after_reset : ∃ c0, mk? { fixedIsn := some ⟨7⟩ } 0 = some c0 ∧
    (run step c0 resetOps).active = false ∧
    Always step (Silent (run step c0 resetOps).segmentsOut) (run step c0 resetOps)
      [.tick 1000, .segmentReceived { header := { ack := true } }, .write [], .connect] :=
  ⟨_, rfl, by decide, (always_silent_iff _ _ (by decide)).mpr (by decide)⟩

/-- A byte written after the reset is sent. -/
theorem write_sends_after_reset : ∃ c0, mk? { fixedIsn := some ⟨7⟩ } 0 = some c0 ∧
    (run step c0 resetOps).active = false ∧
    (run step c0 resetOps).segmentsOut.length = 1 ∧
    (run step c0 (resetOps ++ [.write [97]])).segmentsOut.length = 2 ∧
    ¬ Always step (Silent (run step c0 resetOps).segmentsOut) (run step c0 resetOps)
      [.write [97]] :=
  ⟨_, rfl, by decide, by decide, by decide, by decide⟩

end TCPConnection

end Sponge
