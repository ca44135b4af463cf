import Sponge.Connection.Close
import Sponge.Network.Acked

/-!
# A connection that has ended

A connection that ends without an error has heard the peer's FIN and has had its
own acknowledged (`Ending`), and it stays so.
-/

namespace Sponge

open Lib TCPConnection

/-- Once the connection has ended without an error, it has heard FIN and has nothing outstanding
any more, FIN included. -/
structure Ending (c : TCPConnection) : Prop where
  accounted : c.sender.Accounted
  live : c.active = true → c.Live
  ended : c.active = false → c.receiver.streamOut.error = false →
    c.receiver.streamOut.inputEnd = true ∧ c.sender.Finished

section
variable {c : TCPConnection} {op : Op}

/-- Nothing in flight is an empty queue. -/
theorem TCPSender.Queued.queue_nil {s : TCPSender} (h : s.Queued) (hzero : s.bytesInFlight = 0) :
    s.segmentsInFlight = [] := by
  have hbytes := h.bytes
  have hrun := h.run
  rw [hzero] at hbytes
  cases hq : s.segmentsInFlight with
  | nil => rfl
  | cons seg rest =>
    rw [hq] at hrun hbytes
    have hpos := hrun.2.1
    rw [seqLength_cons] at hbytes
    omega

theorem step_accounted (h : c.sender.Accounted) (hb : c.sender.Bounded) (op : Op) :
    (c.step op).sender.Accounted := by
  refine (step_settles c op).inv (P := fun c => c.sender.Accounted) ?_
    (begun_accounted h hb op)
  intro c c' hs hacc
  cases hs with
  | fill => exact hacc.fillWindow
  | flush => exact hacc.same (TCPSender.same_setOut ..)
  | sendEmpty => exact hacc.same (TCPSender.same_sendEmpty _)
  | abort => exact hacc.same (TCPSender.same_setError _)
  | flags => exact hacc

/-- What `sent` closes has heard FIN and has nothing outstanding. -/
theorem sent_ended (h : c.sender.Accounted) (hs : c.sender.Healthy) (ha : c.active = true)
    (hc : c.sent.cleanShutdown.active = false) :
    c.sent.cleanShutdown.receiver.streamOut.inputEnd = true ∧
      c.sent.cleanShutdown.sender.Finished := by
  obtain ⟨hend, heof, hzero, -⟩ := cleanShutdown_closes (c := c.sent) ha hc
  have hsyn : c.sent.sender.syn = true := TCPSender.fillWindow_sets_syn c.sender
  have hacc : c.sent.sender.Accounted := h.fillWindow.same (TCPSender.same_setOut ..)
  obtain ⟨hfin, -⟩ := TCPSender.fin_of_idle hacc (hs.atRest.done hsyn) hzero heof
  obtain ⟨active, linger, -, heq⟩ := c.sent.cleanShutdown_eq
  rw [heq]
  exact ⟨hend, hsyn, hfin, hacc.queue_nil hzero⟩

theorem Ending.closes (h : Ending c) (hb : c.sender.Bounded) (ha : c.active = true)
    (ha' : (c.step op).active = false) (herr : (c.step op).receiver.streamOut.error = false) :
    (c.step op).receiver.streamOut.inputEnd = true ∧ (c.step op).sender.Finished := by
  have hlive := h.live ha
  have hends := step_ends hlive ha op
  have hacc := begun_accounted h.accounted hb op
  have hhealthy := begun_healthy hlive.sender.toHealthy op
  have hact : (c.begun op).active = true := by
    rw [begun_frame]
    exact ha
  generalize c.step op = c' at hends ha' herr
  cases hends with
  | listening | read | ignored =>
    rw [hact] at ha'
    cases ha'
  | sends => exact sent_ended hacc hhealthy hact ha'
  | answers =>
    exact sent_ended (hacc.same (TCPSender.same_sendEmpty _)) (hhealthy.setOut _) hact ha'
  | resets => cases herr
  | givesUp =>
    rw [segmentSends_receiver, uncleanShutdown_error] at herr
    cases herr

/-- Every operation keeps it. -/
theorem Ending.step (h : Ending c) (hb : c.sender.Bounded) (op : Op) : Ending (c.step op) := by
  refine ⟨step_accounted h.accounted hb op, fun ha' => ?_, fun ha' herr => ?_⟩
  · cases ha : c.active with
    | true => exact (h.live ha).step ha op ha'
    | false =>
      rw [step_inactive ha op] at ha'
      cases ha'
  · cases ha : c.active with
    | true => exact h.closes hb ha ha' herr
    | false =>
      -- an ended connection looks at no segment
      obtain ⟨r, hr, hcase⟩ := step_receiver c op
      have hkeep : r.streamOut.error = c.receiver.streamOut.error ∧
          r.streamOut.inputEnd = c.receiver.streamOut.inputEnd := by
        rcases hcase with ⟨rfl, -⟩ | ⟨n, -, rfl⟩ | ⟨seg, -, hacc, -⟩
        · exact ⟨rfl, rfl⟩
        · exact ⟨rfl, rfl⟩
        · rw [hacc.1] at ha
          cases ha
      rcases hr with heq | heq <;> rw [heq] at herr ⊢
      · rw [hkeep.1] at herr
        obtain ⟨hend, hfin⟩ := h.ended ha herr
        exact ⟨hkeep.2.trans hend, finished_step (e := { conn := c }) hfin op 0⟩
      · cases herr

theorem ending_mk {cfg : TCPConfig} {random : UInt32} (h : mk? cfg random = some c) :
    Ending c := by
  have hlive := live_mk h
  simp only [mk?, Option.map_eq_some_iff] at h
  obtain ⟨r, -, rfl⟩ := h
  exact ⟨TCPSender.accounted_new .., fun _ => hlive, by rintro ⟨⟩⟩

end

end Sponge
