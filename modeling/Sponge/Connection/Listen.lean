import Sponge.Connection.Calls
import Sponge.Connection.State

/-!
# LISTEN

A connection on which `connect` has not been called waits for a segment with
SYN. Acks are not passed to a sender that has sent nothing, the receiver takes
nothing before SYN, and nothing is sent. RST is the exception: the guard in
`reply` excuses SYN_SENT only, so an RST that comes in LISTEN shuts the
connection down. `always_listening_iff` says that nothing else leaves the state.
-/

namespace Sponge

open Lib

namespace TCPConnection

/-- `connect` is not called, and no segment has SYN. -/
def Passive : Op → Prop
  | .connect => False
  | .segmentReceived seg => seg.header.syn = false
  | .write _ | .endInputStream | .tick _ | .read _ => True

instance : DecidablePred Passive
  | .connect => isFalse id
  | .segmentReceived _ => inferInstanceAs (Decidable (_ = false))
  | .write _ | .endInputStream | .tick _ | .read _ => isTrue trivial

/-- No segment has RST. -/
def NoRst : Op → Prop
  | .segmentReceived seg => seg.header.rst = false
  | .connect | .write _ | .endInputStream | .tick _ | .read _ => True

instance : DecidablePred NoRst
  | .segmentReceived _ => inferInstanceAs (Decidable (_ = false))
  | .connect | .write _ | .endInputStream | .tick _ | .read _ => isTrue trivial

/-- The connection is active, in LISTEN and without an error, and it has sent nothing. -/
def Listening (c : TCPConnection) : Prop :=
  c.active = true ∧ c.state = .ofState .listen ∧ c.sender.stream.error = false ∧
    c.receiver.streamOut.error = false ∧ c.segmentsOut = []

instance : DecidablePred Listening := fun c =>
  inferInstanceAs (Decidable (c.active = true ∧ c.state = .ofState .listen ∧
    c.sender.stream.error = false ∧ c.receiver.streamOut.error = false ∧ c.segmentsOut = []))

/-- Nothing has been sent or sent again, and the connection lingers. -/
structure Untouched (c : TCPConnection) : Prop where
  live : c.Live
  syn : c.sender.syn = false
  retrans : c.sender.consecutiveRetrans = 0
  linger : c.lingerAfterStreamsFinish = true
  out : c.segmentsOut = []

section
variable {c : TCPConnection} {op : Op}

theorem Untouched.listening (h : c.Untouched) (ha : c.active = true) : c.Listening := by
  have hout := h.live.sender.error
  have hin := h.live.inbound
  have hsender : c.sender.stateSummary = .closed := by
    rw [TCPSender.stateSummary, hout, if_neg (by simp),
      if_pos (h.live.sender.started.nextSeqno h.syn)]
  have hreceiver : c.receiver.stateSummary = .listen := by
    rw [TCPReceiver.stateSummary, hin, acknoOut_listening (h.live.listens h.syn)]
    rfl
  refine ⟨ha, ?_, hout, hin, h.out⟩
  rw [state, TCPState.ofParts, hsender, hreceiver, ha, h.linger]
  rfl

theorem begun_retrans (h : c.Untouched) (hp : Passive op) :
    (c.begun op).sender.consecutiveRetrans = 0 := by
  cases op with
  | connect | read _ | write _ | endInputStream => exact h.retrans
  | tick ms =>
    rw [begun, front]
    split
    · exact h.retrans
    · have hq := h.live.sender.started.queue_nil h.syn
      have hwait := (TCPSender.tick_waits ms (.inl hq)).1
      show (c.sender.tick ms).consecutiveRetrans = 0
      rw [hwait]
      exact h.retrans
  | segmentReceived seg =>
    by_cases hacc : c.Accepts seg
    · rw [begun_sender hacc, if_neg (by rw [h.live.sender.started.nextSeqno h.syn]; simp)]
      exact h.retrans
    · rw [begun_refused hacc]
      exact h.retrans

/-- In LISTEN every segment is looked at. -/
theorem Untouched.accepts (h : c.Untouched) (ha : c.active = true) (seg : TCPSegment) :
    c.Accepts seg := by
  refine ⟨ha, fun hs => ?_⟩
  have hnext := (TCPSender.synSent_iff.mp hs.1).2.1
  exact hnext (h.live.sender.started.nextSeqno h.syn)

/-- What is left of a call in LISTEN: its first part, or the shutdown of an RST. -/
theorem listen_cases (h : c.Untouched) (ha : c.active = true) (hp : Passive op) :
    (NoRst op ∧ c.step op = c.begun op ∧ (c.begun op).Untouched) ∨
      (¬ NoRst op ∧ (c.step op).active = false) := by
  have hframe := begun_frame c op
  have hends := step_ends h.live ha op
  have hs : (c.begun op).synSended = false := by
    rw [hframe]
    exact h.live.synSended.trans h.syn
  have hseg : ∀ seg, op = .segmentReceived seg → c.Accepts seg ∧ seg.header.syn = false := by
    rintro seg rfl
    exact ⟨h.accepts ha seg, hp⟩
  have hsyn := (begun_listening h.live h.syn hseg).1
  have hret := begun_retrans h hp
  have hact : (c.begun op).active = true := by rw [hframe]; exact ha
  have hstay (heq : c.step op = c.begun op) : (c.begun op).Untouched := by
    refine ⟨?_, hsyn, hret, ?_, ?_⟩
    · have hlive := h.live.step ha op
      rw [heq] at hlive
      exact hlive hact
    · rw [hframe]
      exact h.linger
    · rw [hframe]
      exact h.out
  generalize hc' : c.step op = c' at hends
  cases hends with
  | listening _ _ _ _ hrst =>
    refine .inl ⟨?_, hc' ▸ rfl, hstay hc'⟩
    cases op with
    | segmentReceived seg => exact (hrst seg rfl).2.2
    | connect | write _ | endInputStream | tick _ | read _ => trivial
  | read n => exact .inl ⟨trivial, rfl, hstay hc'⟩
  | ignored seg _ hrst =>
    have := (hrst (h.accepts ha seg)).2
    rw [h.syn] at this
    cases this
  | sends _ hgo =>
    rcases hgo with hgo | rfl | ⟨seg, rfl, hgo⟩
    · rw [hs] at hgo
      cases hgo
    · exact absurd hp id
    · have hno : seg.header.syn = false := hp
      rw [hno] at hgo
      cases hgo
  | answers seg hgo =>
    rw [hs] at hgo
    cases hgo
  | resets seg _ hrst =>
    refine .inr ⟨fun hn => ?_, rfl⟩
    have hno : seg.header.rst = false := hn
    rw [hno] at hrst
    cases hrst
  | givesUp ms hgt =>
    rw [hret] at hgt
    exact absurd hgt (by decide)

theorem untouched_mk {cfg : TCPConfig} {random : UInt32} (h : mk? cfg random = some c) :
    c.Untouched ∧ c.active = true := by
  have hlive := live_mk h
  simp only [mk?, Option.map_eq_some_iff] at h
  obtain ⟨r, -, rfl⟩ := h
  exact ⟨⟨hlive, rfl, rfl, rfl, rfl⟩, rfl⟩

end

/-- **LISTEN.** As long as `connect` is not called and no segment has SYN, the connection stays
in LISTEN exactly when no segment has RST. -/
theorem always_listening_iff (cfg : TCPConfig) (random : UInt32) (c : TCPConnection)
    (ops : List Op) (h : mk? cfg random = some c) (hp : ∀ op ∈ ops, Passive op) :
    Always step Listening c ops ↔ ∀ op ∈ ops, NoRst op := by
  obtain ⟨h0, ha⟩ := untouched_mk h
  clear h
  induction ops generalizing c with
  | nil => simpa using h0.listening ha
  | cons op ops ih =>
    rw [always_cons, List.forall_mem_cons]
    rcases listen_cases h0 ha (hp op List.mem_cons_self) with ⟨hn, heq, hu⟩ | ⟨hn, hdown⟩
    · have ha' : (c.begun op).active = true := by rw [begun_frame]; exact ha
      rw [heq, ih _ (fun o ho => hp o (List.mem_cons_of_mem _ ho)) hu ha']
      simp [hn, h0.listening ha]
    · refine iff_of_false (fun hall => ?_) (fun hall => hn hall.1)
      have hup := hall.2.head.1
      rw [hdown] at hup
      cases hup

/-- A segment with data, an ack and FIN before SYN. -/
def straySegment : TCPSegment where
  header := { ack := true, fin := true, ackno := ⟨8⟩, win := 5 }
  payload := [1, 2]

def strayOps : List Op :=
  [.write [97], .segmentReceived straySegment, .tick 4000, .endInputStream]

theorem listening_stray : ∃ c, mk? { fixedIsn := some ⟨7⟩ } 0 = some c ∧
    (∀ op ∈ strayOps, Passive op) ∧ Always step Listening c strayOps :=
  ⟨_, rfl, by decide,
    (always_listening_iff { fixedIsn := some ⟨7⟩ } 0 _ strayOps rfl (by decide)).mpr (by decide)⟩

/-- A segment with RST ends a connection that waits for SYN, with an error on both streams. -/
theorem reset_in_listen : ∃ c, mk? { fixedIsn := some ⟨7⟩ } 0 = some c ∧
    Passive (.segmentReceived { header := { rst := true } }) ∧
    ¬ Always step Listening c [.segmentReceived { header := { rst := true } }] ∧
    (c.step (.segmentReceived { header := { rst := true } })).active = false ∧
    (c.step (.segmentReceived { header := { rst := true } })).state = .ofState .reset :=
  ⟨_, rfl, by decide, by decide, by decide, by decide⟩

end TCPConnection

end Sponge
