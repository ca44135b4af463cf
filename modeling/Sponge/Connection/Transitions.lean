import Sponge.Connection.Ending
import Sponge.Connection.State

/-!
# The state machine of a connection

There is no state machine in the code: `TCPState` reads a state off the sender, the
receiver and two flags. A machine comes of it all the same. The four parts only move
one way (`TCPState.Leads`, an order), so that a state that has been left is not
entered again, and of all their combinations there are those of `Possible` only: the
official states, six that have no name, and of the inactive ones just CLOSED and
RESET.

Both hold of runs without a late write in which the acknowledgment number is there
from SYN on.
-/

namespace Sponge

open Lib

/-! ## The order of the states -/

def TCPSenderStateSummary.rank : TCPSenderStateSummary → Nat
  | .closed => 0
  | .synSent => 1
  | .synAcked => 2
  | .finSent => 3
  | .finAcked => 4
  | .error => 5

def TCPReceiverStateSummary.rank : TCPReceiverStateSummary → Nat
  | .listen => 0
  | .synRecv => 1
  | .finRecv => 2
  | .error => 3

namespace TCPState

/-- Neither summary goes back, and neither flag is set again. -/
structure Leads (t u : TCPState) : Prop where
  sender : t.sender.rank ≤ u.sender.rank
  receiver : t.receiver.rank ≤ u.receiver.rank
  active : u.active = true → t.active = true
  linger : u.lingerAfterStreamsFinish = true → t.lingerAfterStreamsFinish = true

instance (t u : TCPState) : Decidable (Leads t u) :=
  decidable_of_iff (t.sender.rank ≤ u.sender.rank ∧ t.receiver.rank ≤ u.receiver.rank ∧
    (u.active = true → t.active = true) ∧
    (u.lingerAfterStreamsFinish = true → t.lingerAfterStreamsFinish = true))
    ⟨fun h => ⟨h.1, h.2.1, h.2.2.1, h.2.2.2⟩, fun h => ⟨h.sender, h.receiver, h.active, h.linger⟩⟩

section
variable {t u v : TCPState}

theorem Leads.refl (t : TCPState) : Leads t t := ⟨Nat.le_refl _, Nat.le_refl _, id, id⟩

theorem Leads.trans (h : Leads t u) (h' : Leads u v) : Leads t v :=
  ⟨h.sender.trans h'.sender, h.receiver.trans h'.receiver, fun hv => h.active (h'.active hv),
    fun hv => h.linger (h'.linger hv)⟩

theorem Leads.antisymm (h : Leads t u) (h' : Leads u t) : t = u := by
  obtain ⟨s, r, active, linger⟩ := t
  obtain ⟨s', r', active', linger'⟩ := u
  have hs : s = s' := by
    have := Nat.le_antisymm h.sender h'.sender
    cases s <;> cases s' <;> simp_all [TCPSenderStateSummary.rank]
  have hr : r = r' := by
    have := Nat.le_antisymm h.receiver h'.receiver
    cases r <;> cases r' <;> simp_all [TCPReceiverStateSummary.rank]
  have ha : active = active' := Bool.eq_iff_iff.mpr ⟨h'.active, h.active⟩
  have hl : linger = linger' := Bool.eq_iff_iff.mpr ⟨h'.linger, h.linger⟩
  rw [hs, hr, ha, hl]

end

/-- The states without an official name: FIN has come with or before the first ack, an ack has come
without SYN, or the stream to be sent has ended and its FIN finds no room in the window. -/
def unnamed : List TCPState :=
  [{ sender := .synSent, receiver := .finRecv },
   { sender := .synSent, receiver := .finRecv, lingerAfterStreamsFinish := false },
   { sender := .synAcked, receiver := .listen },
   { sender := .synAcked, receiver := .finRecv },
   { sender := .finSent, receiver := .listen },
   { sender := .finAcked, receiver := .listen }]

def official : List TCPState :=
  [State.listen, .synRcvd, .synSent, .established, .closeWait, .lastAck, .finWait1, .finWait2,
    .closing, .timeWait, .closed, .reset].map ofState

theorem ofState_mem (name : State) : ofState name ∈ official := by cases name <;> decide

/-- The states that a connection can be in. -/
def Possible (t : TCPState) : Prop := t ∈ official ∨ t ∈ unnamed

instance : DecidablePred Possible := fun _ => inferInstanceAs (Decidable (_ ∨ _))

theorem possible_of_active {t : TCPState} (ha : t.active = true) (hs : t.sender ≠ .error)
    (hr : t.receiver ≠ .error) (hclosed : t.sender = .closed → t.receiver = .listen)
    (hlinger : t.receiver ≠ .finRecv → t.lingerAfterStreamsFinish = true)
    (hwait : t.sender = .finAcked → t.lingerAfterStreamsFinish = true) : Possible t := by
  obtain ⟨s, r, active, linger⟩ := t
  cases s <;> cases r <;> cases active <;> cases linger <;>
    first | decide | (exfalso; simp at ha hs hr hclosed hlinger hwait)

end TCPState

/-! ## The sender moves on -/

namespace TCPSender

/-- From `s` to `t` what was sent and what was acknowledged has only grown, an end that was reached
still is, and nothing is outstanding again after FIN. -/
structure Onward (s t : TCPSender) : Prop where
  nextSeqno : s.nextSeqno ≤ t.nextSeqno
  firstSeqno : s.firstSeqno ≤ t.firstSeqno
  ended : s.stream.eof = true → t.stream.eof = true ∧ t.stream.written = s.stream.written
  error : s.stream.error = true → t.stream.error = true
  finished : s.Finished → t.Finished

section
variable {s t u : TCPSender}

theorem Onward.refl (s : TCPSender) : Onward s s :=
  ⟨Nat.le_refl _, Nat.le_refl _, fun h => ⟨h, rfl⟩, id, id⟩

theorem Onward.trans (h : Onward s t) (h' : Onward t u) : Onward s u where
  nextSeqno := h.nextSeqno.trans h'.nextSeqno
  firstSeqno := h.firstSeqno.trans h'.firstSeqno
  ended he := by
    obtain ⟨h1, h2⟩ := h.ended he
    obtain ⟨h3, h4⟩ := h'.ended h1
    exact ⟨h3, h4.trans h2⟩
  error he := h'.error (h.error he)
  finished hf := h'.finished (h.finished hf)

theorem onward_same (h : Same s t) (hw : t.stream.written = s.stream.written)
    (herr : s.stream.error = true → t.stream.error = true) : Onward s t where
  nextSeqno := Nat.le_of_eq h.nextSeqno.symm
  firstSeqno := by rw [firstSeqno, firstSeqno, h.nextSeqno, h.bytesInFlight]
  ended he := by
    rw [ByteStream.eof_iff] at he ⊢
    rw [h.buffer, h.inputEnd]
    exact ⟨he, hw⟩
  error := herr
  finished hf := ⟨h.syn.trans hf.1, h.fin.trans hf.2.1, h.segmentsInFlight.trans hf.2.2⟩

theorem onward_fillWindow (s : TCPSender) : Onward s s.fillWindow where
  nextSeqno := fillWindow_nextSeqno_le s
  firstSeqno := Nat.le_of_eq (fillWindow_firstSeqno s).symm
  ended he := ⟨(fillWindow_quiet s).eof he, (fillWindow_quiet s).written⟩
  error he := (fillWindow_error s).trans he
  finished := Finished.fillWindow

theorem onward_acked {absAckno : Nat} {popped : List TCPSegment} (hq : s.Queued)
    (h : Acked s absAckno t popped) : Onward s t where
  nextSeqno := by rw [h.eq]
  firstSeqno := by
    rw [h.firstSeqno hq]
    exact Nat.le_add_right ..
  ended he := by
    rw [h.eq]
    exact ⟨he, rfl⟩
  error he := by
    rw [h.eq]
    exact he
  finished hf := by
    have hqueue := h.queue
    rw [hf.2.2, eq_comm, List.append_eq_nil_iff] at hqueue
    rw [h.eq]
    exact ⟨hf.1, hf.2.1, hqueue.2⟩

theorem onward_ackReceived (hq : s.Queued) (ackno : WrappingInt32) (w : UInt16) :
    Onward s (s.ackReceived ackno w) := by
  have hwin : Onward s { s with windowSize := w } := onward_same (same_setWindow s w) rfl id
  rcases ackReceived_cases s ackno w with ⟨-, -, heq⟩ | ⟨-, -, -, heq⟩ | ⟨-, -, e, _, -, ha, heq⟩
  · rw [heq]
    exact Onward.refl s
  · rw [heq]
    exact hwin
  · obtain ⟨counting, clock, hr⟩ := restartTimer_eq e.fillWindow
    have hfill := (hwin.trans (onward_acked (hq.same (same_setWindow s w)) ha)).trans
      (onward_fillWindow e)
    rw [heq]
    refine hfill.trans (onward_same (same_restartTimer _) ?_ ?_) <;> rw [hr]
    exact id

/-- A write that is not late. -/
theorem onward_write (h : s.stream.inputEnd = false) (data : List UInt8) :
    Onward s (s.write data) where
  nextSeqno := Nat.le_refl _
  firstSeqno := Nat.le_refl _
  ended he := by
    rw [ByteStream.eof_iff, h] at he
    cases he.2
  error := id
  finished := id

theorem onward_endInput (s : TCPSender) : Onward s s.endInput where
  nextSeqno := Nat.le_refl _
  firstSeqno := Nat.le_refl _
  ended he := by
    rw [ByteStream.eof_iff] at he ⊢
    exact ⟨⟨he.1, rfl⟩, rfl⟩
  error := id
  finished := id

/-- The counters fit each other. -/
structure Counted (s : TCPSender) : Prop where
  queued : s.Queued
  ledger : ∃ out, s.Ledger out

/-- With FIN sent, nothing in flight is nothing outstanding. -/
theorem Counted.finished_iff (h : s.Counted) (hspent : s.Spent) :
    s.bytesInFlight = 0 ↔ s.Finished := by
  obtain ⟨he, hle⟩ := hspent
  constructor
  · intro hzero
    obtain ⟨out, hl⟩ := h.ledger
    have hcount := hl.count
    rw [((ByteStream.eof_iff _).mp he).1] at hcount
    simp only [List.length_nil, ByteStream.bytesWritten] at hcount hle
    refine ⟨?_, ?_, h.queued.queue_nil hzero⟩
    · by_contra hs
      simp only [hs, if_false] at hcount
      split at hcount <;> omega
    · by_contra hf
      simp only [hf, if_false] at hcount
      split at hcount <;> omega
  · intro hf
    rw [h.queued.bytes, hf.2.2, seqLength_nil]

theorem summary_eq (herr : s.stream.error = false) (hnext : s.nextSeqno ≠ 0)
    (hfirst : s.nextSeqno ≠ s.bytesInFlight) : s.stateSummary =
      if s.stream.eof = false ∨ s.nextSeqno < s.stream.bytesWritten + 2 then .synAcked
      else if s.bytesInFlight ≠ 0 then .finSent else .finAcked := by
  unfold stateSummary
  rw [herr, if_neg Bool.false_ne_true, if_neg hnext, if_neg hfirst]
  by_cases he : s.stream.eof = false
  · rw [if_pos he, if_pos (.inl he)]
  · rw [if_neg he]
    by_cases hlt : s.nextSeqno < s.stream.bytesWritten + 2
    · rw [if_pos hlt, if_pos (.inr hlt)]
    · rw [if_neg hlt, if_neg (not_or.mpr ⟨he, hlt⟩)]

theorem Spent.not_behind (h : s.Spent) :
    ¬ (s.stream.eof = false ∨ s.nextSeqno < s.stream.bytesWritten + 2) := by
  rintro (he | hlt)
  · rw [h.1] at he
    cases he
  · exact Nat.not_lt.mpr h.2 hlt

/-- **The summary of a sender that moves on does not go back.** -/
theorem Onward.rank_le (h : Onward s t) (hs : s.Counted) (ht : t.Counted) :
    s.stateSummary.rank ≤ t.stateSummary.rank := by
  have hnext := h.nextSeqno
  have hfirst := h.firstSeqno
  have hsb := hs.queued.bytes_le
  have htb := ht.queued.bytes_le
  rw [TCPSender.firstSeqno, TCPSender.firstSeqno] at hfirst
  cases hte : t.stream.error with
  | true =>
    rw [show t.stateSummary = .error from if_pos hte]
    cases s.stateSummary <;> decide
  | false =>
    have hse : s.stream.error = false := by
      by_contra herr
      rw [h.error (by simpa using herr)] at hte
      cases hte
    by_cases hs0 : s.nextSeqno = 0
    · rw [show s.stateSummary = .closed by
        unfold stateSummary; rw [hse, if_neg Bool.false_ne_true, if_pos hs0]]
      exact Nat.zero_le _
    by_cases hs1 : s.nextSeqno = s.bytesInFlight
    · rw [synSent_iff.mpr ⟨hse, hs0, hs1⟩]
      unfold stateSummary
      rw [hte, if_neg Bool.false_ne_true, if_neg (by omega)]
      split_ifs <;> decide
    rw [summary_eq hse hs0 hs1, summary_eq hte (by omega) (by omega)]
    by_cases hsp : s.Spent
    · obtain ⟨he, hw⟩ := h.ended hsp.1
      have htp : t.Spent := ⟨he, by
        have := hsp.2
        simp only [ByteStream.bytesWritten] at this ⊢
        omega⟩
      rw [if_neg hsp.not_behind, if_neg htp.not_behind]
      by_cases hzero : s.bytesInFlight = 0
      · have hfin := h.finished ((hs.finished_iff hsp).mp hzero)
        rw [if_neg (not_not.mpr hzero), if_neg (not_not.mpr ((ht.finished_iff htp).mpr hfin))]
      · rw [if_pos hzero]
        split_ifs <;> decide
    · have hnot : s.stream.eof = false ∨ s.nextSeqno < s.stream.bytesWritten + 2 := by
        by_contra hn
        simp only [not_or, Bool.not_eq_false, Nat.not_lt] at hn
        exact hsp hn
      rw [if_pos hnot]
      split_ifs <;> decide

end

end TCPSender

/-! ## The connection moves on -/

theorem TCPReceiver.Inv.syn_of_ended {r : TCPReceiver} (h : r.Inv)
    (he : r.streamOut.inputEnd = true) : r.syn = true := by
  by_contra hs
  have hfin := (h.fin_of_ended he).1
  rw [(h.listen (by simpa using hs)).1] at hfin
  cases hfin

namespace TCPConnection

/-- The acknowledgment number is there from SYN on. -/
def AcknoPresent (c : TCPConnection) : Prop :=
  c.receiver.syn = true → c.receiver.acknoOut.isSome = true

instance : DecidablePred AcknoPresent := fun _ => inferInstanceAs (Decidable (_ → _))

section
variable {c : TCPConnection} {op : Op}

theorem onward_step (hq : c.sender.Queued) (hw : c.NoLateWrite op) :
    c.sender.Onward (c.step op).sender := by
  refine (step_settles c op).inv (P := fun c' => c.sender.Onward c'.sender) ?_ ?_
  · intro c1 c2 hs h1
    refine h1.trans ?_
    cases hs with
    | fill => exact TCPSender.onward_fillWindow _
    | flush => exact TCPSender.onward_same (TCPSender.same_setOut ..) rfl id
    | sendEmpty => exact TCPSender.onward_same (TCPSender.same_sendEmpty _) rfl id
    | abort => exact TCPSender.onward_same (TCPSender.same_setError _) rfl fun _ => rfl
    | flags => exact TCPSender.Onward.refl _
  · cases op with
    | connect | read _ => exact TCPSender.Onward.refl _
    | write data => exact TCPSender.onward_write hw data
    | endInputStream => exact TCPSender.onward_endInput _
    | tick ms =>
      rw [front]
      split
      · exact TCPSender.Onward.refl _
      · have hst := TCPSender.tick_stream c.sender ms
        exact TCPSender.onward_same (TCPSender.tick_ticked c.sender ms).same (by rw [hst])
          fun he => by rw [hst]; exact he
    | segmentReceived seg =>
      rw [front]
      split
      · unfold hear acceptAck
        split
        · exact TCPSender.onward_ackReceived hq _ _
        · exact TCPSender.Onward.refl _
      · exact TCPSender.Onward.refl _

theorem step_ledger (h : ∃ out, c.sender.Ledger out) (op : Op) :
    ∃ out, (c.step op).sender.Ledger out := by
  refine (step_settles c op).inv (P := fun c => ∃ out, c.sender.Ledger out) ?_ ?_
  · rintro c1 c2 hs ⟨out, h1⟩
    cases hs with
    | fill => exact ⟨out, h1.fillWindow⟩
    | flush =>
      refine ⟨out ++ c1.sender.segmentsOut, h1.count, fun hf => ?_⟩
      rw [List.append_nil]
      exact h1.fin hf
    | sendEmpty => exact ⟨out, h1.push ⟨_, rfl⟩ ⟨rfl, rfl, rfl, rfl⟩⟩
    | abort => exact ⟨out, h1.count, h1.fin⟩
    | flags => exact ⟨out, h1⟩
  · obtain ⟨out, hl⟩ := h
    cases op with
    | connect | read _ => exact ⟨out, hl⟩
    | write data => exact ⟨out, hl.write data⟩
    | endInputStream => exact ⟨out, hl.count, hl.fin⟩
    | tick ms =>
      rw [front]
      split
      · exact ⟨out, hl⟩
      · exact ⟨out, hl.tick ms⟩
    | segmentReceived seg =>
      rw [front]
      split
      · unfold hear acceptAck
        split
        · exact ⟨out, hl.ackReceived _ _⟩
        · exact ⟨out, hl⟩
      · exact ⟨out, hl⟩

/-- The receiver does not go back: SYN, the end and an error stay. -/
structure HearsOn (r r' : TCPReceiver) : Prop where
  syn : r.syn = true → r'.syn = true
  inputEnd : r.streamOut.inputEnd = true → r'.streamOut.inputEnd = true
  error : r.streamOut.error = true → r'.streamOut.error = true

theorem hearsOn_segmentReceived {r : TCPReceiver} (h : r.Inv) (seg : TCPSegment) :
    HearsOn r (r.segmentReceived seg) := by
  by_cases ht : r.Takes seg
  · obtain ⟨w, hw⟩ := TCPReceiver.segmentReceived_taken h ht
    refine ⟨fun _ => hw.syn, fun he => ?_, fun he => ?_⟩
    · have hopen := ht.open h
      rw [show r.streamOut.inputEnd = true from he] at hopen
      cases hopen
    · rw [TCPReceiver.segmentReceived_error h]
      exact he
  · rw [TCPReceiver.segmentReceived_idle h ht]
    exact ⟨id, id, id⟩

theorem hearsOn_step (h : c.active = true → c.receiver.Inv) (op : Op) :
    HearsOn c.receiver (c.step op).receiver := by
  obtain ⟨r, hr, hcase⟩ := step_receiver c op
  have hfront : HearsOn c.receiver r := by
    rcases hcase with ⟨rfl, -⟩ | ⟨n, -, rfl⟩ | ⟨seg, -, hacc, rfl⟩
    · exact ⟨id, id, id⟩
    · exact ⟨id, id, id⟩
    · exact hearsOn_segmentReceived (h hacc.1) seg
  rcases hr with heq | heq
  · rw [heq]
    exact hfront
  · rw [heq]
    exact ⟨hfront.syn, hfront.inputEnd, fun _ => rfl⟩

theorem HearsOn.rank_le {r r' : TCPReceiver} (h : HearsOn r r')
    (hp : r'.syn = true → r'.acknoOut.isSome = true) :
    r.stateSummary.rank ≤ r'.stateSummary.rank := by
  have hack : r.acknoOut.isNone = false → r'.acknoOut.isNone = false := by
    intro hr
    have hsyn : r.syn = true := by
      by_contra hs
      rw [acknoOut_listening (by simpa using hs)] at hr
      cases hr
    simpa using hp (h.syn hsyn)
  have herr := h.error
  have hend := h.inputEnd
  unfold TCPReceiver.stateSummary ByteStream.inputEnded
  cases he' : r'.streamOut.error with
  | true =>
    rw [if_pos rfl]
    split_ifs <;> decide
  | false =>
    have he : r.streamOut.error = false := by
      by_contra hn
      rw [herr (by simpa using hn)] at he'
      cases he'
    rw [he, if_neg Bool.false_ne_true, if_neg Bool.false_ne_true]
    cases hn : r.acknoOut.isNone with
    | true => exact Nat.zero_le _
    | false =>
      rw [hack hn, if_neg Bool.false_ne_true, if_neg Bool.false_ne_true]
      split_ifs with hi hi'
      · exact Nat.le_refl _
      · exact absurd (hend hi) hi'
      · decide
      · exact Nat.le_refl _

/-! ## The states -/

/-- What a state is read off. -/
structure Staged (c : TCPConnection) : Prop where
  ending : Ending c
  ledger : ∃ out, c.sender.Ledger out
  errors : c.receiver.streamOut.error = c.sender.stream.error
  lingers : c.active = true → c.receiver.streamOut.inputEnd = false →
    c.lingerAfterStreamsFinish = true
  waits : c.active = true → c.lingerAfterStreamsFinish = false →
    ¬ (c.sender.stream.eof = true ∧ c.sender.bytesInFlight = 0)
  closed : c.active = false → c.receiver.streamOut.error = false → c.sender.stream.eof = true

theorem Staged.counted (h : c.Staged) : c.sender.Counted :=
  ⟨h.ending.accounted.toQueued, h.ledger⟩

/-- The linger flag goes down only. -/
theorem linger_le (h : c.Staged) (op : Op)
    (hl : (c.step op).state.lingerAfterStreamsFinish = true) :
    c.state.lingerAfterStreamsFinish = true := by
  have hact' : (c.step op).active = true := by
    by_contra hn
    rw [state, TCPState.ofParts, if_neg hn] at hl
    cases hl
  have hact : c.active = true := by
    by_contra hn
    rw [step_inactive (by simpa using hn) op] at hact'
    cases hact'
  rw [state, TCPState.ofParts, if_pos hact'] at hl
  rw [state, TCPState.ofParts, if_pos hact]
  have hframe := begun_frame c op
  have hkeep : (c.begun op).lingerAfterStreamsFinish = c.lingerAfterStreamsFinish := by rw [hframe]
  have hsent : ∀ d : TCPConnection, d.sent.cleanShutdown.lingerAfterStreamsFinish = true →
      d.lingerAfterStreamsFinish = true := by
    intro d hd
    rw [cleanShutdown_linger, Bool.and_eq_true] at hd
    exact hd.1
  have hends := step_ends (h.ending.live hact) hact op
  generalize c.step op = c' at hends hact' hl
  cases hends with
  | listening | read | ignored => exact hkeep.symm.trans hl
  | sends => exact hkeep.symm.trans (hsent (c.begun _) hl)
  | answers seg => exact hkeep.symm.trans (hsent { c.begun (.segmentReceived seg) with
      sender := (c.begun (.segmentReceived seg)).sender.sendEmptySegment } hl)
  | resets => cases hact'
  | givesUp =>
    rw [segmentSends_inactive (uncleanShutdown_inactive _ true)] at hact'
    cases hact'

/-- **A call leads on.** -/
theorem Staged.leads (h : c.Staged) (hb : c.sender.Bounded) (hw : c.NoLateWrite op)
    (hp : (c.step op).AcknoPresent) : c.state.Leads (c.step op).state where
  sender := (onward_step h.counted.queued hw).rank_le h.counted
    ⟨(step_accounted h.ending.accounted hb op).toQueued, step_ledger h.ledger op⟩
  receiver := (hearsOn_step (fun ha => (h.ending.live ha).receiver) op).rank_le hp
  active ha' := by
    by_contra hn
    have hact : c.active = false := by
      rw [← Bool.not_eq_true]
      exact hn
    have hact' : (c.step op).active = true := ha'
    rw [step_inactive hact op] at hact'
    cases hact'
  linger := linger_le h op

/-- The two streams are set to the error state together. -/
theorem step_errors (h : c.receiver.streamOut.error = c.sender.stream.error)
    (hi : c.active = true → c.receiver.Inv) (op : Op) :
    (c.step op).receiver.streamOut.error = (c.step op).sender.stream.error := by
  refine (step_settles c op).inv
    (P := fun c => c.receiver.streamOut.error = c.sender.stream.error) ?_ ?_
  · intro c1 c2 hs h1
    cases hs with
    | fill => exact h1.trans (TCPSender.fillWindow_error _).symm
    | flush | sendEmpty | flags => exact h1
    | abort => rfl
  · cases op with
    | connect | read _ | write _ | endInputStream => exact h
    | tick ms =>
      rw [front]
      split
      · exact h
      · exact h.trans (congrArg ByteStream.error (TCPSender.tick_stream c.sender ms).symm)
    | segmentReceived seg =>
      rw [front]
      split
      · rename_i hacc
        have hr : (c.acceptAck seg).receiver.Inv := by
          rw [acceptAck_receiver]
          exact hi hacc.1
        show ((c.acceptAck seg).receiver.segmentReceived seg).streamOut.error = _
        rw [TCPReceiver.segmentReceived_error hr, acceptAck_receiver, h]
        unfold hear acceptAck
        split
        · exact (TCPSender.ackReceived_error c.sender _ _).symm
        · rfl
      · exact h

/-- A connection that goes on without lingering waits for something. -/
theorem cleanShutdown_waits
    (hl : c.receiver.streamOut.inputEnd = false → c.lingerAfterStreamsFinish = true)
    (ha : c.cleanShutdown.active = true)
    (hlinger : c.cleanShutdown.lingerAfterStreamsFinish = false) :
    ¬ (c.sender.stream.eof = true ∧ c.sender.bytesInFlight = 0) := by
  rintro ⟨he, hb⟩
  rw [cleanShutdown_linger, he, Bool.not_true, Bool.and_false, Bool.not_false, Bool.and_true]
    at hlinger
  have hend : c.receiver.streamOut.inputEnd = true := by
    by_contra hn
    rw [hl (by simpa using hn)] at hlinger
    cases hlinger
  unfold cleanShutdown at ha
  simp [ByteStream.inputEnded, hend, he, hb, hlinger] at ha

theorem begun_keeps (c : TCPConnection) (op : Op) :
    (c.begun op).active = c.active ∧ (c.begun op).synSended = c.synSended ∧
      (c.begun op).lingerAfterStreamsFinish = c.lingerAfterStreamsFinish := by
  rw [begun_frame]
  exact ⟨rfl, rfl, rfl⟩

/-- Before SYN is sent nothing has been received. -/
theorem Live.listens_open (h : c.Live) (hs : c.synSended = false) :
    c.receiver.streamOut.inputEnd = false := by
  have hsyn := h.listens (h.synSended.symm.trans hs)
  rw [h.receiver.ended, h.receiver.counted, (h.receiver.listen hsyn).1]
  rfl

theorem begun_lingers (h : c.Staged) (ha : c.active = true) (op : Op)
    (he : (c.begun op).receiver.streamOut.inputEnd = false) :
    (c.begun op).lingerAfterStreamsFinish = true := by
  rw [(begun_keeps c op).2.2]
  apply h.lingers ha
  by_contra hn
  rw [front_inputEnd (h.ending.live ha).receiver op (by simpa using hn)] at he
  cases he

/-- A call on an active connection keeps the two facts about the linger flag. -/
theorem step_lingers (h : c.Staged) (ha : c.active = true) (ha' : (c.step op).active = true) :
    ((c.step op).receiver.streamOut.inputEnd = false →
      (c.step op).lingerAfterStreamsFinish = true) ∧
    ((c.step op).lingerAfterStreamsFinish = false →
      ¬ ((c.step op).sender.stream.eof = true ∧ (c.step op).sender.bytesInFlight = 0)) := by
  have hlive := h.ending.live ha
  have hbegun := begun_lingers h ha op
  obtain ⟨hact, hsyn, hlinger⟩ := begun_keeps c op
  have hsent : ∀ d : TCPConnection, (d.receiver.streamOut.inputEnd = false →
      d.lingerAfterStreamsFinish = true) → d.sent.cleanShutdown.active = true →
      (d.sent.cleanShutdown.receiver.streamOut.inputEnd = false →
        d.sent.cleanShutdown.lingerAfterStreamsFinish = true) ∧
      (d.sent.cleanShutdown.lingerAfterStreamsFinish = false →
        ¬ (d.sent.cleanShutdown.sender.stream.eof = true ∧
          d.sent.cleanShutdown.sender.bytesInFlight = 0)) := by
    intro d hd hda
    refine ⟨fun he => ?_, fun hl => ?_⟩
    · rw [(sent_cleanShutdown d).2] at he
      rw [cleanShutdown_linger]
      have hopen : d.sent.receiver.streamOut.inputEnded = false := he
      rw [hopen, Bool.false_and, Bool.not_false, Bool.and_true]
      exact hd he
    · have hw := cleanShutdown_waits (c := d.sent) hd hda hl
      rw [(sent_sender d).1]
      exact hw
  have hends := step_ends hlive ha op
  generalize c.step op = c' at hends ha'
  cases hends with
  | listening op hs =>
    refine ⟨hbegun, fun hl => ?_⟩
    rw [hlinger, h.lingers ha (hlive.listens_open (hsyn.symm.trans hs))] at hl
    cases hl
  | read n => exact ⟨hbegun, fun hl => h.waits ha (hlinger.symm.trans hl)⟩
  | ignored seg hsame =>
    rw [hsame]
    exact ⟨hbegun, fun hl => h.waits ha (hlinger.symm.trans hl)⟩
  | sends => exact hsent (c.begun _) hbegun ha'
  | answers seg => exact hsent { c.begun (.segmentReceived seg) with
      sender := (c.begun (.segmentReceived seg)).sender.sendEmptySegment } hbegun ha'
  | resets => cases ha'
  | givesUp =>
    rw [segmentSends_inactive (uncleanShutdown_inactive _ true)] at ha'
    cases ha'

/-- A connection that a call ends without an error has read its stream to the end. -/
theorem step_closed (h : c.Staged) (ha : c.active = true) (ha' : (c.step op).active = false)
    (herr : (c.step op).receiver.streamOut.error = false) :
    (c.step op).sender.stream.eof = true := by
  have hact : (c.begun op).active = true := (begun_keeps c op).1.trans ha
  have hsent : ∀ d : TCPConnection, d.active = true → d.sent.cleanShutdown.active = false →
      d.sent.cleanShutdown.sender.stream.eof = true := by
    intro d hd hda
    rw [(sent_sender d).1]
    exact (cleanShutdown_closes (c := d.sent) hd hda).2.1
  have hends := step_ends (h.ending.live ha) ha op
  generalize c.step op = c' at hends ha' herr
  cases hends with
  | listening | read | ignored =>
    rw [hact] at ha'
    cases ha'
  | sends => exact hsent (c.begun _) hact ha'
  | answers seg => exact hsent { c.begun (.segmentReceived seg) with
      sender := (c.begun (.segmentReceived seg)).sender.sendEmptySegment } hact ha'
  | resets => cases herr
  | givesUp =>
    rw [segmentSends_receiver, uncleanShutdown_error] at herr
    cases herr

/-- **The invariant of the states.** -/
theorem Staged.step (h : c.Staged) (hb : c.sender.Bounded) (hw : c.NoLateWrite op) :
    (c.step op).Staged := by
  have hi : c.active = true → c.receiver.Inv := fun ha => (h.ending.live ha).receiver
  have hact : (c.step op).active = true → c.active = true := by
    intro ha'
    by_contra hn
    rw [step_inactive (by simpa using hn) op] at ha'
    cases ha'
  refine ⟨h.ending.step hb op, step_ledger h.ledger op, step_errors h.errors hi op,
    fun ha' => (step_lingers h (hact ha') ha').1, fun ha' => (step_lingers h (hact ha') ha').2,
    fun ha' herr => ?_⟩
  cases ha : c.active with
  | true => exact step_closed h ha ha' herr
  | false =>
    have herr0 : c.receiver.streamOut.error = false := by
      by_contra hn
      rw [(hearsOn_step hi op).error (by simpa using hn)] at herr
      cases herr
    exact ((onward_step h.counted.queued hw).ended (h.closed ha herr0)).1

theorem staged_mk {cfg : TCPConfig} {random : UInt32} (h : mk? cfg random = some c) :
    c.Staged := by
  have hending := ending_mk h
  simp only [mk?, Option.map_eq_some_iff] at h
  obtain ⟨r, hr, rfl⟩ := h
  simp only [TCPReceiver.mk?, StreamReassembler.mk?, Option.map_eq_some_iff] at hr
  obtain ⟨re, hre, rfl⟩ := hr
  have herr : re.output.error = false := by
    split at hre
    · rw [← Option.some.inj hre]
    · cases hre
  exact ⟨hending, ⟨[], rfl, by rintro ⟨⟩⟩, herr, fun _ _ => rfl, by rintro - ⟨⟩, by rintro ⟨⟩⟩

/-- The state of an ended connection. -/
theorem Staged.state_inactive (h : c.Staged) (hi : c.receiver.Inv) (hp : c.AcknoPresent)
    (ha : c.active = false) : c.state = .ofState .closed ∨ c.state = .ofState .reset := by
  have herrors := h.errors
  unfold state TCPState.ofParts
  rw [ha]
  cases herr : c.receiver.streamOut.error with
  | true =>
    right
    rw [herr] at herrors
    rw [show c.sender.stateSummary = .error from if_pos herrors.symm,
      show c.receiver.stateSummary = .error from if_pos herr]
    rfl
  | false =>
    left
    rw [herr] at herrors
    obtain ⟨hend, hfin⟩ := h.ending.ended ha herr
    have heof := h.closed ha herr
    obtain ⟨out, hl⟩ := h.ledger
    have hcount := hl.count
    rw [((ByteStream.eof_iff _).mp heof).1, hfin.1, hfin.2.1] at hcount
    simp only [List.length_nil, if_true] at hcount
    have hspent : c.sender.Spent := ⟨heof, by
      simp only [ByteStream.bytesWritten]
      omega⟩
    have hzero := (h.counted.finished_iff hspent).mpr hfin
    rw [TCPSender.summary_eq herrors.symm (by omega) (by omega), if_neg hspent.not_behind,
      if_neg (not_not.mpr hzero)]
    have hsome := hp (hi.syn_of_ended hend)
    unfold TCPReceiver.stateSummary ByteStream.inputEnded
    rw [herr, hend, Option.isNone_eq_false_iff.mpr hsome]
    rfl

theorem Staged.possible (h : c.Staged) (hi : c.receiver.Inv) (hp : c.AcknoPresent) :
    c.state.Possible := by
  cases ha : c.active with
  | false =>
    left
    rcases h.state_inactive hi hp ha with heq | heq <;> rw [heq] <;>
      exact TCPState.ofState_mem _
  | true =>
    have hlive := h.ending.live ha
    have hserr := hlive.sender.error
    have hrerr := hlive.inbound
    have hlinger : c.state.lingerAfterStreamsFinish = c.lingerAfterStreamsFinish := if_pos ha
    apply TCPState.possible_of_active ha
    · intro hs
      rw [state, TCPState.ofParts, TCPSender.stateSummary, hserr, if_neg Bool.false_ne_true] at hs
      split_ifs at hs
    · intro hr
      rw [state, TCPState.ofParts, TCPReceiver.stateSummary, hrerr, if_neg Bool.false_ne_true] at hr
      split_ifs at hr
    · intro hs
      have hzero : c.sender.nextSeqno = 0 := by
        by_contra hn
        rw [state, TCPState.ofParts, TCPSender.stateSummary, hserr, if_neg Bool.false_ne_true,
          if_neg hn] at hs
        split_ifs at hs
      have hsyn : c.sender.syn = false := by
        by_contra hn
        have := hlive.sender.opened (by simpa using hn)
        omega
      rw [state, TCPState.ofParts, TCPReceiver.stateSummary, hrerr, if_neg Bool.false_ne_true,
        acknoOut_listening (hlive.listens hsyn)]
      rfl
    · intro hr
      rw [hlinger]
      apply h.lingers ha
      by_contra hend
      have hend' : c.receiver.streamOut.inputEnd = true := by simpa using hend
      apply hr
      rw [state, TCPState.ofParts, TCPReceiver.stateSummary, hrerr, if_neg Bool.false_ne_true,
        Option.isNone_eq_false_iff.mpr (hp (hi.syn_of_ended hend')), if_neg Bool.false_ne_true,
        ByteStream.inputEnded, hend', if_pos rfl]
    · intro hs
      rw [hlinger]
      by_contra hl
      apply h.waits ha (by simpa using hl)
      rw [state, TCPState.ofParts, TCPSender.stateSummary] at hs
      constructor
      · by_contra he
        rw [Bool.not_eq_true] at he
        simp only [he, if_true] at hs
        split_ifs at hs
      · by_contra hb
        simp only [hb, not_false_eq_true, if_true, ne_eq] at hs
        split_ifs at hs

theorem step_receiver_inv (h : c.receiver.Inv) (op : Op) : (c.step op).receiver.Inv := by
  obtain ⟨r, hr, hcase⟩ := step_receiver c op
  have hfront : r.Inv := by
    rcases hcase with ⟨rfl, -⟩ | ⟨n, -, rfl⟩ | ⟨seg, -, -, rfl⟩
    · exact h
    · exact h.readOut n
    · exact h.segmentReceived seg
  rcases hr with heq | heq
  · rw [heq]
    exact hfront
  · rw [heq]
    exact failed_inv hfront

end

section
variable {cfg : TCPConfig} {random : UInt32} {c : TCPConnection} {ops : List Op}

theorem always_staged (h : mk? cfg random = some c)
    (hb : Always step (fun c => c.sender.Bounded) c ops) (hw : Along step NoLateWrite c ops) :
    Always step (fun c => c.Staged ∧ c.receiver.Inv) c ops :=
  (hb.along.and hw).always ⟨staged_mk h, (live_mk h).receiver⟩ fun _ op ⟨hs, hi⟩ ⟨⟨hb, _⟩, hw⟩ =>
    ⟨hs.step hb hw, step_receiver_inv hi op⟩

end

/-- **The state only moves on.** In every run without a late write in which the sender keeps to its
bounds and the acknowledgment number is there from SYN on, each call leads on in the order of the
states; so a state that is left is not entered again. -/
theorem along_state_leads (cfg : TCPConfig) (random : UInt32) (c : TCPConnection) (ops : List Op)
    (h : mk? cfg random = some c) (hb : Always step (fun c => c.sender.Bounded) c ops)
    (hw : Along step NoLateWrite c ops) (hp : Always step AcknoPresent c ops) :
    Along step (fun c op => c.state.Leads (c.step op).state) c ops ∧
      ∀ pre mid mid' post, ops = pre ++ (mid ++ mid') ++ post →
        (run step c (pre ++ (mid ++ mid'))).state = (run step c pre).state →
        (run step c (pre ++ mid)).state = (run step c pre).state := by
  have hleads : Along step (fun c op => c.state.Leads (c.step op).state) c ops := by
    refine (((always_staged h hb hw).along.and hb.along).and (hw.and hp.along)).mono ?_
    exact fun c op ⟨⟨⟨⟨hs, _⟩, _⟩, hb, _⟩, hw, _, hp⟩ => hs.leads hb hw hp
  refine ⟨hleads, ?_⟩
  rintro pre mid mid' post rfl hsame
  have hmid := (along_append.mp (along_append.mp hleads).1).2
  have htrans : ∀ {c : TCPConnection} {ops : List Op},
      Along step (fun c op => c.state.Leads (c.step op).state) c ops →
      c.state.Leads (run step c ops).state := fun ha =>
    ha.run_related (R := fun c d : TCPConnection => c.state.Leads d.state) (fun _ => .refl _)
      fun _ _ _ => .trans
  obtain ⟨hfirst, hrest⟩ := along_append.mp hmid
  rw [run_append, run_append] at hsame
  rw [run_append]
  have hlast := htrans hrest
  rw [hsame] at hlast
  exact hlast.antisymm (htrans hfirst)

/-- **What states there are.** In every state of such a run the connection is in an official state
or in one of six others; one that has ended is in CLOSED or RESET. -/
theorem always_state_possible (cfg : TCPConfig) (random : UInt32) (c : TCPConnection)
    (ops : List Op) (h : mk? cfg random = some c)
    (hb : Always step (fun c => c.sender.Bounded) c ops) (hw : Along step NoLateWrite c ops)
    (hp : Always step AcknoPresent c ops) :
    Always step (fun c => c.state.Possible ∧
      (c.active = false → c.state = .ofState .closed ∨ c.state = .ofState .reset)) c ops := by
  refine (hp.and (always_staged h hb hw)).mono fun c ⟨hp, hs, hi⟩ => ?_
  exact ⟨hs.possible hi hp, hs.state_inactive hi hp⟩

/-- The active close goes through FIN_WAIT_1 and TIME_WAIT. -/
theorem state_leads_activeClose : ∃ c, mk? { fixedIsn := some ⟨7⟩ } 0 = some c ∧
    (run step c (Watched.activeCloseOps.take 3)).state = .ofState .finWait1 ∧
    (run step c (Watched.activeCloseOps.take 5)).state = .ofState .timeWait ∧
    Along step (fun c op => c.state.Leads (c.step op).state) c Watched.activeCloseOps :=
  ⟨_, rfl, by decide, by decide,
    (along_state_leads { fixedIsn := some ⟨7⟩ } 0 _ Watched.activeCloseOps rfl (by decide)
      (by decide) (by decide)).1⟩

theorem state_possible_activeClose : ∃ c, mk? { fixedIsn := some ⟨7⟩ } 0 = some c ∧
    (run step c Watched.activeCloseOps).state = .ofState .closed ∧
    Always step (fun c => c.state.Possible ∧
      (c.active = false → c.state = .ofState .closed ∨ c.state = .ofState .reset)) c
      Watched.activeCloseOps :=
  ⟨_, rfl, by decide, always_state_possible { fixedIsn := some ⟨7⟩ } 0 _ Watched.activeCloseOps rfl
    (by decide) (by decide) (by decide)⟩

end TCPConnection

end Sponge
