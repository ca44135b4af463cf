import Mathlib.Logic.Relation
import Sponge.Connection.Model
import Sponge.Sender.Step

/-!
# What the connection's operations do

Every operation first passes its argument to the sender or the receiver
(`front`) and then settles: it fills the window, moves what the sender has
pushed to the outgoing queue, sends an empty segment, sets the error flags, or
changes flags of its own. `step_settles` says so for all operations, so that a
property is kept by an operation when `front` and each `Settle` step keep it.
-/

namespace Sponge

namespace TCPConnection

/-- What can happen to a connection. -/
inductive Op where
  | connect
  | write (data : List UInt8)
  | endInputStream
  | tick (ms : Nat)
  | segmentReceived (seg : TCPSegment)
  | read (n : Nat)
  deriving DecidableEq, Repr

def step (c : TCPConnection) : Op → TCPConnection
  | .connect => c.connect
  | .write data => (c.write data).1
  | .endInputStream => c.endInputStream
  | .tick ms => c.tick ms
  | .segmentReceived seg => c.segmentReceived seg
  | .read n => c.readInbound n

section
variable (c : TCPConnection)

/-- `cleanShutdown` touches the two flags only, and does not revive a connection. -/
theorem cleanShutdown_eq : ∃ active linger, (c.active = false → active = false) ∧
    c.cleanShutdown = { c with active := active, lingerAfterStreamsFinish := linger } := by
  have h1 : ∃ linger, (if c.receiver.streamOut.inputEnded && !c.sender.stream.eof then
      { c with lingerAfterStreamsFinish := false } else c) =
      { c with lingerAfterStreamsFinish := linger } := by
    split
    · exact ⟨_, rfl⟩
    · exact ⟨_, rfl⟩
  obtain ⟨linger, h1⟩ := h1
  unfold cleanShutdown
  rw [h1]
  simp only
  split
  · split
    · exact ⟨_, _, fun _ => rfl, rfl⟩
    · exact ⟨_, _, fun h => h, rfl⟩
  · exact ⟨_, _, fun h => h, rfl⟩

/-- `segmentSends` fills the window and moves what the sender has pushed to the outgoing queue,
stamped. -/
theorem segmentSends_eq (sendSyn : Bool) (h : sendSyn = true ∨ c.synSended = true) :
    ∃ active linger, (c.active = false → active = false) ∧ c.segmentSends sendSyn = { c with
      synSended := true
      sender := { c.sender.fillWindow with segmentsOut := [] }
      segmentsOut := c.segmentsOut ++ c.sender.fillWindow.segmentsOut.map c.stamp
      active := active
      lingerAfterStreamsFinish := linger } := by
  unfold segmentSends
  rw [if_neg (by rcases h with h | h <;> simp [h])]
  obtain ⟨active, linger, hact, heq⟩ := cleanShutdown_eq { c with
    synSended := true
    sender := { c.sender.fillWindow with segmentsOut := [] }
    segmentsOut := c.segmentsOut ++ c.sender.fillWindow.segmentsOut.map c.stamp }
  exact ⟨active, linger, hact, heq⟩

end

/-! ## Settling -/

/-- The receiver with its stream in the error state. -/
def failed (r : TCPReceiver) : TCPReceiver :=
  { r with reassembler := { r.reassembler with output := r.reassembler.output.setError } }

/-- Both streams are set to the error state. -/
def abort (c : TCPConnection) : TCPConnection :=
  { c with
    receiver := failed c.receiver
    sender := { c.sender with stream := c.sender.stream.setError } }

/-- One step of what an operation does after the sender or the receiver has had its argument. -/
inductive Settle : TCPConnection → TCPConnection → Prop where
  | fill (c : TCPConnection) : Settle c { c with sender := c.sender.fillWindow }
  | flush (c : TCPConnection) : Settle c { c with
      segmentsOut := c.segmentsOut ++ c.sender.segmentsOut.map c.stamp
      sender := { c.sender with segmentsOut := [] } }
  | sendEmpty (c : TCPConnection) : Settle c { c with sender := c.sender.sendEmptySegment }
  | abort (c : TCPConnection) : Settle c c.abort
  | flags (c : TCPConnection) (active synSended needSendRst linger : Bool) (time : Nat) :
      Settle c { c with
        active := active
        synSended := synSended
        needSendRst := needSendRst
        lingerAfterStreamsFinish := linger
        timeSinceLastSegmentReceived := time }

abbrev Settles : TCPConnection → TCPConnection → Prop := Relation.ReflTransGen Settle

theorem Settles.inv {P : TCPConnection → Prop} {c c' : TCPConnection} (h : Settles c c')
    (hstep : ∀ a b, Settle a b → P a → P b) (hc : P c) : P c' := by
  induction h with
  | refl => exact hc
  | tail _ hs ih => exact hstep _ _ hs ih

section
variable (c : TCPConnection)

theorem segmentSends_settles (sendSyn : Bool) : Settles c (c.segmentSends sendSyn) := by
  by_cases h : sendSyn = false ∧ c.synSended = false
  · rw [show c.segmentSends sendSyn = c from if_pos h]
  · obtain ⟨active, linger, -, heq⟩ := c.segmentSends_eq sendSyn (by
      cases sendSyn with
      | true => exact .inl rfl
      | false => exact .inr (by simpa using h))
    rw [heq]
    exact ((Relation.ReflTransGen.single (.fill c)).tail (.flush _)).tail
      (.flags _ active true c.needSendRst linger c.timeSinceLastSegmentReceived)

theorem uncleanShutdown_settles (sendRst : Bool) : Settles c (c.uncleanShutdown sendRst) := by
  have h1 : Settles c { c.abort with lingerAfterStreamsFinish := false, active := false } :=
    (Relation.ReflTransGen.single (.abort c)).tail
      (.flags _ false c.synSended c.needSendRst false c.timeSinceLastSegmentReceived)
  cases sendRst with
  | false => exact h1
  | true =>
    have h2 : Settles c { c.abort with
        lingerAfterStreamsFinish := false, active := false, needSendRst := true } :=
      (Relation.ReflTransGen.single (.abort c)).tail
        (.flags _ false c.synSended true false c.timeSinceLastSegmentReceived)
    have h3 : Settles c (if c.abort.sender.segmentsOut.isEmpty then
        { c.abort with
          lingerAfterStreamsFinish := false
          active := false
          needSendRst := true
          sender := c.abort.sender.sendEmptySegment }
        else { c.abort with
          lingerAfterStreamsFinish := false, active := false, needSendRst := true }) := by
      split
      · exact h2.tail (.sendEmpty _)
      · exact h2
    exact h3.trans (segmentSends_settles _ false)

theorem reply_settles (seg : TCPSegment) : Settles c (c.reply seg) := by
  unfold reply
  split
  · exact segmentSends_settles c true
  · split
    · split
      · exact .refl
      · exact uncleanShutdown_settles c false
    · simp only
      split
      · exact (Relation.ReflTransGen.single (.sendEmpty c)).trans (segmentSends_settles _ false)
      · exact segmentSends_settles c false

end

/-- The segment is looked at: the connection is active, and a segment that carries data and an
ack does not come before SYN is acknowledged. -/
def Accepts (c : TCPConnection) (seg : TCPSegment) : Prop :=
  c.active = true ∧
    ¬ (c.sender.stateSummary = .synSent ∧ seg.header.ack = true ∧ seg.payload.length ≠ 0)

instance (c : TCPConnection) (seg : TCPSegment) : Decidable (c.Accepts seg) :=
  inferInstanceAs (Decidable (_ ∧ _))

/-- The sender sees the ack of the segment, and the receiver the segment. -/
def hear (c : TCPConnection) (seg : TCPSegment) : TCPConnection :=
  { c.acceptAck seg with receiver := (c.acceptAck seg).receiver.segmentReceived seg }

/-- The first part of an operation. -/
def front (c : TCPConnection) : Op → TCPConnection
  | .connect => c
  | .write data => { c with sender := c.sender.write data }
  | .endInputStream => { c with sender := c.sender.endInput }
  | .tick ms => if c.active = false then c else { c with sender := c.sender.tick ms }
  | .segmentReceived seg => if c.Accepts seg then c.hear seg else c
  | .read n => c.readInbound n

theorem tick_settles (c : TCPConnection) (ms : Nat) :
    Settles (c.front (.tick ms)) (c.tick ms) := by
  unfold TCPConnection.tick
  by_cases h : c.active = false
  · have hf : c.front (.tick ms) = c := if_pos h
    rw [if_pos h, hf]
  · have hf : c.front (.tick ms) = { c with sender := c.sender.tick ms } := if_neg h
    rw [if_neg h, hf]
    refine (Relation.ReflTransGen.single (.flags { c with sender := c.sender.tick ms } c.active
      c.synSended c.needSendRst c.lingerAfterStreamsFinish
      ((c.timeSinceLastSegmentReceived + ms) % 2 ^ 64))).trans ?_
    simp only
    split
    · exact (uncleanShutdown_settles _ true).trans (segmentSends_settles _ false)
    · exact segmentSends_settles _ false

theorem segmentReceived_settles (c : TCPConnection) (seg : TCPSegment) :
    Settles (c.front (.segmentReceived seg)) (c.segmentReceived seg) := by
  unfold TCPConnection.segmentReceived
  by_cases hacc : c.Accepts seg
  · have hf : c.front (.segmentReceived seg) = c.hear seg := if_pos hacc
    have htime : TCPConnection.hear { c with timeSinceLastSegmentReceived := 0 } seg =
        { c.hear seg with timeSinceLastSegmentReceived := 0 } := by
      unfold hear acceptAck
      split <;> rfl
    have hlast := reply_settles
      (TCPConnection.hear { c with timeSinceLastSegmentReceived := 0 } seg) seg
    rw [if_neg (by simp [hacc.1]), hf]
    simp only
    rw [if_neg hacc.2]
    refine .trans ?_ hlast
    rw [htime]
    exact .single (.flags (c.hear seg) _ _ _ _ 0)
  · have hf : c.front (.segmentReceived seg) = c := if_neg hacc
    rw [hf]
    by_cases ha : c.active = false
    · rw [if_pos ha]
    · -- a segment with data and an ack before SYN is acknowledged: only the clock is reset
      rw [if_neg ha]
      simp only
      rw [if_pos]
      · exact .single (.flags c c.active c.synSended c.needSendRst c.lingerAfterStreamsFinish 0)
      · by_contra hn
        exact hacc ⟨by simpa using ha, hn⟩

theorem step_settles (c : TCPConnection) (op : Op) : Settles (c.front op) (c.step op) := by
  cases op with
  | connect => exact segmentSends_settles _ true
  | write data => exact segmentSends_settles _ false
  | endInputStream => exact segmentSends_settles _ false
  | read n => exact .refl
  | tick ms => exact tick_settles c ms
  | segmentReceived seg => exact segmentReceived_settles c seg

theorem acceptAck_receiver (c : TCPConnection) (seg : TCPSegment) :
    (c.acceptAck seg).receiver = c.receiver := by
  unfold acceptAck
  split <;> rfl

theorem acceptAck_segmentsOut (c : TCPConnection) (seg : TCPSegment) :
    (c.acceptAck seg).segmentsOut = c.segmentsOut := by
  unfold acceptAck
  split <;> rfl

/-- **Rule.** What the sender's operations preserve, an operation on the connection preserves. -/
theorem step_sender_ack {P : TCPSender → Prop} (c : TCPConnection) (op : Op)
    (hsame : ∀ s t, TCPSender.Same s t → P s → P t)
    (hack : ∀ s ackno w, P s → P (s.ackReceived ackno w))
    (hfill : ∀ s, P s → P s.fillWindow) (hwrite : ∀ s data, P s → P (s.write data))
    (hend : ∀ s, P s → P s.endInput) (h : P c.sender) : P (c.step op).sender := by
  refine (step_settles c op).inv (P := fun c' => P c'.sender) ?_ ?_
  · intro c1 c2 hs h1
    cases hs with
    | fill => exact hfill _ h1
    | flush => exact hsame _ _ (TCPSender.same_setOut ..) h1
    | sendEmpty => exact hsame _ _ (TCPSender.same_sendEmpty _) h1
    | abort => exact hsame _ _ (TCPSender.same_setError _) h1
    | flags => exact h1
  · cases op with
    | connect | read _ => exact h
    | write data => exact hwrite _ data h
    | endInputStream => exact hend _ h
    | tick ms =>
      rw [front]
      split
      · exact h
      · exact hsame _ _ (TCPSender.tick_ticked c.sender ms).same h
    | segmentReceived seg =>
      rw [front]
      split
      · unfold hear acceptAck
        split
        · exact hack _ _ _ h
        · exact h
      · exact h

/-- **Rule.** The same with the steps of an ack, for what the pop loop preserves. -/
theorem step_sender {P : TCPSender → Prop} (c : TCPConnection) (op : Op)
    (hsame : ∀ s t, TCPSender.Same s t → P s → P t)
    (hacked : ∀ s absAckno e popped, TCPSender.Acked s absAckno e popped → P s → P e)
    (hfill : ∀ s, P s → P s.fillWindow) (hwrite : ∀ s data, P s → P (s.write data))
    (hend : ∀ s, P s → P s.endInput) (h : P c.sender) : P (c.step op).sender :=
  step_sender_ack c op hsame
    (fun _ ackno w hs => TCPSender.ackReceived_inv ackno w hsame hacked hfill hs) hfill hwrite hend
    h

/-- Settling leaves the receiver alone, up to the error flag. -/
theorem Settle.receiver {c c' : TCPConnection} {r : TCPReceiver} (hs : Settle c c')
    (h : c.receiver = r ∨ c.receiver = failed r) : c'.receiver = r ∨ c'.receiver = failed r := by
  cases hs with
  | fill | flush | sendEmpty | flags => exact h
  | abort =>
    refine .inr ?_
    rcases h with h | h
    · rw [← h]
      rfl
    · rw [show (TCPConnection.abort c).receiver = failed c.receiver from rfl, h]
      rfl

theorem step_front_receiver (c : TCPConnection) (op : Op) :
    (c.step op).receiver = (c.front op).receiver ∨
      (c.step op).receiver = failed (c.front op).receiver :=
  (step_settles c op).inv (fun _ _ hs h => hs.receiver h) (.inl rfl)

/-- What an operation does to the receiver, up to the error flag: nothing, a read, or the
segment. -/
theorem step_receiver (c : TCPConnection) (op : Op) :
    ∃ r, ((c.step op).receiver = r ∨ (c.step op).receiver = failed r) ∧
      ((r = c.receiver ∧ ∀ n, op ≠ .read n) ∨
        (∃ n, op = .read n ∧ r = c.receiver.readOut n) ∨
        ∃ seg, op = .segmentReceived seg ∧ c.Accepts seg ∧ r = c.receiver.segmentReceived seg) := by
  refine ⟨(c.front op).receiver, step_front_receiver c op, ?_⟩
  cases op with
  | connect | write _ | endInputStream => exact .inl ⟨rfl, by rintro _ ⟨⟩⟩
  | read n => exact .inr (.inl ⟨n, rfl, rfl⟩)
  | tick ms =>
    refine .inl ⟨?_, by rintro _ ⟨⟩⟩
    rw [front]
    split <;> rfl
  | segmentReceived seg =>
    rw [front]
    split
    · rename_i hacc
      refine .inr (.inr ⟨seg, rfl, hacc, ?_⟩)
      rw [hear, acceptAck_receiver]
    · exact .inl ⟨rfl, by rintro _ ⟨⟩⟩

end TCPConnection

end Sponge
