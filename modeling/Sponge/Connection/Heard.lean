import Sponge.Connection.Advertise
import Sponge.Connection.State
import Sponge.Receiver.Presence

/-!
# A connection's run as a run of its receiver

The receiver of a connection does what a receiver alone does with the segments
that are let in and the reads (`heardAll`), up to the error flag of a connection
that was reset. What holds of every run of a receiver holds of the receiver in
every run of a connection.
-/

namespace Sponge

open Lib
open TCPReceiver (Observed)

namespace TCPConnection

/-- What the operation passes to the receiver. -/
def heard (c : TCPConnection) : Op → List TCPReceiver.Op
  | .segmentReceived seg => if c.Accepts seg then [.segment seg] else []
  | .read n => [.read n]
  | _ => []

/-- What the run passes to the receiver. -/
def heardAll : TCPConnection → List Op → List TCPReceiver.Op
  | _, [] => []
  | c, op :: ops => c.heard op ++ heardAll (c.step op) ops

/-- The receiver of the connection is `r`, but for the error flag after a reset. -/
structure Follows (r : TCPReceiver) (c : TCPConnection) : Prop where
  receiver : c.receiver = r ∨ c.receiver = failed r
  active : c.active = true → c.receiver = r

section
variable {c : TCPConnection} {r : TCPReceiver}

theorem front_receiver (c : TCPConnection) (op : Op) :
    (c.front op).receiver = run TCPReceiver.step c.receiver (c.heard op) := by
  cases op with
  | connect | write _ | endInputStream | read _ => rfl
  | tick ms =>
    rw [front]
    split <;> rfl
  | segmentReceived seg =>
    rw [front, heard]
    split
    · rw [hear, acceptAck_receiver]
      rfl
    · rfl

/-- A reset connection only reads. -/
theorem run_heard_failed (ha : c.active = false) (op : Op) :
    run TCPReceiver.step (failed r) (c.heard op) =
      failed (run TCPReceiver.step r (c.heard op)) := by
  cases op with
  | connect | write _ | endInputStream | tick _ | read _ => rfl
  | segmentReceived seg =>
    have hno : ¬ c.Accepts seg := fun h => Bool.false_ne_true (ha.symm.trans h.1)
    rw [heard, if_neg hno]
    rfl

theorem Follows.step (h : Follows r c) (hc : c.Alive) (op : Op) :
    Follows (run TCPReceiver.step r (c.heard op)) (c.step op) := by
  have hrecv : (c.step op).receiver = run TCPReceiver.step r (c.heard op) ∨
      (c.step op).receiver = failed (run TCPReceiver.step r (c.heard op)) := by
    have hfront := front_receiver c op
    have hstep := step_front_receiver c op
    rcases h.receiver with heq | heq
    · rw [heq] at hfront
      rw [← hfront]
      exact hstep
    · cases ha : c.active with
      | true =>
        rw [h.active ha] at hfront
        rw [← hfront]
        exact hstep
      | false =>
        rw [heq, run_heard_failed ha] at hfront
        refine .inr ?_
        rcases hstep with hstep | hstep
        · rw [hstep, hfront]
        · rw [hstep, hfront]
          rfl
  refine ⟨hrecv, fun ha => hrecv.resolve_right fun heq => ?_⟩
  -- the streams of an active connection are not in the error state
  have hin := (alive_step hc op ha).inbound
  rw [heq] at hin
  cases hin

theorem Follows.syn_acknoOut (h : Follows r c) :
    c.receiver.syn = r.syn ∧ c.receiver.acknoOut = r.acknoOut := by
  rcases h.receiver with heq | heq
  · rw [heq]
    exact ⟨rfl, rfl⟩
  · rw [heq]
    exact ⟨rfl, rfl⟩

/-- **The receiver of a connection** is a receiver that hears what the connection lets in. -/
theorem follows_run {cfg : TCPConfig} {random : UInt32} (h : mk? cfg random = some c)
    (ops : List Op) :
    Follows (run TCPReceiver.step c.receiver (heardAll c ops)) (run step c ops) := by
  have hfollow : ∀ (ops : List Op) {c : TCPConnection} {r : TCPReceiver}, c.Alive → Follows r c →
      Follows (run TCPReceiver.step r (heardAll c ops)) (run TCPConnection.step c ops) := by
    intro ops
    induction ops with
    | nil => exact fun _ hf => hf
    | cons op ops ih =>
      intro c r ha hf
      rw [heardAll, run_append, run_cons]
      exact ih (alive_step ha op) (hf.step ha op)
  exact hfollow ops (fun _ => live_mk h) ⟨.inl rfl, fun _ => rfl⟩

/-! ## The handshake has begun -/

/-- Once SYN has come there is an acknowledgment number. -/
def HasAckno (c : TCPConnection) : Prop := c.receiver.syn = true → c.receiver.acknoOut.isSome

/-- Once SYN has come the receiver does not look like one that listens. -/
def LeavesListen (c : TCPConnection) : Prop :=
  c.receiver.syn = true → c.state.receiver ≠ .listen

instance (c : TCPConnection) : Decidable c.LeavesListen := inferInstanceAs (Decidable (_ → _))

/-- Once SYN has come all that the call emits is an ack. -/
def SetsAck (c : TCPConnection) (op : Op) : Prop :=
  (c.step op).receiver.syn = true → ∀ out ∈ added c (c.step op), out.header.ack = true

instance (c : TCPConnection) (op : Op) : Decidable (c.SetsAck op) :=
  have := List.decidableBAll (fun out : TCPSegment => out.header.ack = true) (added c (c.step op))
  inferInstanceAs (Decidable (_ → _))

theorem HasAckno.leavesListen (h : c.HasAckno) : c.LeavesListen := by
  intro hs
  unfold state TCPState.ofParts TCPReceiver.stateSummary
  have hack : c.receiver.acknoOut.isNone = false := by
    rw [← Option.not_isSome, h hs]
    rfl
  rw [hack]
  simp only [Bool.false_eq_true, if_false]
  split
  · rintro ⟨⟩
  · split <;> rintro ⟨⟩

theorem hasAckno_of_notZero {o : Observed} (hf : Follows o.receiver c) (ht : o.Tallied)
    (hz : o.NotZero) : c.HasAckno := by
  obtain ⟨hsyn, hack⟩ := hf.syn_acknoOut
  intro hs
  rw [hack]
  exact ht.present_iff.mpr hz |>.mpr (by rw [← ht.syn, ← hsyn, hs])

/-- In a run whose receiver never counts to 0, there is an acknowledgment number from SYN on. -/
theorem always_hasAckno :
    ∀ (ops : List Op) {c : TCPConnection} {o : Observed}, c.Alive → Follows o.receiver c →
      o.Tallied → Always Observed.step Observed.NotZero o (heardAll c ops) →
      Always step HasAckno c ops
  | [], _, _, _, hf, ht, hz => hasAckno_of_notZero hf ht hz.head
  | op :: ops, c, o, ha, hf, ht, hz => by
    have hstep := hf.step ha op
    rw [← Observed.run_receiver] at hstep
    exact ⟨hasAckno_of_notZero hf ht hz.head,
      always_hasAckno ops (alive_step ha op) hstep (Observed.tallied_run ht _) (always_append hz)⟩

end

/-- **The acknowledgment number is present** in every state of a receiver's run from SYN on exactly
when it is never 0; and a connection whose receiver never counts to 0 does not fall back to
LISTEN and sets ACK on all it sends once SYN has come. -/
theorem ackno_present_iff {capacity : Nat} {r : TCPReceiver}
    (hr : TCPReceiver.mk? capacity = some r) (calls : List TCPReceiver.Op)
    {cfg : TCPConfig} {random : UInt32} {c : TCPConnection} (hc : mk? cfg random = some c)
    (ops : List Op) :
    (Always Observed.step Observed.Present { receiver := r } calls ↔
      Always Observed.step Observed.NotZero { receiver := r } calls) ∧
    (Always Observed.step Observed.NotZero { receiver := c.receiver } (heardAll c ops) →
      Always step LeavesListen c ops ∧ Along step SetsAck c ops) := by
  refine ⟨Observed.always_present_iff hr calls, fun hz => ?_⟩
  obtain ⟨hrecv, hbare⟩ : TCPReceiver.mk? cfg.recvCapacity = some c.receiver ∧ c.sender.Bare := by
    simp only [mk?, Option.map_eq_some_iff] at hc
    obtain ⟨r, hr, rfl⟩ := hc
    exact ⟨hr, TCPSender.every_new ..⟩
  have hall := always_hasAckno ops (fun _ => live_mk hc) ⟨.inl rfl, fun _ => rfl⟩
    (Observed.tallied_mk hrecv) hz
  refine ⟨hall.mono fun _ hc => hc.leavesListen, ?_⟩
  refine hall.along.imp (I := fun c => c.sender.Bare) hbare (fun _ op hi _ => step_bare hi op) ?_
  intro c op hi hc hs out hm
  exact ((added_stamped hi op out hm).1).mpr (hc.2 hs)

/-- SYN, a byte and FIN, with the numbers at the wrap of the counter; `isn` comes with SYN. -/
def shortStream (isn : WrappingInt32) : List TCPSegment :=
  [{ header := { seqno := isn, syn := true } },
   { header := { seqno := isn.add 1 }, payload := [97] },
   { header := { seqno := isn.add 2, fin := true } }]

theorem ackno_present_near_wrap :
    ∃ r c, TCPReceiver.mk? 4 = some r ∧ mk? { fixedIsn := some ⟨7⟩ } 0 = some c ∧
      Always Observed.step Observed.Present { receiver := r }
        ((shortStream ⟨4294967292⟩).map .segment) ∧
      Always step LeavesListen c ((shortStream ⟨0⟩).map .segmentReceived) ∧
      Along step SetsAck c ((shortStream ⟨0⟩).map .segmentReceived) := by
  have hr : TCPReceiver.mk? 4 = some ((TCPReceiver.mk? 4).get rfl) := rfl
  have hc : mk? { fixedIsn := some ⟨7⟩ } 0 =
    some ((mk? { fixedIsn := some ⟨7⟩ } 0).get rfl) := rfl
  obtain ⟨hpresent, hsets⟩ := ackno_present_iff hr ((shortStream ⟨4294967292⟩).map .segment) hc
    ((shortStream ⟨0⟩).map .segmentReceived)
  exact ⟨_, _, hr, hc, hpresent.mpr (by decide), hsets (by decide)⟩

/-- A SYN with the largest sequence number: the acknowledgment number is 0, the receiver looks
like one that listens, and the answer is a SYN without an ack. -/
theorem syn_not_acknowledged :
    ∃ c, mk? { fixedIsn := some ⟨7⟩ } 0 = some c ∧
      ¬ Always Observed.step Observed.Present { receiver := c.receiver }
        [.segment { header := { seqno := ⟨4294967295⟩, syn := true } }] ∧
      (step c (.segmentReceived { header :=
        { seqno := ⟨4294967295⟩, syn := true } })).receiver.syn = true ∧
      (step c (.segmentReceived { header :=
        { seqno := ⟨4294967295⟩, syn := true } })).state.receiver = .listen ∧
      (step c (.segmentReceived { header := { seqno := ⟨4294967295⟩, syn := true } })).segmentsOut =
        [{ header := { seqno := ⟨7⟩, syn := true } }] :=
  ⟨_, rfl, by decide, by decide, by decide, by decide⟩

end TCPConnection

end Sponge
