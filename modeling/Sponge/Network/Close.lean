import Sponge.Connection.Ending

/-!
# A clean close is agreed on

A connection that has ended without an error has heard FIN and has had its own
acknowledged (`Ending`). Both sides are then complete: it has received all
that the peer wrote, and the peer, whatever has become of it since, has received
all that it wrote, and the end of it (`Agrees`).
-/

namespace Sponge

open Lib TCPConnection

/-- Neither sender has 2^31 sequence numbers outstanding or 2^63 sent. -/
def BothBounded (s : System) : Prop := s.a.conn.sender.Bounded ∧ s.b.conn.sender.Bounded

instance (s : System) : Decidable (BothBounded s) := inferInstanceAs (Decidable (_ ∧ _))

/-- When the connection of `x` has ended without an error, it has received all that the other side
wrote, and that has ended its stream; and the other side has received all that `x` wrote, and its
end. -/
def Agrees (x : Side) (s : System) : Prop :=
  (s.endpoint x).conn.active = false → (s.endpoint x).conn.inboundStream.error = false →
    ((s.endpoint x).conn.inboundStream.inputEnded = true ∧
      (s.endpoint x).received = (s.endpoint x.other).wrote ∧
      (s.endpoint x.other).conn.sender.stream.inputEnded = true) ∧
    (s.endpoint x.other).conn.inboundStream.inputEnded = true ∧
      (s.endpoint x.other).received = (s.endpoint x).wrote

instance (x : Side) (s : System) : Decidable (Agrees x s) :=
  inferInstanceAs (Decidable (_ → _ → _))

section
variable {isn : Side → WrappingInt32} {s : System} {x : Side} {ev : Event}

theorem BothBounded.endpoint (h : BothBounded s) (x : Side) :
    (s.endpoint x).conn.sender.Bounded := by
  cases x
  · exact h.1
  · exact h.2

theorem ending_step (h : ∀ x, Ending (s.endpoint x).conn) (hb : BothBounded s) (ev : Event)
    (x : Side) : Ending ((s.step ev).endpoint x).conn := by
  unfold System.step
  cases ho : s.opOf ev with
  | none => exact h x
  | some zo =>
    obtain ⟨z, op⟩ := zo
    simp only [System.act]
    rcases side_cases z x with rfl | rfl
    · rw [System.endpoint_set]
      have hstep := (h x).step (hb.endpoint x) op
      exact ⟨hstep.accounted, (fun ha => ⟨(hstep.live ha).sender, (hstep.live ha).synSended,
        (hstep.live ha).receiver, (hstep.live ha).listens, (hstep.live ha).noRst,
        (hstep.live ha).inbound, (hstep.live ha).retrans⟩), hstep.ended⟩
    · rw [System.endpoint_set_other]
      exact h z.other

/-- All that a sender with nothing outstanding has sent is acknowledged. -/
theorem finished_acked {e : Endpoint} (h : Speaks (isn x) e) (ha : e.conn.sender.Accounted)
    (hf : e.conn.sender.Finished) : e.conn.sender.receiveAck = e.outgoing.length + 2 := by
  obtain ⟨hsyn, hfin, hq⟩ := hf
  obtain ⟨taken, hW, hnext, -⟩ := h.speaking.reading.buffer
  have hrun := ha.run
  rw [hq] at hrun
  have hlen := hrun.length
  rw [seqLength_nil] at hlen
  have hfirst := ha.first_le
  have hle := ha.ack_le
  have hn := hnext hsyn
  rw [hfin] at hn
  simp only [if_true] at hn
  rw [hW, TCPSender.unread, if_pos hfin, List.append_nil]
  omega

theorem agrees (h : Linked isn s) (hc : CompleteAt x s) (ha : AckLink isn x.other s)
    (hout : ∀ x, (s.endpoint x).outgoing = (s.endpoint x).wrote)
    (he : Ending (s.endpoint x).conn) : Agrees x s := by
  intro hact herr
  obtain ⟨hend, hfin⟩ := he.ended hact herr
  have hhears := h.hears x
  have hpeer := h.hears x.other
  rw [Side.other_other] at hpeer
  constructor
  · have hended := hhears.fin (hhears.inv.fin_of_ended hend).1
    refine ⟨hend, ?_, (h.speaks x.other).speaking.reading.fin hended⟩
    rw [← hout x.other]
    exact hhears.stream.eq_of_length (hhears.length.trans (hc hend))
  · obtain ⟨b, hadv, hle, -⟩ := ha
    rw [Side.other_other, finished_acked (h.speaks x) he.accounted hfin] at hle
    -- FIN is acknowledged, so the other side has received it in order
    have hnext := Nat.le_trans hle hadv.le
    have hlen := hpeer.stream.length_le
    rw [hpeer.length] at hlen
    simp only [TCPReceiver.nextExpected, ByteStream.bytesWritten] at hnext
    split at hnext
    · rename_i hpend
      refine ⟨hpend, ?_⟩
      rw [← hout x]
      exact hpeer.stream.eq_of_length (hpeer.length.trans (by omega))
    · omega

end

/-- **Agreement on a clean close.** In every run within reach and within the bounds, without a late
write, in which no delivery to `x` completes an early FIN or is a stale ack, a connection of `x`
that has ended without an error leaves both streams complete at both sides. -/
theorem always_agrees (x : Side) (cfgA cfgB : TCPConfig) (randomA randomB : UInt32)
    (s : System) (evs : List Event) (h0 : System.mk? cfgA cfgB randomA randomB = some s)
    (hr : Along System.step InReach s evs) (hw : Along System.step NoLateWrite s evs)
    (hs : Always System.step Short s evs)
    (hb : Always System.step BothBounded s evs)
    (hne : Along System.step (NoEarlyFin x) s evs)
    (hst : Along System.step (NoStaleAck x) s evs) :
    Always System.step (Agrees x) s evs := by
  have hg := ((((hr.and hw).and hs.along).and hb.along).and hne).and hst
  have hall := hg.always (I := fun s' => Linked (fun x => (s.endpoint x).conn.sender.isn) s' ∧
      CompleteAt x s' ∧ AckLink (fun x => (s.endpoint x).conn.sender.isn) x.other s' ∧
      (∀ x, (s'.endpoint x).outgoing = (s'.endpoint x).wrote) ∧
      ∀ x, Ending (s'.endpoint x).conn)
    ⟨linked_mk h0, completeAt_mk h0 x, ackLink_mk h0 x.other, outgoing_mk h0, ?_⟩
    fun s' ev ⟨hl, hc, ha, hout, he⟩ ⟨⟨⟨⟨⟨hr, hw⟩, hs, _⟩, hb, _⟩, hne⟩, hst⟩ =>
      ⟨hl.step hs hr, hc.step hl hs hr hne, ha.step hl hs hr (by rw [Side.other_other]; exact hst),
        outgoing_step hl hw hout, ending_step he hb ev⟩
  · exact hall.mono fun s' ⟨hl, hc, ha, hout, he⟩ => agrees hl hc ha hout (he x)
  · simp only [System.mk?, Option.bind_eq_bind, Option.bind_eq_some_iff, Option.pure_def,
      Option.some.injEq] at h0
    obtain ⟨a, hma, b, hmb, rfl⟩ := h0
    intro x
    cases x
    · exact ending_mk hma
    · exact ending_mk hmb

/-- After the transfer in order `b` ends its stream too; `b` closes when its FIN is acknowledged,
`a` when it has lingered. -/
def bothCloseEvents : List Event := inOrderEvents ++
  [.endInputStream .b, .deliver .a 1, .deliver .a 2, .deliver .a 3, .deliver .b 4,
   .tick .a 10000]

theorem agrees_bothClose : ∃ s, System.mk? (smallConfig 7) (smallConfig 40) 0 0 = some s ∧
    (∀ x, ((run System.step s bothCloseEvents).endpoint x).conn.active = false) ∧
    Always System.step (Agrees .a) s bothCloseEvents :=
  ⟨_, rfl, (by rintro (_ | _) <;> decide),
    always_agrees .a (smallConfig 7) (smallConfig 40) 0 0 _ _ rfl
    (by decide) (by decide) (by decide) (by decide) (by decide) (by decide)⟩

end Sponge
