import Sponge.Network.Prefix

/-!
# The end of the inbound stream

The receiver ends its stream when FIN has come and no byte is counted as
unassembled. That nothing is counted says that there is no gap in what has come,
not that nothing is missing behind it: a FIN that overtakes data ends the stream
early (`EarlyFin`). Where no delivery does that, an inbound stream that has ended
holds all that the other application wrote.
-/

namespace Sponge

open Lib TCPConnection StreamReassembler

/-- FIN has come, or comes with this segment, when all that has come, this segment included, is
a prefix without a gap that fits the room, and is not yet all of `W`. -/
def EarlyFin (W : List UInt8) (r : TCPReceiver) (seg : TCPSegment) : Prop :=
  r.Takes seg ∧ (r.fin = true ∨ seg.header.fin = true) ∧ r.reassembler.leaked = 0 ∧
    ∃ e, e < W.length ∧ e ≤ r.reassembler.headIndex + r.streamOut.remainingCapacity ∧
      ∀ k, k < W.length →
        (r.reassembler.Received k ∨
          r.reassembler.Offers (r.segmentIndex seg) seg.payload.length k ↔ k < e)

instance (W : List UInt8) (r : TCPReceiver) (seg : TCPSegment) : Decidable (EarlyFin W r seg) :=
  inferInstanceAs (Decidable (_ ∧ _ ∧ _ ∧ _))

/-- No segment that `x` looks at completes an early FIN. -/
def NoEarlyFin (x : Side) (s : System) : Event → Prop
  | .deliver z k => z = x → ∀ pkt ∈ (s.endpoint x.other).net[k]?,
      (s.endpoint x).conn.Accepts pkt.seg →
        ¬ EarlyFin (s.endpoint x.other).outgoing (s.endpoint x).conn.receiver pkt.seg
  | .connect _ | .write _ _ | .endInputStream _ | .tick _ _ | .read _ _ => True

instance (x : Side) (s : System) : ∀ ev, Decidable (NoEarlyFin x s ev)
  | .deliver z k => inferInstanceAs (Decidable (z = x → ∀ pkt ∈ (s.endpoint x.other).net[k]?, _))
  | .connect _ | .write _ _ | .endInputStream _ | .tick _ _ | .read _ _ => isTrue trivial

/-- A stream that has ended without an error has ended at the other side and is complete. -/
def EofSound (x : Side) (s : System) : Prop :=
  (s.endpoint x).conn.inboundStream.inputEnded = true →
    (s.endpoint x).conn.inboundStream.error = false →
    (s.endpoint x.other).conn.sender.stream.inputEnded = true ∧
      (s.endpoint x).conn.inboundStream.bytesWritten = (s.endpoint x.other).wrote.length

instance (x : Side) (s : System) : Decidable (EofSound x s) :=
  inferInstanceAs (Decidable (_ → _ → _))

/-- A stream that has ended is complete. -/
def Complete (W : List UInt8) (r : TCPReceiver) : Prop :=
  r.streamOut.inputEnd = true → r.streamOut.written = W.length

section
variable {W reads : List UInt8} {ended : Bool} {isn : WrappingInt32} {seg : TCPSegment}
  {r r' : TCPReceiver} {w : List UInt8}

theorem TCPReceiver.Inv.fin_of_ended (h : r.Inv) (he : r.streamOut.inputEnd = true) :
    r.fin = true ∧ r.reassembler.unassembledByte = 0 := by
  rw [h.ended, h.counted, Bool.not_not, Bool.and_eq_true] at he
  exact ⟨he.1, (empty_iff _).mp he.2⟩

theorem Complete.taken (h' : r'.reassembler.Fed W)
    (hi' : r'.Inv) (ht : r.Takes seg) (hw : TCPReceiver.Taken r seg r' w)
    (hne : ¬ EarlyFin W r seg) : Complete W r' := by
  intro hend
  obtain ⟨hfin, hzero⟩ := hi'.fin_of_ended hend
  have hcount := hi'.re.count
  have htot : totalLength r'.reassembler.blocks = 0 := by omega
  -- nothing is counted, so nothing has leaked and nothing is stored
  have hleak' : r'.reassembler.leaked = 0 := by
    unfold leaked
    omega
  have hleak : r.reassembler.leaked = 0 := by
    have := hw.pushed.leak
    omega
  have hrec := hw.pushed.received (by rw [hleak, hleak'])
  have hwritten := hi'.re.written
  have hle := h'.head
  by_contra hshort
  apply hne
  rw [hw.fin, Bool.or_eq_true] at hfin
  refine ⟨ht, hfin, hleak, r'.reassembler.headIndex, ?_, ?_, ?_⟩
  · simp only [TCPReceiver.streamOut] at hshort
    omega
  · rw [hw.pushed.head]
    have := hw.pushed.length_le
    simp only [TCPReceiver.streamOut]
    omega
  · intro k _
    rw [← hrec k]
    constructor
    · rintro (hk | hk)
      · exact hk
      · exact absurd hk (not_holds_of_totalLength_zero htot k)
    · exact .inl

theorem Complete.segmentReceived (hc : Complete W r) (h : Hears W ended isn reads r)
    (hW : W.length < 2 ^ 63) (hg : Genuine W ended isn r.streamOut.written seg)
    (hne : ¬ EarlyFin W r seg) : Complete W (r.segmentReceived seg) := by
  have h' := h.segmentReceived hW hg
  by_cases ht : r.Takes seg
  · obtain ⟨w, hw⟩ := TCPReceiver.segmentReceived_taken h.inv ht
    exact Complete.taken h'.fed h'.inv ht hw hne
  · rw [TCPReceiver.segmentReceived_idle h.inv ht]
    exact hc

end

section
variable {isn : Side → WrappingInt32} {s : System} {x z : Side} {op : TCPConnection.Op} {ev : Event}

/-- The stream into `x`, when it has ended, is all that was written before FIN. -/
def CompleteAt (x : Side) (s : System) : Prop :=
  Complete (s.endpoint x.other).outgoing (s.endpoint x).conn.receiver

theorem CompleteAt.act_self (hc : CompleteAt x s) (h : Linked isn s) (hs : Short s)
    (hd : Delivered s x op)
    (hne : ∀ seg, op = .segmentReceived seg → (s.endpoint x).conn.Accepts seg →
      ¬ EarlyFin (s.endpoint x.other).outgoing (s.endpoint x).conn.receiver seg) :
    CompleteAt x (s.act x op) := by
  unfold CompleteAt System.act
  rw [System.endpoint_set, System.endpoint_set_other]
  obtain ⟨r, hr, hcase⟩ := step_receiver (s.endpoint x).conn op
  have hfront : Complete (s.endpoint x.other).outgoing r := by
    rcases hcase with ⟨rfl, -⟩ | ⟨n, -, rfl⟩ | ⟨seg, rfl, hacc, rfl⟩
    · exact hc
    · exact hc
    · exact hc.segmentReceived (h.hears x) (h.length_lt hs x.other) (h.genuine hd rfl)
        (hne seg rfl hacc)
  show Complete (s.endpoint x.other).outgoing ((s.endpoint x).conn.step op).receiver
  rcases hr with heq | heq
  · rw [heq]
    exact hfront
  · rw [heq]
    exact hfront

theorem CompleteAt.act_other (hc : CompleteAt x s) (h : Linked isn s) :
    CompleteAt x (s.act x.other op) := by
  unfold CompleteAt System.act
  rw [System.endpoint_other_set, System.endpoint_set]
  intro hend
  -- FIN has come, so it has been sent, and what is written now does not count
  have hfin := (h.hears x).fin ((h.hears x).inv.fin_of_ended hend).1
  show _ = ((s.endpoint x.other).outgoing ++ (s.endpoint x.other).writesOut op).length
  rw [Speaks.writesOut_of_fin hfin, List.append_nil]
  exact hc hend

theorem CompleteAt.step (hc : CompleteAt x s) (h : Linked isn s) (hs : Short s)
    (ha : InReach s ev) (hne : NoEarlyFin x s ev) : CompleteAt x (s.step ev) := by
  unfold System.step
  cases ho : s.opOf ev with
  | none => exact hc
  | some zo =>
    obtain ⟨z, op⟩ := zo
    rcases side_cases x z with rfl | rfl
    · apply hc.act_self h hs (delivered_of_inReach ha ho)
      rintro seg rfl hacc
      obtain ⟨k, pkt, rfl, hpkt, rfl⟩ := opOf_segmentReceived ho
      exact hne rfl pkt hpkt hacc
    · exact hc.act_other h

theorem completeAt_mk {cfgA cfgB : TCPConfig} {randomA randomB : UInt32}
    (h : System.mk? cfgA cfgB randomA randomB = some s) (x : Side) : CompleteAt x s := by
  intro hend
  have hl := (linked_mk h).hears x
  have hfin := (hl.inv.fin_of_ended hend).1
  simp only [System.mk?, TCPConnection.mk?, TCPReceiver.mk?, Option.bind_eq_bind,
    Option.bind_eq_some_iff, Option.map_eq_some_iff, Option.pure_def, Option.some.injEq] at h
  obtain ⟨a, ⟨_, ⟨_, _, rfl⟩, rfl⟩, b, ⟨_, ⟨_, _, rfl⟩, rfl⟩, rfl⟩ := h
  cases x <;> cases hfin

theorem outgoing_mk {cfgA cfgB : TCPConfig} {randomA randomB : UInt32}
    (h : System.mk? cfgA cfgB randomA randomB = some s) (x : Side) :
    (s.endpoint x).outgoing = (s.endpoint x).wrote := by
  simp only [System.mk?, Option.bind_eq_bind, Option.bind_eq_some_iff, Option.pure_def,
    Option.some.injEq] at h
  obtain ⟨a, -, b, -, rfl⟩ := h
  cases x <;> rfl

/-- Without a late write all that was written was written before FIN. -/
theorem outgoing_step (h : Linked isn s) (ha : NoLateWrite s ev)
    (hw : ∀ x, (s.endpoint x).outgoing = (s.endpoint x).wrote) (x : Side) :
    ((s.step ev).endpoint x).outgoing = ((s.step ev).endpoint x).wrote := by
  unfold System.step
  cases ho : s.opOf ev with
  | none => exact hw x
  | some zo =>
    obtain ⟨z, op⟩ := zo
    unfold System.act
    rcases side_cases x z with rfl | rfl
    · rw [System.endpoint_set]
      show (s.endpoint z).outgoing ++ (s.endpoint z).writesOut op =
        (s.endpoint z).wrote ++ (s.endpoint z).writes op
      rw [hw z]
      congr 1
      by_cases hd : ∃ data, op = .write data
      · obtain ⟨data, rfl⟩ := hd
        cases opOf_write ho
        refine Speaks.writesOut_of_open ?_ _
        by_contra hf
        have hend := (h.speaks z).speaking.reading.fin (by simpa using hf)
        exact absurd hend (ne_true_of_eq_false ha)
      · rw [Endpoint.writesOut, Endpoint.writes_eq_nil _ fun data h' => hd ⟨data, h'⟩, ite_self]
    · rw [System.endpoint_other_set]
      exact hw x

end

/-- **No truncated end.** In every run without a late write in which no delivery to `x` completes
an early FIN, an inbound stream of `x` that has ended without an error is all that the other side
wrote. -/
theorem always_eofSound (x : Side) (cfgA cfgB : TCPConfig) (randomA randomB : UInt32)
    (s : System) (evs : List Event) (h0 : System.mk? cfgA cfgB randomA randomB = some s)
    (ha : Along System.step InReach s evs) (hw : Along System.step NoLateWrite s evs)
    (hs : Always System.step Short s evs) (hne : Along System.step (NoEarlyFin x) s evs) :
    Always System.step (EofSound x) s evs := by
  have hg := ((ha.and hs.along).and hw).and hne
  have hall := hg.always (I := fun s' => Linked (fun x => (s.endpoint x).conn.sender.isn) s' ∧
      CompleteAt x s' ∧ ∀ x, (s'.endpoint x).outgoing = (s'.endpoint x).wrote)
    ⟨linked_mk h0, completeAt_mk h0 x, outgoing_mk h0⟩ fun s' ev h hg =>
      ⟨h.1.step hg.1.1.2.1 hg.1.1.1, h.2.1.step h.1 hg.1.1.2.1 hg.1.1.1 hg.2,
        outgoing_step h.1 hg.1.2 h.2.2⟩
  refine hall.mono fun s' h hend _ => ?_
  have hfin := (h.1.hears x).fin ((h.1.hears x).inv.fin_of_ended hend).1
  exact ⟨(h.1.speaks x.other).speaking.reading.fin hfin, by rw [← h.2.2 x.other]; exact h.2.1 hend⟩

theorem eofSound_inOrder : ∃ s, System.mk? (smallConfig 7) (smallConfig 40) 0 0 = some s ∧
    (run System.step s inOrderEvents).b.conn.inboundStream.inputEnded = true ∧
    Always System.step (EofSound .b) s inOrderEvents :=
  ⟨_, rfl, by decide, always_eofSound .b (smallConfig 7) (smallConfig 40) 0 0 _ _ rfl
    (by decide) (by decide) (by decide) (by decide)⟩

/-- The same transfer, but FIN overtakes the data. -/
def finFirstEvents : List Event :=
  [.connect .a, .deliver .b 0, .deliver .a 0, .deliver .b 1,
   .write .a [97, 98], .endInputStream .a, .deliver .b 3]

/-- When FIN overtakes the data the inbound stream ends without a byte. -/
theorem truncated_end_after_fin_first :
    ∃ s, System.mk? (smallConfig 7) (smallConfig 40) 0 0 = some s ∧
      Along System.step InReach s finFirstEvents ∧ Along System.step NoLateWrite s finFirstEvents ∧
      (run System.step s finFirstEvents).b.conn.inboundStream.inputEnded = true ∧
      (run System.step s finFirstEvents).b.conn.inboundStream.error = false ∧
      (run System.step s finFirstEvents).b.conn.inboundStream.bytesWritten = 0 ∧
      (run System.step s finFirstEvents).a.wrote = [97, 98] ∧
      ¬ Always System.step (EofSound .b) s finFirstEvents :=
  ⟨_, rfl, by decide, by decide, by decide, by decide, by decide, by decide, by decide⟩

end Sponge
