import Sponge.Internet.Refine

/-!
# What holds at the end of a run

Each event calls a connection at most once (`Event.Calls`, `step_endpoint`). A run
of the internet keeps what the runs of the network keep (`Routed`), and while the
streams are short of 2^31 bytes no segment is out of reach (`Routed.inReach`).
-/

namespace Sponge

open Lib TCPConnection

/-! ## What an operation adds -/

theorem TCPSender.fillWindow_inputEnd (s : TCPSender) :
    s.fillWindow.stream.inputEnd = s.stream.inputEnd :=
  fillWindow_inv (P := fun t => t.stream.inputEnd = s.stream.inputEnd)
    (fun hs => by rw [(fillWindow_syn hs).2.2.2]) (fun _ => rfl)
    fun _ _ _ _ ht hp => by rw [ht.stream, ByteStream.popOutput_inputEnd, hp]

theorem TCPSender.ackReceived_inputEnd (s : TCPSender) (ackno : WrappingInt32) (w : UInt16) :
    (s.ackReceived ackno w).stream.inputEnd = s.stream.inputEnd :=
  ackReceived_inv (P := fun t => t.stream.inputEnd = s.stream.inputEnd) ackno w
    (fun _ _ hs h => hs.inputEnd.trans h) (fun _ _ _ _ ha h => by rw [ha.eq]; exact h)
    (fun t h => t.fillWindow_inputEnd.trans h) rfl

/-- The outbound stream ends with `endInputStream`, and in no other way. -/
theorem TCPConnection.step_outbound (c : TCPConnection) (op : Op) :
    (c.step op).sender.stream.inputEnd =
      (c.sender.stream.inputEnd || decide (op = .endInputStream)) := by
  have hfront : (c.front op).sender.stream.inputEnd =
      (c.sender.stream.inputEnd || decide (op = .endInputStream)) := by
    cases op with
    | connect | write _ | read _ => exact (Bool.or_false _).symm
    | endInputStream => exact (Bool.or_true _).symm
    | tick ms =>
      rw [front]
      split
      · exact (Bool.or_false _).symm
      · exact (TCPSender.tick_ticked c.sender ms).same.inputEnd.trans (Bool.or_false _).symm
    | segmentReceived seg =>
      refine Eq.trans ?_ (Bool.or_false _).symm
      rw [front]
      split
      · unfold hear acceptAck
        split
        · exact TCPSender.ackReceived_inputEnd ..
        · rfl
      · rfl
  rw [← hfront]
  refine (step_settles c op).inv (P := fun c' => c'.sender.stream.inputEnd =
    (c.front op).sender.stream.inputEnd) ?_ rfl
  intro a b hs h
  cases hs with
  | fill => exact (TCPSender.fillWindow_inputEnd _).trans h
  | flush | sendEmpty | flags | abort => exact h

/-- An error of the inbound stream stays. -/
theorem TCPConnection.step_inbound_error (c : TCPConnection) (op : Op) (hi : c.receiver.Inv)
    (h : c.receiver.streamOut.error = true) : (c.step op).receiver.streamOut.error = true := by
  obtain ⟨r, hr, hcase⟩ := step_receiver c op
  have hfront : r.streamOut.error = true := by
    rcases hcase with ⟨rfl, -⟩ | ⟨n, -, rfl⟩ | ⟨seg, -, -, rfl⟩
    · exact h
    · exact h
    · exact (TCPReceiver.segmentReceived_error hi seg).trans h
  rcases hr with heq | heq
  · rw [heq]
    exact hfront
  · rw [heq]
    rfl

/-! ## Calls -/

/-- The event may call the operation at the connection of the side. -/
def Internet.Event.Calls : Internet.Event → Side → Op → Prop
  | .connect x, z, op => z = x ∧ op = .connect
  | .write x data, z, op => z = x ∧ op = .write data
  | .endInputStream x, z, op => z = x ∧ op = .endInputStream
  | .tick x ms, z, op => z = x ∧ op = .tick ms
  | .read x n, z, op => z = x ∧ op = .read n
  | .receive x _, z, op => z = x ∧ ∃ seg, op = .segmentReceived seg
  | .flush _, _, _ | .age _ _, _, _ | .arrive _ _ _, _, _ | .route _, _, _
  | .ageRouter _ _ _, _, _ => False

namespace Internet

section
variable {s : Internet} {x z : Side} {ev : Event}

theorem endpoint_call (s : Internet) (x : Side) (op : Op) :
    ((s.call x op).host x).endpoint = (s.host x).endpoint.step op (s.heard x) ∧
      ((s.call x op).host x.other).endpoint = (s.host x.other).endpoint := by
  unfold call
  rw [host_setHost, host_setHost_other]
  exact ⟨rfl, rfl⟩

theorem endpoint_hostAfter (s : Internet) (x z : Side) (result : Except Fault Unit × Host) :
    ((s.hostAfter x result).host z).endpoint = (s.host z).endpoint ∨
      z = x ∧ ((s.hostAfter x result).host z).endpoint = result.2.endpoint := by
  have hset : ((s.setHost x result.2).host z).endpoint = (s.host z).endpoint ∨
      z = x ∧ ((s.setHost x result.2).host z).endpoint = result.2.endpoint := by
    rcases side_cases x z with rfl | rfl
    · rw [host_setHost]
      exact .inr ⟨rfl, rfl⟩
    · rw [host_setHost_other]
      exact .inl rfl
  unfold hostAfter
  split
  · exact .inl rfl
  · exact hset
  · exact hset

theorem endpoint_routerAfter (s : Internet) (i : Nat) (z : Side) (result : Outcome × Router) :
    (s.routerAfter i result).host z = s.host z := by
  unfold routerAfter
  split <;> cases z <;> rfl

theorem endpoint_receive (h : Host) (bytes : List UInt8) (heard : Nat) :
    (h.receive bytes heard).2.endpoint = h.endpoint ∨ ∃ seg,
      (h.receive bytes heard).2.endpoint = h.endpoint.step (.segmentReceived seg) heard := by
  unfold Host.receive
  split
  · exact .inl rfl
  · exact .inl rfl
  · exact .inr ⟨_, rfl⟩

/-- An event calls each connection at most once. -/
theorem step_endpoint (s : Internet) (ev : Event) (z : Side) :
    ((s.step ev).host z).endpoint = (s.host z).endpoint ∨ ∃ op heard, ev.Calls z op ∧
      ((s.step ev).host z).endpoint = (s.host z).endpoint.step op heard := by
  have hcall : ∀ x op, ((s.call x op).host z).endpoint = (s.host z).endpoint ∨
      z = x ∧ ((s.call x op).host z).endpoint = (s.host z).endpoint.step op (s.heard x) := by
    intro x op
    obtain ⟨hself, hother⟩ := endpoint_call s x op
    rcases side_cases x z with rfl | rfl
    · exact .inr ⟨rfl, hself⟩
    · exact .inl hother
  have hafter : ∀ x (result : Except Fault Unit × Host),
      result.2.endpoint = (s.host x).endpoint →
      ((s.hostAfter x result).host z).endpoint = (s.host z).endpoint := by
    intro x result hr
    rcases endpoint_hostAfter s x z result with heq | ⟨rfl, heq⟩
    · exact heq
    · exact heq.trans hr
  cases ev with
  | connect x => exact (hcall x _).imp_right fun ⟨hz, heq⟩ => ⟨_, _, ⟨hz, rfl⟩, heq⟩
  | write x data => exact (hcall x _).imp_right fun ⟨hz, heq⟩ => ⟨_, _, ⟨hz, rfl⟩, heq⟩
  | endInputStream x => exact (hcall x _).imp_right fun ⟨hz, heq⟩ => ⟨_, _, ⟨hz, rfl⟩, heq⟩
  | tick x ms => exact (hcall x _).imp_right fun ⟨hz, heq⟩ => ⟨_, _, ⟨hz, rfl⟩, heq⟩
  | read x n => exact (hcall x _).imp_right fun ⟨hz, heq⟩ => ⟨_, _, ⟨hz, rfl⟩, heq⟩
  | flush x => exact .inl (hafter x _ rfl)
  | age x ms => exact .inl (hafter x _ rfl)
  | receive x k =>
    rw [Internet.step]
    split
    · exact .inl rfl
    · rename_i bytes _
      rcases endpoint_hostAfter s x z ((s.host x).receive bytes (s.heard x)) with heq | ⟨rfl, heq⟩
      · exact .inl heq
      · rcases endpoint_receive (s.host z) bytes (s.heard z) with hr | ⟨seg, hr⟩
        · exact .inl (heq.trans hr)
        · exact .inr ⟨.segmentReceived seg, _, ⟨rfl, seg, rfl⟩, heq.trans hr⟩
  | arrive i n k =>
    rw [Internet.step]
    split
    · exact .inl (congrArg Host.endpoint (endpoint_routerAfter ..))
    · exact .inl rfl
  | route i =>
    rw [Internet.step]
    split
    · exact .inl rfl
    · exact .inl (congrArg Host.endpoint (endpoint_routerAfter ..))
  | ageRouter i n ms =>
    rw [Internet.step]
    split
    · exact .inl rfl
    · exact .inl (congrArg Host.endpoint (endpoint_routerAfter ..))

end

end Internet

/-! ## Short streams -/

/-- Both streams are so short that no sequence number is 2^31 away from another. -/
def VeryShort (s : System) : Prop := ∀ x, (s.endpoint x).wrote.length + 1 ≤ 2 ^ 31

section
variable {isn : Side → WrappingInt32} {s : System} {x : Side}

theorem VeryShort.short (h : VeryShort s) : Short s := by
  have ha := h .a
  have hb := h .b
  simp only [System.endpoint] at ha hb
  constructor <;> omega

/-- What has been sent carries a number up to that of FIN. -/
theorem Carries.le {W : List UInt8} {ended : Bool} {isn : WrappingInt32} {p : Nat}
    {seg : TCPSegment} (h : Carries W ended isn p seg) : p ≤ W.length + 1 := by
  by_cases hp : p = 0
  · omega
  cases hd : seg.payload[0]? with
  | some c =>
    have hc := h.slice hp 0 c hd
    obtain ⟨hlt, -⟩ := List.getElem?_eq_some_iff.mp hc
    omega
  | none =>
    have hnil : seg.payload = [] := by simpa using hd
    cases hf : seg.header.fin with
    | true =>
      have hlen := (h.fin hf).2
      omega
    | false =>
      have hpos := h.nonempty
      rw [TCPSegment.lengthInSequenceSpace, hnil, hf, h.header hp] at hpos
      simp at hpos

/-- Nothing on the network is out of reach. -/
theorem Linked.near (h : Linked isn s) (hs : VeryShort s) (x : Side) {pkt : Packet}
    (hm : pkt ∈ (s.endpoint x.other).net) :
    Near (s.endpoint x) (s.endpoint x.other) pkt.seg := by
  have hspeaks := h.speaks x.other
  rcases hspeaks.net pkt hm with hempty | ⟨entry, hentry, hbody⟩
  · exact .inl hempty
  · have hle := (hspeaks.speaking.carries entry (List.mem_append_left _ hentry)).le
    have hout := hspeaks.outgoing_le.length_le
    have hheard := (h.hears x).stream.length_le
    rw [(h.hears x).length] at hheard
    have hshort := hs x.other
    refine .inr ⟨entry, hentry, hbody, ?_, ?_⟩
    · omega
    · show (s.endpoint x).conn.receiver.streamOut.written ≤ _
      omega

end

/-! ## The log of a run -/

namespace Internet

/-- What is known of an internet `s` after the events `evs` from `s0`. -/
structure Ran (isn : Side → WrappingInt32) (s0 : Internet) (evs : List Event) (s : Internet) :
    Prop where
  run : run Internet.step s0 evs = s
  traced : s.Traced
  onTime : Along Internet.step NoLateWrite s0 evs
  linked : Along Internet.step InReach s0 evs → Short s.system →
    Linked isn s.system ∧ ∀ x, (s.host x).endpoint.outgoing = (s.host x).endpoint.wrote
  complete : ∀ x, Along Internet.step InReach s0 evs → Short s.system →
    Along Internet.step (NoEarlyFin x) s0 evs → CompleteAt x s.system
  near : VeryShort s.system → Along Internet.step InReach s0 evs

section
variable {isn : Side → WrappingInt32} {s0 s : Internet} {x : Side} {evs : List Event} {ev : Event}

/-- What has been written stays. -/
theorem wrote_step (s : Internet) (ev : Event) (x : Side) :
    (s.host x).endpoint.wrote <+: ((s.step ev).host x).endpoint.wrote := by
  rcases step_endpoint s ev x with heq | ⟨op, heard, -, heq⟩
  · exact heq ▸ List.prefix_rfl
  · rw [heq]
    exact List.prefix_append ..

theorem short_step (h : Short (s.step ev).system) : Short s.system := by
  have ha := (wrote_step s ev .a).length_le
  have hb := (wrote_step s ev .b).length_le
  exact ⟨Nat.lt_of_le_of_lt ha h.1, Nat.lt_of_le_of_lt hb h.2⟩

theorem veryShort_step (h : VeryShort (s.step ev).system) : VeryShort s.system := by
  intro x
  have hx := h x
  have hle := (wrote_step s ev x).length_le
  rw [system_endpoint] at hx ⊢
  omega

theorem along_snoc {G : Internet → Event → Prop} (hrun : Lib.run Internet.step s0 evs = s) :
    Along Internet.step G s0 (evs ++ [ev]) ↔ Along Internet.step G s0 evs ∧ G s ev := by
  rw [along_append, hrun]
  exact and_congr_right fun _ => and_iff_left trivial

/-- What a host reads is near while the streams are short. -/
theorem Traced.inReach (ht : s.Traced) (h : Linked isn s.system) (hs : VeryShort s.system)
    (ev : Event) : s.InReach ev := by
  cases ev with
  | receive x k =>
    intro bytes hbytes seg hseg
    have hb := ht.wire bytes (List.mem_of_getElem? hbytes)
    rcases read_cases s x hb with ⟨hnone, -⟩ | ⟨a, pkt, hpkt, hread, -⟩
    · cases hr : ((s.host x).adapter.read bytes).1 with
      | error fault =>
        rw [hr] at hseg
        cases hseg
      | ok seg' =>
        rw [hr] at hseg
        obtain rfl : seg' = some seg := hseg
        exact absurd hr (hnone seg)
    · rw [hread] at hseg
      obtain rfl : a.arrived pkt.seg = seg := Option.some.inj hseg
      rw [← system_endpoint] at hpkt
      have hnear := h.near hs x hpkt
      rw [system_endpoint, system_endpoint] at hnear
      exact ((a.alike_arrived _).near ..).mpr hnear
  | connect _ | write _ _ | endInputStream _ | tick _ _ | read _ _ | flush _ | age _ _
  | arrive _ _ _ | route _ | ageRouter _ _ _ => trivial

theorem Ran.step (h : Ran isn s0 evs s) (hw : s.NoLateWrite ev) :
    Ran isn s0 (evs ++ [ev]) (s.step ev) where
  run := by
    rw [run_append, h.run]
    rfl
  traced := h.traced.step ev
  onTime := (along_snoc h.run).mpr ⟨h.onTime, hw⟩
  linked hr hs := by
    obtain ⟨hr, hreach⟩ := (along_snoc h.run).mp hr
    have hs := short_step hs
    obtain ⟨hl, hout⟩ := h.linked hr hs
    rcases h.traced.sim ev with heq | ⟨ev', heq, hreach', hw', -⟩
    · refine ⟨by rw [heq]; exact hl, fun x => ?_⟩
      rw [← system_endpoint, heq, system_endpoint]
      exact hout x
    · rw [heq]
      refine ⟨hl.step hs (hreach' hreach), fun x => ?_⟩
      rw [← system_endpoint, heq]
      refine outgoing_step hl (hw' hw) (fun z => ?_) x
      rw [system_endpoint]
      exact hout z
  complete x hr hs hf := by
    obtain ⟨hr, hreach⟩ := (along_snoc h.run).mp hr
    obtain ⟨hf, hfin⟩ := (along_snoc h.run).mp hf
    have hs := short_step hs
    have hc := h.complete x hr hs hf
    rcases h.traced.sim ev with heq | ⟨ev', heq, hreach', -, hfin'⟩
    · rw [heq]
      exact hc
    · rw [heq]
      exact hc.step (h.linked hr hs).1 hs (hreach' hreach) (hfin' x hfin)
  near hs := by
    have hs := veryShort_step hs
    have hr := h.near hs
    exact (along_snoc h.run).mpr ⟨hr, h.traced.inReach (h.linked hr hs.short).1 hs ev⟩

theorem ran_mk {cfgA cfgB : HostConfig} {routers : List Router}
    (h0 : mk? cfgA cfgB routers = some s) (ha : NoEcho cfgA.adapter cfgA.adapter)
    (hb : NoEcho cfgB.adapter cfgB.adapter) (hidle : ∀ r ∈ routers, r.Idle) :
    Ran (fun x => (s.system.endpoint x).conn.sender.isn) s [] s := by
  obtain ⟨ht, hmk⟩ := traced_mk h0 ha hb hidle
  refine ⟨rfl, ht, trivial, fun _ _ => ⟨linked_mk hmk, fun x => ?_⟩,
    fun x _ _ _ => completeAt_mk hmk x, fun _ => trivial⟩
  rw [← system_endpoint]
  exact outgoing_mk hmk x

/-- What one side has received is a prefix of what the other wrote. -/
theorem Ran.received (h : Ran isn s0 evs s) (hr : Along Internet.step InReach s0 evs)
    (hs : Short s.system) (x : Side) :
    (s.host x).endpoint.received <+: (s.host x.other).endpoint.wrote := by
  obtain ⟨hl, hout⟩ := h.linked hr hs
  have hx := (hl.hears x).stream
  rw [system_endpoint, system_endpoint, hout] at hx
  exact hx

/-- A stream that has ended is all that the other side wrote, which has ended its own. -/
theorem Ran.ended (h : Ran isn s0 evs s) (hr : Along Internet.step InReach s0 evs)
    (hs : Short s.system) (hf : Along Internet.step (NoEarlyFin x) s0 evs)
    (hend : (s.host x).endpoint.conn.inboundStream.inputEnded = true) :
    (s.host x).endpoint.received = (s.host x.other).endpoint.wrote ∧
      (s.host x.other).endpoint.conn.sender.stream.inputEnded = true := by
  obtain ⟨hl, hout⟩ := h.linked hr hs
  have hc := h.complete x hr hs hf
  have hlen := (hl.hears x).length
  have hfin := (hl.hears x).fin
  have hinv := (hl.hears x).inv
  have hspeaks := (hl.speaks x.other).speaking.reading.fin
  unfold CompleteAt at hc
  rw [system_endpoint, system_endpoint] at hc hfin
  rw [system_endpoint] at hlen hinv hspeaks
  rw [hout] at hc
  refine ⟨(h.received hr hs x).eq_of_length (hlen.trans (hc hend)), ?_⟩
  exact hspeaks (hfin (hinv.fin_of_ended hend).1)

end

end Internet

end Sponge
