import Sponge.Adapter.Tun
import Sponge.Adapter.Udp
import Sponge.Datagram.Model
import Sponge.Lib.Simulation

/-!
# A datagram service is no more than a lossy network

Every message in the service carries a segment that one of the two connections has
enqueued (`Traced`), and what strangers send gets no further than the adapter, as
long as they do not pass for the peer (`NoSpoof`). A run of the two hosts, whatever
their adapters drop, is for the connections a run of the network of `System`: over
UDP (`udp_refines_network`) and over TUN devices (`tun_refines_network`).
-/

namespace Sponge

open Lib

namespace DatagramNet

section
variable {α μ : Type} {s : DatagramNet α μ} {x : Side} {h : DatagramHost α} {out : List μ} {m : μ}

@[simp] theorem host_setHost (s : DatagramNet α μ) (x : Side) (h : DatagramHost α)
    (out : List μ) : (s.setHost x h out).host x = h := by cases x <;> rfl

@[simp] theorem host_setHost_other (s : DatagramNet α μ) (x : Side) (h : DatagramHost α)
    (out : List μ) : (s.setHost x h out).host x.other = s.host x.other := by cases x <;> rfl

theorem wire_setHost (s : DatagramNet α μ) (x : Side) (h : DatagramHost α) (out : List μ) :
    (s.setHost x h out).wire = s.wire ++ out := by cases x <;> rfl

@[simp] theorem system_endpoint (s : DatagramNet α μ) (x : Side) :
    s.system.endpoint x = (s.host x).endpoint := by cases x <;> rfl

theorem system_setHost (s : DatagramNet α μ) (x : Side) (h : DatagramHost α) (out : List μ) :
    (s.setHost x h out).system = s.system.set x h.endpoint := by cases x <;> rfl

/-- A host whose endpoint stays is not seen. -/
theorem system_unseen (hh : h.endpoint = (s.host x).endpoint) :
    (s.setHost x h out).system = s.system := by
  rw [system_setHost, hh, ← system_endpoint, set_endpoint]

theorem system_call [FdAdapter α μ] (s : DatagramNet α μ) (x : Side) (op : TCPConnection.Op) :
    (s.call x op).system = s.system.act x op := by
  unfold DatagramNet.call System.act
  rw [system_setHost, system_endpoint, system_endpoint]
  rfl

variable [FdAdapter α μ]

/-- A turn of the loop drops the segment or hands over a message for it, or does nothing. -/
theorem send_cases (h : DatagramHost α) (rand : UInt32) :
    h.send rand = (h, none) ∨ ∃ seg segs, h.segmentsOut = seg :: segs ∧ ∃ out : Option μ,
      h.send rand = ({ h with segmentsOut := segs }, out) ∧
        ∀ m ∈ out, FdAdapter.write h.adapter.adapter seg = .ok m := by
  unfold DatagramHost.send
  split
  · exact .inl rfl
  · rename_i seg segs hq
    split
    · exact .inl rfl
    · rename_i out hw
      refine .inr ⟨seg, segs, hq, out, rfl, fun m hm => ?_⟩
      obtain rfl := Option.mem_def.mp hm
      exact LossyFdAdapter.write_some hw

/-! ## What is on its way -/

variable [LawfulFdAdapter α μ]

open LawfulFdAdapter (Apart)

/-- The message carries a segment that a host has enqueued, and that it does not accept itself. -/
def Sent (s : DatagramNet α μ) (m : μ) : Prop :=
  ∃ x, ∃ a : α, ∃ seg, FdAdapter.write a seg = .ok m ∧ seg.FitsDatagram ∧
    (∃ pkt ∈ (s.host x).endpoint.net, pkt.seg = seg) ∧ Apart a (s.host x).adapter.adapter

structure Traced (s : DatagramNet α μ) : Prop where
  hosts : ∀ x, Enqueued (s.host x).endpoint (s.host x).segmentsOut
  apart : ∀ x, Apart (s.host x).adapter.adapter (s.host x).adapter.adapter
  wire : ∀ m ∈ s.wire, s.Sent m

/-- `h'` may follow `h`: it has enqueued no less, and accepts no more of what it has sent. -/
structure Follows (h h' : DatagramHost α) : Prop where
  net : h.endpoint.net ⊆ h'.endpoint.net
  apart : ∀ a, Apart a h.adapter.adapter → Apart a h'.adapter.adapter

theorem follows_refl (h : DatagramHost α) : Follows h h := ⟨List.Subset.refl _, fun _ hc => hc⟩

theorem Sent.setHost (hf : Follows (s.host x) h) (hm : s.Sent m) : (s.setHost x h out).Sent m := by
  obtain ⟨z, a, seg, hw, hfit, ⟨pkt, hpkt, hseg⟩, hecho⟩ := hm
  refine ⟨z, a, seg, hw, hfit, ?_⟩
  rcases side_cases x z with rfl | rfl
  · rw [host_setHost]
    exact ⟨⟨pkt, hf.net hpkt, hseg⟩, hf.apart a hecho⟩
  · rw [host_setHost_other]
    exact ⟨⟨pkt, hpkt, hseg⟩, hecho⟩

theorem Traced.setHost (ht : s.Traced) (hh : Enqueued h.endpoint h.segmentsOut)
    (hself : Apart h.adapter.adapter h.adapter.adapter) (hf : Follows (s.host x) h)
    (hout : ∀ m ∈ out, s.Sent m) : (s.setHost x h out).Traced := by
  refine ⟨fun z => ?_, fun z => ?_, fun m hm => ?_⟩
  · rcases side_cases x z with rfl | rfl
    · rw [host_setHost]
      exact hh
    · rw [host_setHost_other]
      exact ht.hosts x.other
  · rcases side_cases x z with rfl | rfl
    · rw [host_setHost]
      exact hself
    · rw [host_setHost_other]
      exact ht.apart x.other
  · rw [wire_setHost] at hm
    rcases List.mem_append.mp hm with hm | hm
    · exact (ht.wire m hm).setHost hf
    · exact (hout m hm).setHost hf

theorem Traced.call (ht : s.Traced) (x : Side) (op : TCPConnection.Op) : (s.call x op).Traced :=
  ht.setHost ((ht.hosts x).step op (s.heard x)) (ht.apart x)
    ⟨subset_step .., fun _ hc => hc⟩ (List.forall_mem_nil _)

theorem Traced.send (ht : s.Traced) (x : Side) (rand : UInt32) :
    (s.step (.send x rand)).Traced := by
  have hh := ht.hosts x
  rw [DatagramNet.step]
  rcases send_cases (s.host x) rand with heq | ⟨seg, segs, hq, out, heq, hout⟩ <;> rw [heq]
  · exact ht.setHost hh (ht.apart x) (follows_refl _) (List.forall_mem_nil _)
  · rw [hq] at hh
    refine ht.setHost (hh.subset (List.subset_cons_self ..)) (ht.apart x)
      ⟨List.Subset.refl _, fun _ hc => hc⟩ fun m hm => ?_
    have hseg := List.mem_cons_self (a := seg) (l := segs)
    exact ⟨x, _, seg, hout m (Option.mem_toList.mp hm), hh.fits hseg, hh.queue seg hseg,
      ht.apart x⟩

/-! ## Receptions -/

/-- No stranger passes for the peer, or opens a connection at an adapter that listens. -/
def NoSpoof (s : DatagramNet α μ) : Event μ → Prop
  | .stray x m _ =>
    if FdAdapter.listening (s.host x).adapter.adapter then LawfulFdAdapter.opens α m = false
    else LawfulFdAdapter.origin α m ≠ (FdAdapter.config (s.host x).adapter.adapter).destination
  | .connect _ | .write _ _ | .endInputStream _ | .tick _ _ | .read _ _ | .send _ _
  | .receive _ _ _ => True

/-- What is not from the peer is dropped. -/
theorem receive_stray {rand : UInt32} (hs : s.NoSpoof (.stray x m rand)) (heard : Nat) :
    (s.host x).receive m rand heard = s.host x := by
  have hread : (s.host x).adapter.read m rand = .ok (none, (s.host x).adapter) := by
    rcases LossyFdAdapter.read_cases (s.host x).adapter m rand with heq |
      ⟨seg, a', -, -, hlisten', hfrom, hstays⟩
    · exact heq
    · rw [NoSpoof] at hs
      rcases hstays with rfl | ⟨hlisten, hopens⟩
      · rw [hlisten', if_neg Bool.false_ne_true] at hs
        exact absurd hfrom hs
      · rw [if_pos hlisten, hopens] at hs
        cases hs
  unfold DatagramHost.receive
  rw [hread]
  split <;> rfl

/-- Of the service's messages one is dropped, at most to take up the other side; or the
connection is given a segment that the other side has enqueued. -/
theorem receive_cases (ht : s.Traced) (x : Side) (hm : m ∈ s.wire) (rand : UInt32)
    (heard : Nat) :
    ∃ adapter : LossyFdAdapter α,
      (Apart adapter.adapter adapter.adapter ∧
        ∀ c, Apart c (s.host x).adapter.adapter → Apart c adapter.adapter) ∧
      ((s.host x).receive m rand heard = { s.host x with adapter := adapter } ∨
        ∃ pkt ∈ (s.host x.other).endpoint.net, ∃ seg, Alike pkt.seg seg ∧
          (s.host x).taken m rand = some seg ∧
          (s.host x).receive m rand heard =
            DatagramHost.call { s.host x with adapter := adapter } (.segmentReceived seg)
              heard) := by
  have hkeep : Apart (s.host x).adapter.adapter (s.host x).adapter.adapter ∧
      ∀ c, Apart c (s.host x).adapter.adapter → Apart c (s.host x).adapter.adapter :=
    ⟨ht.apart x, fun _ hc => hc⟩
  unfold DatagramHost.receive DatagramHost.taken LossyFdAdapter.returned
  cases hreach : FdAdapter.reaches (s.host x).adapter.adapter m with
  | false => exact ⟨(s.host x).adapter, hkeep, .inl (if_neg Bool.false_ne_true)⟩
  | true =>
    rw [if_pos rfl, if_pos rfl]
    rcases LossyFdAdapter.read_cases (s.host x).adapter m rand with heq | ⟨seg, a', hread, heq, -⟩
    · refine ⟨(s.host x).adapter, hkeep, .inl ?_⟩
      rw [heq]
    · obtain ⟨z, a, seg', hw, hfit, ⟨pkt, hpkt, rfl⟩, hapart⟩ := ht.wire m hm
      rcases side_cases x z with rfl | rfl
      · rw [LawfulFdAdapter.read_own hapart hfit hw hreach] at hread
        cases hread
      · obtain ⟨halike, hself, hmono⟩ := LawfulFdAdapter.read_other hapart hfit hw hreach hread
        refine ⟨{ (s.host x).adapter with adapter := a' }, ⟨hself, hmono⟩, ?_⟩
        rcases heq with heq | heq <;> rw [heq]
        · exact .inl rfl
        · exact .inr ⟨pkt, hpkt, seg, halike, rfl, rfl⟩

theorem Traced.received (ht : s.Traced) (x : Side) (hm : m ∈ s.wire) (rand : UInt32) :
    (s.received x m rand).Traced := by
  unfold DatagramNet.received
  obtain ⟨adapter, ⟨hself, hmono⟩, heq | ⟨pkt, -, seg, -, -, heq⟩⟩ :=
    receive_cases ht x hm rand (s.heard x) <;> rw [heq]
  · exact ht.setHost (ht.hosts x) hself ⟨List.Subset.refl _, hmono⟩ (List.forall_mem_nil _)
  · exact ht.setHost ((ht.hosts x).step _ (s.heard x)) hself ⟨subset_step .., hmono⟩
      (List.forall_mem_nil _)

/-- **The invariant of the service.** -/
theorem Traced.step (ht : s.Traced) (ev : Event μ) (hs : s.NoSpoof ev) : (s.step ev).Traced := by
  cases ev with
  | connect x => exact ht.call x _
  | write x data => exact ht.call x _
  | endInputStream x => exact ht.call x _
  | tick x ms => exact ht.call x _
  | read x n => exact ht.call x _
  | send x rand => exact ht.send x rand
  | receive x k rand =>
    rw [DatagramNet.step]
    split
    · exact ht
    · rename_i m hk
      exact ht.received x (List.mem_of_getElem? hk) rand
  | stray x m rand =>
    rw [DatagramNet.step, DatagramNet.received, receive_stray hs]
    exact ht.setHost (ht.hosts x) (ht.apart x) (follows_refl _) (List.forall_mem_nil _)

/-! ## The refinement -/

/-- Receptions of near segments only. -/
def InReach (s : DatagramNet α μ) : Event μ → Prop
  | .receive x k rand => ∀ m ∈ s.wire[k]?, ∀ seg ∈ (s.host x).taken m rand,
      Near (s.host x).endpoint (s.host x.other).endpoint seg
  | .connect _ | .write _ _ | .endInputStream _ | .tick _ _ | .read _ _ | .send _ _
  | .stray _ _ _ => True

instance (s : DatagramNet α μ) : ∀ ev, Decidable (s.InReach ev)
  | .receive x k rand => inferInstanceAs (Decidable (∀ m ∈ s.wire[k]?,
      ∀ seg ∈ (s.host x).taken m rand, Near _ _ seg))
  | .connect _ | .write _ _ | .endInputStream _ | .tick _ _ | .read _ _ | .send _ _
  | .stray _ _ _ => isTrue trivial

instance (s : DatagramNet α μ) : ∀ ev, Decidable (s.NoSpoof ev)
  | .stray x m _ => inferInstanceAs (Decidable
      (if FdAdapter.listening (s.host x).adapter.adapter then LawfulFdAdapter.opens α m = false
        else LawfulFdAdapter.origin α m ≠
          (FdAdapter.config (s.host x).adapter.adapter).destination))
  | .connect _ | .write _ _ | .endInputStream _ | .tick _ _ | .read _ _ | .send _ _
  | .receive _ _ _ => isTrue trivial

/-- A reception that reaches the connection is a delivery. -/
theorem system_received (ht : s.Traced) (x : Side) (hm : m ∈ s.wire) (rand : UInt32) :
    (s.received x m rand).system = s.system ∨
      ∃ k pkt, (s.host x.other).endpoint.net[k]? = some pkt ∧
        (s.received x m rand).system = s.system.step (.deliver x k) ∧
        ∃ seg, Alike pkt.seg seg ∧ (s.host x).taken m rand = some seg := by
  unfold DatagramNet.received
  obtain ⟨adapter, -, heq | ⟨pkt, hpkt, seg, halike, htaken, heq⟩⟩ :=
    receive_cases ht x hm rand (s.heard x) <;> rw [heq]
  · exact .inl (system_unseen rfl)
  · right
    rw [← system_endpoint] at hpkt
    obtain ⟨k, hk, hstep⟩ := exists_deliver hpkt
    refine ⟨k, pkt, by rw [← system_endpoint]; exact hk, ?_, seg, halike, htaken⟩
    rw [hstep]
    unfold System.act
    rw [system_endpoint, system_endpoint, ← halike.step]
    exact system_setHost ..

theorem simulates_system :
    Lib.Simulates DatagramNet.step System.step system (Traced (α := α)) NoSpoof InReach
      Sponge.InReach where
  inv _ ev ht hs := ht.step ev hs
  sim s ev ht hs := by
    cases ev with
    | connect x => exact .inr ⟨.connect x, system_call s x _, fun _ => trivial⟩
    | write x data => exact .inr ⟨.write x data, system_call s x _, fun _ => trivial⟩
    | endInputStream x => exact .inr ⟨.endInputStream x, system_call s x _, fun _ => trivial⟩
    | tick x ms => exact .inr ⟨.tick x ms, system_call s x _, fun _ => trivial⟩
    | read x n => exact .inr ⟨.read x n, system_call s x _, fun _ => trivial⟩
    | send x rand =>
      left
      rw [DatagramNet.step]
      rcases send_cases (s.host x) rand with heq | ⟨seg, segs, -, out, heq, -⟩ <;> rw [heq] <;>
        exact system_unseen rfl
    | receive x k rand =>
      rw [DatagramNet.step]
      cases hk : s.wire[k]? with
      | none => exact .inl rfl
      | some m =>
        rcases system_received ht x (List.mem_of_getElem? hk) rand with heq |
          ⟨j, pkt, hpkt, heq, seg, halike, htaken⟩
        · exact .inl heq
        · rw [← system_endpoint] at hpkt
          refine .inr ⟨.deliver x j, heq, fun hnear pkt' hpkt' => ?_⟩
          obtain rfl := Option.some.inj (hpkt.symm.trans hpkt')
          rw [system_endpoint, system_endpoint]
          exact (halike.near ..).mp (hnear m hk seg htaken)
    | stray x m rand =>
      left
      rw [DatagramNet.step, DatagramNet.received, receive_stray hs]
      exact system_unseen rfl

/-! ## The start -/

theorem traced_mk {cfgA cfgB : DatagramConfig α} (h0 : mk? cfgA cfgB = some s)
    (ha : Apart cfgA.adapter.adapter cfgA.adapter.adapter)
    (hb : Apart cfgB.adapter.adapter cfgB.adapter.adapter) :
    s.Traced ∧ System.mk? cfgA.tcp cfgB.tcp cfgA.random cfgB.random = some s.system := by
  simp only [mk?, DatagramHost.mk?, Option.bind_eq_bind, Option.bind_eq_some_iff, Option.pure_def,
    Option.some.injEq] at h0
  obtain ⟨a, ⟨conna, hconna, rfl⟩, b, ⟨connb, hconnb, rfl⟩, rfl⟩ := h0
  refine ⟨⟨fun x => ?_, fun x => ?_, List.forall_mem_nil _⟩, ?_⟩
  · cases x
    · exact enqueued_mk hconna
    · exact enqueued_mk hconnb
  · cases x
    · exact ha
    · exact hb
  · unfold System.mk?
    rw [hconna, hconnb]
    rfl

/-- Every run of two hosts over lawful adapters is a run of their connections on the network. -/
theorem refines_network {cfgA cfgB : DatagramConfig α} (h0 : mk? cfgA cfgB = some s)
    (ha : Apart cfgA.adapter.adapter cfgA.adapter.adapter)
    (hb : Apart cfgB.adapter.adapter cfgB.adapter.adapter) (evs : List (Event μ))
    (hs : Along DatagramNet.step NoSpoof s evs) :
    System.mk? cfgA.tcp cfgB.tcp cfgA.random cfgB.random = some s.system ∧
    ∃ evs', evs'.length ≤ evs.length ∧
      run System.step s.system evs' = (run DatagramNet.step s evs).system ∧
      (Along DatagramNet.step InReach s evs → Along System.step Sponge.InReach s.system evs') ∧
      ∀ P, Always System.step P s.system evs' ↔
        Always DatagramNet.step (fun s => P s.system) s evs := by
  obtain ⟨ht, hmk⟩ := traced_mk h0 ha hb
  exact ⟨hmk, simulates_system.run ht evs hs⟩

end

end DatagramNet

/-- **Refinement over UDP.** Whatever the lossy adapters drop and strangers send, as long as these
do not pass for the peer, every run of two hosts over UDP is a run of their connections on the
network: the connections go through the same states, and the deliveries of that run are within
reach if the receptions are. -/
theorem udp_refines_network (cfgA cfgB : DatagramConfig TCPOverUDPSocketAdapter)
    (s : DatagramNet TCPOverUDPSocketAdapter UDPDatagram)
    (evs : List (DatagramNet.Event UDPDatagram)) (h0 : DatagramNet.mk? cfgA cfgB = some s)
    (ha : cfgA.adapter.adapter.cfg.destination ≠ cfgA.adapter.adapter.sock.address)
    (hb : cfgB.adapter.adapter.cfg.destination ≠ cfgB.adapter.adapter.sock.address)
    (hs : Along DatagramNet.step DatagramNet.NoSpoof s evs) :
    System.mk? cfgA.tcp cfgB.tcp cfgA.random cfgB.random = some s.system ∧
    ∃ evs', evs'.length ≤ evs.length ∧
      run System.step s.system evs' = (run DatagramNet.step s evs).system ∧
      (Along DatagramNet.step DatagramNet.InReach s evs →
        Along System.step InReach s.system evs') ∧
      ∀ P, Always System.step P s.system evs' ↔
        Always DatagramNet.step (fun s => P s.system) s evs :=
  DatagramNet.refines_network h0 (show TCPOverUDPSocketAdapter.NoEcho _ _ from ⟨rfl, ha⟩)
    (show TCPOverUDPSocketAdapter.NoEcho _ _ from ⟨rfl, hb⟩) evs hs

/-- A client that loses a quarter of what it sends. -/
def udpClient : DatagramConfig TCPOverUDPSocketAdapter where
  tcp := smallConfig 7
  adapter := {
    adapter := { cfg := { destination := ⟨0x0a000101, 1440⟩ }, sock := ⟨⟨0x0a000001, 5000⟩⟩ }
    lossRateUp := 0x4000 }

def udpServer : DatagramConfig TCPOverUDPSocketAdapter where
  tcp := smallConfig 40
  adapter := {
    adapter := { cfg := { source := ⟨0, 1440⟩ }, listen := true, sock := ⟨⟨0x0a000101, 1440⟩⟩ } }

/-- The client connects at the second attempt, and sends two bytes; datagrams of a stranger come to
both hosts in between. -/
def strayedEvents : List (DatagramNet.Event UDPDatagram) :=
  [.connect .a, .send .a 0x3fff, .tick .a 1000, .send .a 0x4000,
   .stray .b ⟨⟨0x0a000009, 9⟩, ⟨0x0a000101, 1440⟩, [1, 2, 3]⟩ 0, .receive .b 0 0, .send .b 0,
   .stray .a ⟨⟨0x0a000009, 9⟩, ⟨0x0a000001, 5000⟩, [1, 2, 3]⟩ 0, .receive .a 1 0,
   .write .a [97, 98], .send .a 0x4000, .send .a 0x4000, .receive .b 2 0, .receive .b 3 0]

theorem udp_refines_network_strayed : ∃ s, DatagramNet.mk? udpClient udpServer = some s ∧
    (run DatagramNet.step s strayedEvents).b.endpoint.received = [97, 98] ∧
    ∃ evs', run System.step s.system evs' = (run DatagramNet.step s strayedEvents).system := by
  obtain ⟨-, evs', -, hrun, -⟩ := udp_refines_network udpClient udpServer _ strayedEvents rfl
    (by decide) (by decide) (by decide +kernel)
  exact ⟨_, rfl, by decide +kernel, evs', hrun⟩

end Sponge
