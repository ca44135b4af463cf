import Sponge.Internet.Provenance
import Sponge.Lib.Simulation
import Sponge.Network.Enqueued

/-!
# An internet is no more than a lossy network

Every datagram anywhere on the internet carries a segment that one of the two
connections has enqueued (`Traced`), and an adapter takes none of its own host's
for one of its peer (`NoEcho`). So what a host reads is a segment the other one
has enqueued, and a run of the whole stack, ARP, routers and links included, is
for the two connections a run of the network of `System`
(`internet_refines_network`). What holds of all runs of that network holds here,
such as that no byte is lost, altered or out of place (`always_routed_prefix`).
-/

namespace Sponge

open Lib TCPOverIPv4Adapter

namespace Internet

/-! ## What is on its way -/

/-- The datagram carries a segment that a host has enqueued, and that it does not accept
itself. -/
def Sent (s : Internet) (dgram : InternetDatagram) : Prop :=
  ∃ x a seg, Transports a seg dgram ∧ seg.FitsDatagram ∧
    (∃ pkt ∈ (s.host x).endpoint.net, pkt.seg = seg) ∧
      NoEcho a (s.host x).adapter.toTCPOverIPv4Adapter

/-- The host's own part of the invariant. -/
structure Sound (h : Host) : Prop extends Enqueued h.endpoint h.segmentsOut where
  noEcho : NoEcho h.adapter.toTCPOverIPv4Adapter h.adapter.toTCPOverIPv4Adapter

structure Traced (s : Internet) : Prop where
  hosts : ∀ x, Sound (s.host x)
  adapters : ∀ x, (s.host x).adapter.Sourced s.Sent
  routers : ∀ r ∈ s.routers, r.Sourced s.Sent
  wire : ∀ bytes ∈ s.wire, OnLink s.Sent bytes

/-- `h'` may follow `h`: it has enqueued no less, and accepts no more of what it has sent. -/
structure Follows (h h' : Host) : Prop where
  net : h.endpoint.net ⊆ h'.endpoint.net
  noEcho : ∀ a, NoEcho a h.adapter.toTCPOverIPv4Adapter → NoEcho a h'.adapter.toTCPOverIPv4Adapter

section
variable {s : Internet} {x : Side} {h h' : Host} {i : Nat}

theorem travels_sent (s : Internet) : Travels s.Sent := by
  rintro dgram payload ⟨x, a, seg, ht, hfit, hnet, hecho⟩ hp -
  obtain ⟨payload', hp', -, ht'⟩ := ht.serialize hfit
  rw [hp] at hp'
  obtain rfl := Except.ok.inj hp'
  exact ⟨x, a, seg, ht', hfit, hnet, hecho⟩

theorem hops_sent (s : Internet) : Hops s.Sent := by
  rintro dgram ⟨x, a, seg, ht, hfit, hnet, hecho⟩
  obtain ⟨ttl, cksum, heq⟩ := ht.header
  refine ⟨x, a, seg, ⟨⟨ttl - 1, cksum, ?_⟩, ht.payload⟩, hfit, hnet, hecho⟩
  change { dgram.header with ttl := dgram.header.ttl - 1 } = _
  rw [heq]

@[simp] theorem host_setHost (s : Internet) (x : Side) (h : Host) :
    (s.setHost x h).host x = { h with adapter := { h.adapter with tap := [] } } := by
  cases x <;> rfl

@[simp] theorem host_setHost_other (s : Internet) (x : Side) (h : Host) :
    (s.setHost x h).host x.other = s.host x.other := by cases x <;> rfl

theorem wire_setHost (s : Internet) (x : Side) (h : Host) :
    (s.setHost x h).wire = s.wire ++ h.adapter.tap ∧ (s.setHost x h).routers = s.routers := by
  cases x <;> exact ⟨rfl, rfl⟩

theorem Sent.setHost (hf : Follows (s.host x) h) {dgram : InternetDatagram} (hd : s.Sent dgram) :
    (s.setHost x h).Sent dgram := by
  obtain ⟨z, a, seg, ht, hfit, ⟨pkt, hpkt, hseg⟩, hecho⟩ := hd
  refine ⟨z, a, seg, ht, hfit, ?_⟩
  rcases side_cases x z with rfl | rfl
  · rw [host_setHost]
    exact ⟨⟨pkt, hf.net hpkt, hseg⟩, hf.noEcho a hecho⟩
  · rw [host_setHost_other]
    exact ⟨⟨pkt, hpkt, hseg⟩, hecho⟩

theorem Traced.setHost (ht : s.Traced) (hh : Sound h) (ha : h.adapter.Sourced s.Sent)
    (hf : Follows (s.host x) h) : (s.setHost x h).Traced := by
  have hmono : ∀ dgram, s.Sent dgram → (s.setHost x h).Sent dgram := fun _ hd => hd.setHost hf
  obtain ⟨hwire, hrouters⟩ := wire_setHost s x h
  refine ⟨fun z => ?_, fun z => ?_, ?_, ?_⟩
  · rcases side_cases x z with rfl | rfl
    · rw [host_setHost]
      exact ⟨⟨hh.queue, hh.emits, hh.net⟩, hh.noEcho⟩
    · rw [host_setHost_other]
      exact ht.hosts x.other
  · rcases side_cases x z with rfl | rfl
    · rw [host_setHost]
      exact ⟨ha.interface.mono hmono, List.forall_mem_nil _⟩
    · rw [host_setHost_other]
      have ho := ht.adapters x.other
      exact ⟨ho.interface.mono hmono, fun bytes hb => (ho.tap bytes hb).mono hmono⟩
  · rw [hrouters]
    exact fun r hr => (ht.routers r hr).mono hmono
  · rw [hwire]
    intro bytes hb
    rcases List.mem_append.mp hb with hb | hb
    · exact (ht.wire bytes hb).mono hmono
    · exact (ha.tap bytes hb).mono hmono

theorem Traced.setRouter (ht : s.Traced) {r : Router} (hr : r.Sourced s.Sent) :
    (s.setRouter i r).Traced := by
  refine ⟨ht.hosts, ht.adapters, fun r' hm => ?_, fun bytes hb => ?_⟩
  · rcases List.mem_or_eq_of_mem_set hm with hm | rfl
    · exact ht.routers r' hm
    · exact hr.clearFrames
  · rcases List.mem_append.mp hb with hb | hb
    · exact ht.wire bytes hb
    · exact hr.onLink bytes hb

/-! ## The hosts keep it -/

theorem call_sound (hh : Sound h) (op : TCPConnection.Op) (heard : Nat) :
    Sound (h.call op heard) ∧ Follows h (h.call op heard) :=
  ⟨⟨hh.step op heard, hh.noEcho⟩, ⟨subset_step .., fun _ hecho => hecho⟩⟩

/-- What is left is of the queue, and the connection of the adapter stays. -/
theorem flushLoop_sourced {P : InternetDatagram → Prop} {base : TCPOverIPv4Adapter}
    (segs : List TCPSegment) : ∀ {a : TCPOverIPv4OverEthernetAdapter}, a.Sourced P →
    a.toTCPOverIPv4Adapter = base → (∀ seg ∈ segs, seg.FitsDatagram ∧ P (base.sent seg)) →
    (Host.flushLoop segs a).2.1 ⊆ segs ∧ (Host.flushLoop segs a).2.2.Sourced P ∧
      (Host.flushLoop segs a).2.2.toTCPOverIPv4Adapter = base := by
  induction segs with
  | nil => exact fun ha hbase _ => ⟨List.Subset.refl _, ha, hbase⟩
  | cons seg segs ih =>
    intro a ha hbase hP
    obtain ⟨⟨hfit, hseg⟩, hsegs⟩ := List.forall_mem_cons.mp hP
    have hsrc := ha.write hfit.words (hbase ▸ hseg)
    have hkeep := (TCPOverIPv4OverEthernetAdapter.write_base a seg).trans hbase
    rw [Host.flushLoop]
    split <;> rename_i heq <;> rw [heq] at hsrc hkeep
    · obtain ⟨hsub, hrest⟩ := ih hsrc hkeep hsegs
      exact ⟨List.subset_cons_of_subset _ hsub, hrest⟩
    · exact ⟨List.Subset.refl _, hsrc, hkeep⟩

/-- What a host has enqueued can be sent. -/
theorem Traced.sent (ht : s.Traced) {seg : TCPSegment} (hm : seg ∈ (s.host x).segmentsOut) :
    seg.FitsDatagram ∧ s.Sent ((s.host x).adapter.toTCPOverIPv4Adapter.sent seg) := by
  have hh := ht.hosts x
  have hfit := hh.fits hm
  exact ⟨hfit, x, _, seg, transports_sent _ seg, hfit, hh.queue seg hm, hh.noEcho⟩

theorem Traced.flush (ht : s.Traced) (x : Side) : (s.setHost x (s.host x).flush.2).Traced := by
  have hh := ht.hosts x
  obtain ⟨hsub, ha, hbase⟩ := flushLoop_sourced (s.host x).segmentsOut (ht.adapters x) rfl
    fun _ hm => ht.sent hm
  have hb : (s.host x).flush.2.adapter.toTCPOverIPv4Adapter =
      (s.host x).adapter.toTCPOverIPv4Adapter := hbase
  refine ht.setHost ⟨hh.subset hsub, ?_⟩ ha
    ⟨List.Subset.refl _, fun a hecho => ?_⟩
  · rw [hb]
    exact hh.noEcho
  · rw [hb]
    exact hecho

theorem Traced.age (ht : s.Traced) (x : Side) (ms : Nat) :
    (s.setHost x ((s.host x).age ms).2).Traced := by
  have hh := ht.hosts x
  have hb : ((s.host x).age ms).2.adapter.toTCPOverIPv4Adapter =
      (s.host x).adapter.toTCPOverIPv4Adapter := TCPOverIPv4OverEthernetAdapter.tick_base _ ms
  refine ht.setHost ⟨hh.toEnqueued, ?_⟩ ((ht.adapters x).tick ms)
    ⟨List.Subset.refl _, fun a hecho => ?_⟩
  · rw [hb]
    exact hh.noEcho
  · rw [hb]
    exact hecho

/-- A read that returns no segment keeps the connection of the adapter; a segment that is read
is one the other side has enqueued. -/
theorem read_cases (s : Internet) (x : Side) {bytes : List UInt8} (hb : OnLink s.Sent bytes) :
    ((∀ seg, ((s.host x).adapter.read bytes).1 ≠ .ok (some seg)) ∧
      ((s.host x).adapter.read bytes).2.toTCPOverIPv4Adapter =
        (s.host x).adapter.toTCPOverIPv4Adapter) ∨
    ∃ a pkt, pkt ∈ (s.host x.other).endpoint.net ∧
      ((s.host x).adapter.read bytes).1 = .ok (some (a.arrived pkt.seg)) ∧
      ((s.host x).adapter.read bytes).2.toTCPOverIPv4Adapter = a.peer ∧
      Expects a (s.host x).adapter.toTCPOverIPv4Adapter pkt.seg ∧
      NoEcho a (s.host x.other).adapter.toTCPOverIPv4Adapter := by
  rcases TCPOverIPv4OverEthernetAdapter.read_cases (travels_sent s) hb with hnone |
    ⟨seg', dgram, buffer, hread, ⟨z, a, seg, htr, hfit, ⟨pkt, hpkt, rfl⟩, hecho⟩, hbuffer, hun⟩
  · exact .inl hnone
  · obtain ⟨rfl, hexp, hpeer⟩ := htr.accepted hfit hbuffer hun
    rcases side_cases x z with rfl | rfl
    · exact absurd hexp hecho.not_expects
    · exact .inr ⟨a, pkt, hpkt, hread, hpeer, hexp, hecho⟩

theorem receive_none {bytes : List UInt8} (h : Host) (heard : Nat)
    (hnone : ∀ seg, (h.adapter.read bytes).1 ≠ .ok (some seg)) :
    (h.receive bytes heard).2 = { h with adapter := (h.adapter.read bytes).2 } := by
  unfold Host.receive
  split <;> rename_i heq
  · rw [heq]
  · rw [heq]
  · exact absurd (congrArg Prod.fst heq) (hnone _)

theorem receive_some {bytes : List UInt8} {seg : TCPSegment} (h : Host) (heard : Nat)
    (hread : (h.adapter.read bytes).1 = .ok (some seg)) :
    h.receive bytes heard = (.ok (),
      Host.call { h with adapter := (h.adapter.read bytes).2 } (.segmentReceived seg) heard) := by
  unfold Host.receive
  split <;> rename_i heq <;> rw [heq] at hread
  · cases hread
  · cases hread
  · obtain rfl := Option.some.inj (Except.ok.inj hread)
    rw [heq]

theorem Traced.receive (ht : s.Traced) (x : Side) {bytes : List UInt8}
    (hb : OnLink s.Sent bytes) (heard : Nat) :
    (s.setHost x ((s.host x).receive bytes heard).2).Traced := by
  have hh := ht.hosts x
  have ha := (ht.adapters x).read bytes
  rcases read_cases s x hb with ⟨hnone, hbase⟩ | ⟨a, pkt, hpkt, hread, hpeer, hexp, hecho⟩
  · rw [receive_none _ heard hnone]
    refine ht.setHost ⟨hh.toEnqueued, ?_⟩ ha ⟨List.Subset.refl _, fun a hecho => ?_⟩
    · rw [hbase]
      exact hh.noEcho
    · rw [hbase]
      exact hecho
  · rw [receive_some _ heard hread]
    obtain ⟨hsound, hfollows⟩ := call_sound (h := { (s.host x) with
      adapter := ((s.host x).adapter.read bytes).2 })
      ⟨hh.toEnqueued, by rw [hpeer]; exact hecho.peer⟩
      (.segmentReceived (a.arrived pkt.seg)) heard
    refine ht.setHost hsound ha ⟨hfollows.net, fun b hb => hfollows.noEcho b ?_⟩
    rw [hpeer]
    exact hb.connect hexp

theorem Traced.hostAfter (ht : s.Traced) {result : Except Fault Unit × Host}
    (h : (s.setHost x result.2).Traced) : (s.hostAfter x result).Traced := by
  unfold Internet.hostAfter
  split
  · exact ht
  · exact h
  · exact h

theorem Traced.routerAfter (ht : s.Traced) {result : Outcome × Router}
    (h : result.2.Sourced s.Sent) : (s.routerAfter i result).Traced := by
  unfold Internet.routerAfter
  split
  · exact ht
  · exact ht.setRouter h
  · exact ht.setRouter h

theorem Traced.call (ht : s.Traced) (x : Side) (op : TCPConnection.Op) :
    (s.call x op).Traced := by
  obtain ⟨hsound, hfollows⟩ := call_sound (ht.hosts x) op (s.heard x)
  exact ht.setHost hsound (ht.adapters x) hfollows

/-- **The invariant of the internet.** -/
theorem Traced.step (ht : s.Traced) (ev : Event) : (s.step ev).Traced := by
  cases ev with
  | connect x => exact ht.call x _
  | write x data => exact ht.call x _
  | endInputStream x => exact ht.call x _
  | tick x ms => exact ht.call x _
  | read x n => exact ht.call x _
  | flush x => exact ht.hostAfter (ht.flush x)
  | age x ms => exact ht.hostAfter (ht.age x ms)
  | receive x k =>
    rw [Internet.step]
    split
    · exact ht
    · rename_i bytes hk
      exact ht.hostAfter (ht.receive x (ht.wire bytes (List.mem_of_getElem? hk)) _)
  | arrive i n k =>
    rw [Internet.step]
    split
    · rename_i r bytes hi hk
      have hr := ht.routers r (List.mem_of_getElem? hi)
      exact ht.routerAfter
        (hr.recvFrame (travels_sent s) (ht.wire bytes (List.mem_of_getElem? hk)) n)
    · exact ht
  | route i =>
    rw [Internet.step]
    split
    · exact ht
    · rename_i r hi
      exact ht.routerAfter ((ht.routers r (List.mem_of_getElem? hi)).route (hops_sent s))
  | ageRouter i n ms =>
    rw [Internet.step]
    split
    · exact ht
    · rename_i r hi
      exact ht.routerAfter ((ht.routers r (List.mem_of_getElem? hi)).tick n ms)

/-! ## The refinement -/

/-- Receptions of near segments only. -/
def InReach (s : Internet) : Event → Prop
  | .receive x k => ∀ bytes ∈ s.wire[k]?, ∀ seg ∈ ((s.host x).adapter.read bytes).1.toOption.join,
      Near (s.host x).endpoint (s.host x.other).endpoint seg
  | .connect _ | .write _ _ | .endInputStream _ | .tick _ _ | .read _ _ | .flush _ | .age _ _
  | .arrive _ _ _ | .route _ | .ageRouter _ _ _ => True

instance (s : Internet) : ∀ ev, Decidable (s.InReach ev)
  | .receive x k => inferInstanceAs (Decidable (∀ bytes ∈ s.wire[k]?,
      ∀ seg ∈ ((s.host x).adapter.read bytes).1.toOption.join, Near _ _ seg))
  | .connect _ | .write _ _ | .endInputStream _ | .tick _ _ | .read _ _ | .flush _ | .age _ _
  | .arrive _ _ _ | .route _ | .ageRouter _ _ _ => isTrue trivial

/-- No write after `endInputStream`. -/
def NoLateWrite (s : Internet) : Event → Prop
  | .write x _ => (s.host x).endpoint.conn.sender.stream.inputEnded = false
  | .connect _ | .endInputStream _ | .tick _ _ | .read _ _ | .flush _ | .age _ _ | .receive _ _
  | .arrive _ _ _ | .route _ | .ageRouter _ _ _ => True

/-- No segment that `x` looks at completes an early FIN. -/
def NoEarlyFin (x : Side) (s : Internet) : Event → Prop
  | .receive z k => z = x → ∀ bytes ∈ s.wire[k]?,
      ∀ seg ∈ ((s.host x).adapter.read bytes).1.toOption.join,
        (s.host x).endpoint.conn.Accepts seg →
          ¬ EarlyFin (s.host x.other).endpoint.outgoing (s.host x).endpoint.conn.receiver seg
  | .connect _ | .write _ _ | .endInputStream _ | .tick _ _ | .read _ _ | .flush _ | .age _ _
  | .arrive _ _ _ | .route _ | .ageRouter _ _ _ => True

instance (x : Side) (s : Internet) : ∀ ev, Decidable (NoEarlyFin x s ev)
  | .receive z k => inferInstanceAs (Decidable (z = x → ∀ bytes ∈ s.wire[k]?,
      ∀ seg ∈ ((s.host x).adapter.read bytes).1.toOption.join, _))
  | .connect _ | .write _ _ | .endInputStream _ | .tick _ _ | .read _ _ | .flush _ | .age _ _
  | .arrive _ _ _ | .route _ | .ageRouter _ _ _ => isTrue trivial

@[simp] theorem system_endpoint (s : Internet) (x : Side) :
    s.system.endpoint x = (s.host x).endpoint := by cases x <;> rfl

theorem system_setHost (s : Internet) (x : Side) (h : Host) :
    (s.setHost x h).system = s.system.set x h.endpoint := by cases x <;> rfl

/-- A host whose endpoint stays is not seen. -/
theorem system_hostAfter {result : Except Fault Unit × Host}
    (h : result.2.endpoint = (s.host x).endpoint) : (s.hostAfter x result).system = s.system := by
  have hset : (s.setHost x result.2).system = s.system := by
    rw [system_setHost, h, ← system_endpoint, set_endpoint]
  unfold Internet.hostAfter
  split
  · rfl
  · exact hset
  · exact hset

theorem system_routerAfter (s : Internet) (i : Nat) (result : Outcome × Router) :
    (s.routerAfter i result).system = s.system := by
  unfold Internet.routerAfter
  split <;> rfl

theorem system_call (s : Internet) (x : Side) (op : TCPConnection.Op) :
    (s.call x op).system = s.system.act x op := by
  unfold Internet.call System.act
  rw [system_setHost, system_endpoint, system_endpoint]
  rfl

/-- A reception that reaches the connection is a delivery. -/
theorem system_receive (s : Internet) (x : Side) {bytes : List UInt8}
    (hb : OnLink s.Sent bytes) :
    let s' := s.hostAfter x ((s.host x).receive bytes (s.heard x))
    s'.system = s.system ∨ ∃ k, ∃ a : TCPOverIPv4Adapter, ∃ pkt,
      (s.host x.other).endpoint.net[k]? = some pkt ∧
      ((s.host x).adapter.read bytes).1 = .ok (some (a.arrived pkt.seg)) ∧
      s'.system = s.system.step (.deliver x k) := by
  rcases read_cases s x hb with ⟨hnone, -⟩ | ⟨a, pkt, hpkt, hread, -⟩
  · left
    apply system_hostAfter
    rw [receive_none _ _ hnone]
  · right
    rw [← system_endpoint] at hpkt
    obtain ⟨k, hk, hstep⟩ := exists_deliver hpkt
    refine ⟨k, a, pkt, by rw [← system_endpoint]; exact hk, hread, ?_⟩
    rw [receive_some _ _ hread, hstep]
    unfold System.act
    rw [system_endpoint, system_endpoint, ← (a.alike_arrived pkt.seg).step]
    exact system_setHost ..

/-- An event is one of the network of the two connections, which is near, in time and no early FIN
if it is, or the connections do not see it. -/
theorem Traced.sim (ht : s.Traced) (ev : Event) : (s.step ev).system = s.system ∨
    ∃ ev', (s.step ev).system = s.system.step ev' ∧
      (s.InReach ev → Sponge.InReach s.system ev') ∧
      (s.NoLateWrite ev → Sponge.NoLateWrite s.system ev') ∧
      ∀ x, NoEarlyFin x s ev → Sponge.NoEarlyFin x s.system ev' := by
  cases ev with
  | connect x =>
    exact .inr ⟨.connect x, system_call s x _, fun _ => trivial, fun _ => trivial,
      fun _ _ => trivial⟩
  | write x data =>
    refine .inr ⟨.write x data, system_call s x _, fun _ => trivial, fun hw => ?_,
      fun _ _ => trivial⟩
    change (s.system.endpoint x).conn.sender.stream.inputEnded = false
    rw [system_endpoint]
    exact hw
  | endInputStream x =>
    exact .inr ⟨.endInputStream x, system_call s x _, fun _ => trivial, fun _ => trivial,
      fun _ _ => trivial⟩
  | tick x ms =>
    exact .inr ⟨.tick x ms, system_call s x _, fun _ => trivial, fun _ => trivial,
      fun _ _ => trivial⟩
  | read x n =>
    exact .inr ⟨.read x n, system_call s x _, fun _ => trivial, fun _ => trivial,
      fun _ _ => trivial⟩
  | flush x => exact .inl (system_hostAfter rfl)
  | age x ms => exact .inl (system_hostAfter rfl)
  | receive x k =>
    rw [Internet.step]
    cases hk : s.wire[k]? with
    | none => exact .inl rfl
    | some bytes =>
      rcases system_receive s x (ht.wire bytes (List.mem_of_getElem? hk)) with heq |
        ⟨j, a, pkt, hpkt, hread, heq⟩
      · exact .inl heq
      · have hmem : a.arrived pkt.seg ∈ ((s.host x).adapter.read bytes).1.toOption.join := by
          rw [hread]
          rfl
        rw [← system_endpoint] at hpkt
        refine .inr ⟨.deliver x j, heq, fun hnear pkt' hpkt' => ?_, fun _ => trivial, ?_⟩
        · obtain rfl := Option.some.inj (hpkt.symm.trans hpkt')
          rw [system_endpoint, system_endpoint]
          exact ((a.alike_arrived pkt.seg).near ..).mp (hnear bytes hk _ hmem)
        · rintro z hfin rfl pkt' hpkt'
          obtain rfl := Option.some.inj (hpkt.symm.trans hpkt')
          rw [system_endpoint, system_endpoint]
          exact ((a.alike_arrived pkt.seg).earlyFin ..).mp (hfin rfl bytes hk _ hmem)
  | arrive i n k =>
    rw [Internet.step]
    split
    · exact .inl (system_routerAfter ..)
    · exact .inl rfl
  | route i =>
    rw [Internet.step]
    split
    · exact .inl rfl
    · exact .inl (system_routerAfter ..)
  | ageRouter i n ms =>
    rw [Internet.step]
    split
    · exact .inl rfl
    · exact .inl (system_routerAfter ..)

theorem simulates_system :
    Lib.Simulates Internet.step System.step system Traced (fun _ _ => True) InReach
      Sponge.InReach where
  inv _ ev ht _ := ht.step ev
  sim _ ev ht _ := (ht.sim ev).imp_right fun ⟨ev', heq, hreach, _⟩ => ⟨ev', heq, hreach⟩

/-! ## The start -/

theorem idle_sourced {P : InternetDatagram → Prop} {r : Router} (h : r.Idle) : r.Sourced P := by
  intro iface hi
  obtain ⟨hqueue, hframes, hstage⟩ := h iface hi
  refine ⟨⟨?_, ?_⟩, ?_⟩
  · rw [hstage]
    exact List.forall_mem_nil _
  · rw [hframes]
    exact List.forall_mem_nil _
  · rw [hqueue]
    exact List.forall_mem_nil _

theorem sound_mk {cfg : HostConfig} (hm : Host.mk? cfg = some h)
    (hecho : NoEcho cfg.adapter cfg.adapter) :
    Sound h ∧ (∀ P, h.adapter.Sourced P) ∧
      TCPConnection.mk? cfg.tcp cfg.random = some h.endpoint.conn ∧
      h.endpoint = { conn := h.endpoint.conn } := by
  simp only [Host.mk?, Option.bind_eq_bind, Option.bind_eq_some_iff, Option.pure_def,
    Option.some.injEq] at hm
  obtain ⟨conn, hconn, rfl⟩ := hm
  refine ⟨⟨enqueued_mk hconn, hecho⟩,
    fun P => ?_, hconn, rfl⟩
  have hs := TCPOverIPv4OverEthernetAdapter.sourced_new (P := P) cfg.ethAddress cfg.ipAddress
    cfg.nextHop
  exact ⟨hs.interface, hs.tap⟩

theorem traced_mk {cfgA cfgB : HostConfig} {routers : List Router}
    (h0 : mk? cfgA cfgB routers = some s) (ha : NoEcho cfgA.adapter cfgA.adapter)
    (hb : NoEcho cfgB.adapter cfgB.adapter) (hidle : ∀ r ∈ routers, r.Idle) :
    s.Traced ∧ System.mk? cfgA.tcp cfgB.tcp cfgA.random cfgB.random = some s.system := by
  simp only [mk?, Option.bind_eq_bind, Option.bind_eq_some_iff, Option.pure_def,
    Option.some.injEq] at h0
  obtain ⟨a, hma, b, hmb, rfl⟩ := h0
  obtain ⟨hsa, hia, hconna, hea⟩ := sound_mk hma ha
  obtain ⟨hsb, hib, hconnb, heb⟩ := sound_mk hmb hb
  constructor
  · have h0 : Traced { a := a, b := b, routers := routers } := by
      refine ⟨fun x => ?_, fun x => ?_, fun r hr => idle_sourced (hidle r hr),
        List.forall_mem_nil _⟩
      · cases x
        · exact hsa
        · exact hsb
      · cases x
        · exact hia _
        · exact hib _
    have h1 := h0.setHost (x := .a) hsa (hia _) ⟨List.Subset.refl _, fun _ hecho => hecho⟩
    exact h1.setHost (x := .b) hsb (hib _) ⟨List.Subset.refl _, fun _ hecho => hecho⟩
  · unfold System.mk?
    rw [hconna, hconnb]
    change some _ = some { a := a.endpoint, b := b.endpoint : System }
    rw [hea, heb]

end

end Internet

/-- **Refinement.** Every run of two hosts on an internet is a run of their connections on the
network: the connections go through the same states, and the deliveries of that run are within
reach if the receptions are. -/
theorem internet_refines_network (cfgA cfgB : HostConfig) (routers : List Router) (s : Internet)
    (evs : List Internet.Event) (h0 : Internet.mk? cfgA cfgB routers = some s)
    (ha : NoEcho cfgA.adapter cfgA.adapter) (hb : NoEcho cfgB.adapter cfgB.adapter)
    (hidle : ∀ r ∈ routers, r.Idle) :
    System.mk? cfgA.tcp cfgB.tcp cfgA.random cfgB.random = some s.system ∧
    ∃ evs', evs'.length ≤ evs.length ∧
      run System.step s.system evs' = (run Internet.step s evs).system ∧
      (Along Internet.step Internet.InReach s evs → Along System.step InReach s.system evs') ∧
      ∀ P, Always System.step P s.system evs' ↔
        Always Internet.step (fun s => P s.system) s evs := by
  obtain ⟨ht, hmk⟩ := Internet.traced_mk h0 ha hb hidle
  exact ⟨hmk, Internet.simulates_system.run ht evs (along_of_forall fun _ _ => trivial)⟩

/-- **Prefix safety over any internet.** In every state of every run the bytes ever written into
an inbound stream are a prefix of the bytes the other application wrote. -/
theorem always_routed_prefix (cfgA cfgB : HostConfig) (routers : List Router) (s : Internet)
    (evs : List Internet.Event) (h0 : Internet.mk? cfgA cfgB routers = some s)
    (ha : NoEcho cfgA.adapter cfgA.adapter) (hb : NoEcho cfgB.adapter cfgB.adapter)
    (hidle : ∀ r ∈ routers, r.Idle) (hr : Along Internet.step Internet.InReach s evs)
    (hs : Always Internet.step (fun s => Short s.system) s evs) :
    Always Internet.step
      (fun s => ∀ x, (s.host x).endpoint.received <+: (s.host x.other).endpoint.wrote) s evs := by
  obtain ⟨ht, hmk⟩ := Internet.traced_mk h0 ha hb hidle
  obtain ⟨evs', -, -, hguard, halways⟩ := Internet.simulates_system.run ht evs
    (along_of_forall fun _ _ => trivial)
  have hlinked := ((hguard hr).and ((halways Short).mpr hs).along).always (linked_mk hmk)
    fun t ev h hg => h.step hg.2.1 hg.1
  refine ((halways _).mp hlinked).mono fun s h x => ?_
  rw [← Internet.system_endpoint, ← Internet.system_endpoint]
  exact (h.hears x).stream.trans (h.speaks x.other).outgoing_le

/-- The client of the example, behind the gateway 10.0.0.254. -/
def clientHost : HostConfig where
  tcp := smallConfig 7
  ethAddress := ⟨[2, 0, 0, 0, 0, 10], rfl⟩
  ipAddress := ⟨0x0a000001⟩
  nextHop := ⟨0x0a0000fe⟩
  adapter := { cfg := { source := ⟨0x0a000001, 1000⟩, destination := ⟨0x0a000101, 80⟩ } }

/-- The server, which listens behind the gateway 10.0.1.254. -/
def serverHost : HostConfig where
  tcp := smallConfig 40
  ethAddress := ⟨[2, 0, 0, 0, 1, 1], rfl⟩
  ipAddress := ⟨0x0a000101⟩
  nextHop := ⟨0x0a0001fe⟩
  adapter := { cfg := { source := ⟨0, 80⟩ }, listen := true }

/-- The router between them. -/
def gateway : Router where
  interfaces := [
    { interface := { ethernetAddress := ⟨[2, 0, 0, 0, 0, 254], rfl⟩, ipAddress := ⟨0x0a0000fe⟩ } },
    { interface := { ethernetAddress := ⟨[2, 0, 0, 0, 1, 254], rfl⟩, ipAddress := ⟨0x0a0001fe⟩ } }]
  routes := [⟨0x0a000000, 24, none, 0⟩, ⟨0x0a000100, 24, none, 1⟩]

/-- The client connects: two address resolutions, the SYN over the router and the answer; then
two bytes. -/
def routedEvents : List Internet.Event :=
  [.connect .a, .flush .a, .arrive 0 0 2, .receive .a 3, .arrive 0 0 4, .route 0, .receive .b 5,
   .arrive 0 1 6, .receive .b 7, .flush .b, .arrive 0 1 8, .route 0, .receive .a 9,
   .write .a [97, 98], .flush .a, .arrive 0 0 10, .arrive 0 0 11, .route 0, .receive .b 12,
   .receive .b 13]

theorem refines_network_routed : ∃ s, Internet.mk? clientHost serverHost [gateway] = some s ∧
    ∃ evs', run System.step s.system evs' = (run Internet.step s routedEvents).system := by
  obtain ⟨-, evs', -, hrun, -⟩ := internet_refines_network clientHost serverHost [gateway] _
    routedEvents rfl (by decide) (by decide) (by decide)
  exact ⟨_, rfl, evs', hrun⟩

theorem routed_prefix_routed : ∃ s, Internet.mk? clientHost serverHost [gateway] = some s ∧
    (run Internet.step s routedEvents).b.endpoint.received = [97, 98] ∧
    Always Internet.step
      (fun s => ∀ x, (s.host x).endpoint.received <+: (s.host x.other).endpoint.wrote) s
      routedEvents :=
  ⟨_, rfl, by decide +kernel, always_routed_prefix clientHost serverHost [gateway] _ routedEvents
    rfl (by decide) (by decide) (by decide) (by decide +kernel) (by decide +kernel)⟩

end Sponge
