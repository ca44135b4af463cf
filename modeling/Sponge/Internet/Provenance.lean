import Sponge.Interface.Provenance
import Sponge.Internet.Model
import Sponge.Wire.Passage

/-!
# Adapters and routers make nothing up

With `P` a property of datagrams that the way over a link keeps (`Travels`) and
that a hop keeps (`Hops`): an adapter that is given segments whose datagrams have
`P`, and frames that convey it, writes such frames only, and reads a segment from
a datagram with `P` (`read_cases`). A router hands on what it has received.
-/

namespace Sponge

/-- The bytes are those of a frame that conveys `P`. -/
def OnLink (P : InternetDatagram → Prop) (bytes : List UInt8) : Prop :=
  ∃ frame : EthernetFrame, bytes = frame.bytes ∧ Conveys P frame

/-- A datagram that has gone through a router still has `P`. -/
def Hops (P : InternetDatagram → Prop) : Prop := ∀ dgram, P dgram → P (Router.lowerTtl dgram)

theorem OnLink.mono {P Q : InternetDatagram → Prop} {bytes : List UInt8} (h : OnLink P bytes)
    (hPQ : ∀ dgram, P dgram → Q dgram) : OnLink Q bytes := by
  obtain ⟨frame, hbytes, hf⟩ := h
  exact ⟨frame, hbytes, hf.mono hPQ⟩

/-- What an interface has pushed can go on a link. -/
theorem NetworkInterface.Sourced.onLink {P : InternetDatagram → Prop} {s : NetworkInterface}
    (h : s.Sourced P) : ∀ bytes ∈ s.framesOut.map EthernetFrame.bytes, OnLink P bytes := by
  intro bytes hm
  obtain ⟨frame, hf, rfl⟩ := List.mem_map.mp hm
  exact ⟨frame, rfl, h.frames frame hf⟩

theorem NetworkInterface.Sourced.clear {P : InternetDatagram → Prop} {s : NetworkInterface}
    (h : s.Sourced P) : Sourced P { s with framesOut := [] } :=
  ⟨h.staged, List.forall_mem_nil _⟩

/-! ## The adapter -/

/-- A datagram from which nothing is accepted leaves the adapter as it was. -/
theorem TCPOverIPv4Adapter.unwrapTcpInIp_none {a a' : TCPOverIPv4Adapter}
    {dgram : InternetDatagram} {buffer : List UInt8} (hbuffer : dgram.payload = [buffer])
    (h : a.unwrapTcpInIp dgram = .ok (none, a')) : a' = a := by
  have hdgram : dgram = { header := dgram.header, payload := [buffer] } := by rw [← hbuffer]
  rw [hdgram] at h
  rcases unwrapTcpInIp_cases a dgram.header buffer with heq | ⟨seg, -, heq⟩
  · rw [heq] at h
    exact (Prod.mk.inj (Except.ok.inj h)).2.symm
  · rw [heq] at h
    rcases related_cases a dgram.header seg with hr | ⟨hr, -⟩ | ⟨hr, -⟩ <;> rw [hr] at h
    · exact (Prod.mk.inj (Except.ok.inj h)).2.symm
    · cases h
    · cases h

namespace TCPOverIPv4OverEthernetAdapter

structure Sourced (P : InternetDatagram → Prop) (a : TCPOverIPv4OverEthernetAdapter) : Prop where
  interface : a.interface.Sourced P
  tap : ∀ bytes ∈ a.tap, OnLink P bytes

section
variable {P : InternetDatagram → Prop} {a : TCPOverIPv4OverEthernetAdapter} {seg : TCPSegment}
  {bytes : List UInt8}

theorem sourced_new (ethAddress : EthernetAddress) (ipAddress nextHop : Address) :
    Sourced P (new ethAddress ipAddress nextHop) where
  interface := ⟨List.forall_mem_nil _, List.forall_mem_nil _⟩
  tap bytes hm := by
    rw [List.mem_singleton.mp hm]
    exact ⟨{}, rfl, fun htype => absurd htype (by decide)⟩

theorem Sourced.sendPending (h : a.Sourced P) : a.sendPending.Sourced P where
  interface := h.interface.clear
  tap bytes hm := by
    rcases List.mem_append.mp hm with hm | hm
    · exact h.tap bytes hm
    · exact h.interface.onLink bytes hm

theorem Sourced.setInterface (h : a.Sourced P) {s : NetworkInterface} (hs : s.Sourced P) :
    Sourced P { a with interface := s } := ⟨hs, h.tap⟩

theorem Sourced.write (h : a.Sourced P) (hoff : 5 ≤ seg.header.doff.toNat)
    (hseg : P (a.sent seg)) : (a.write seg).2.Sourced P := by
  have hs := h.setInterface (h.interface.sendDatagram hseg a.nextHop)
  unfold TCPOverIPv4OverEthernetAdapter.write
  rw [TCPOverIPv4Adapter.wrapTcpInIp_eq hoff]
  simp only
  split
  · exact hs
  · exact hs.sendPending

theorem write_base (a : TCPOverIPv4OverEthernetAdapter) (seg : TCPSegment) :
    (a.write seg).2.toTCPOverIPv4Adapter = a.toTCPOverIPv4Adapter := by
  unfold TCPOverIPv4OverEthernetAdapter.write
  simp only
  split
  · rfl
  · split <;> rfl

theorem Sourced.tick (h : a.Sourced P) (ms : Nat) : (a.tick ms).2.Sourced P := by
  have hs := h.setInterface (h.interface.tick ms)
  unfold TCPOverIPv4OverEthernetAdapter.tick
  simp only
  split
  · exact hs
  · exact hs.sendPending

theorem tick_base (a : TCPOverIPv4OverEthernetAdapter) (ms : Nat) :
    (a.tick ms).2.toTCPOverIPv4Adapter = a.toTCPOverIPv4Adapter := by
  unfold TCPOverIPv4OverEthernetAdapter.tick
  simp only
  split <;> rfl

theorem Sourced.read (h : a.Sourced P) (bytes : List UInt8) : (a.read bytes).2.Sourced P := by
  have hs := h.setInterface (h.interface.recvFrame (EthernetFrame.parse {} bytes).2)
  unfold TCPOverIPv4OverEthernetAdapter.read
  simp only
  split
  · exact h
  · split
    · exact hs
    · exact hs.sendPending
    · split
      · exact hs.sendPending
      · exact ⟨hs.sendPending.interface, hs.sendPending.tap⟩

theorem result_ok {outcome : Outcome} {dgram : Option InternetDatagram}
    (h : outcome.result = .ok dgram) : outcome = .returned dgram := by
  cases outcome with
  | returned _ => rw [Except.ok.inj h]
  | threw _ | erasedAccess => cases h

/-- Nothing is read and the connection stays; or a segment is read from a datagram with `P`. -/
theorem read_cases (hP : Travels P) (hb : OnLink P bytes) :
    ((∀ seg, (a.read bytes).1 ≠ .ok (some seg)) ∧
      (a.read bytes).2.toTCPOverIPv4Adapter = a.toTCPOverIPv4Adapter) ∨
    ∃ seg dgram buffer, (a.read bytes).1 = .ok (some seg) ∧ P dgram ∧ dgram.payload = [buffer] ∧
      a.unwrapTcpInIp dgram = .ok (some seg, (a.read bytes).2.toTCPOverIPv4Adapter) := by
  obtain ⟨frame, rfl, hf⟩ := hb
  unfold TCPOverIPv4OverEthernetAdapter.read
  simp only
  split
  · exact .inl ⟨(fun _ h => nomatch h), rfl⟩
  · split
    · exact .inl ⟨(fun _ h => nomatch h), rfl⟩
    · exact .inl ⟨(fun _ h => nomatch h), rfl⟩
    · rename_i ipDgram hres
      have hret := result_ok hres
      have hd : P ipDgram := NetworkInterface.recvFrame_conveys hP hf hret
      obtain ⟨-, input, -, hparse⟩ := NetworkInterface.recvFrame_returned hret
      obtain ⟨buffer, hbuffer⟩ : ∃ buffer, ipDgram.payload = [buffer] :=
        ⟨_, (congrArg (fun parsed => parsed.2.payload) hparse).symm.trans
          (by unfold IPv4Datagram.parse; simp only; split <;> rfl)⟩
      split
      · exact .inl ⟨(fun _ h => nomatch h), rfl⟩
      · rename_i seg adapter hunwrap
        cases seg with
        | none =>
          exact .inl ⟨(fun _ h => nomatch (Except.ok.inj h)),
            TCPOverIPv4Adapter.unwrapTcpInIp_none hbuffer hunwrap⟩
        | some seg => exact .inr ⟨seg, ipDgram, buffer, rfl, hd, hbuffer, hunwrap⟩

end

end TCPOverIPv4OverEthernetAdapter

/-! ## The router -/

structure AsyncNetworkInterface.Sourced (P : InternetDatagram → Prop) (s : AsyncNetworkInterface) :
    Prop where
  interface : s.interface.Sourced P
  queue : ∀ dgram ∈ s.datagramsOut, P dgram

theorem AsyncNetworkInterface.Sourced.mono {P Q : InternetDatagram → Prop}
    {s : AsyncNetworkInterface} (h : s.Sourced P) (hPQ : ∀ dgram, P dgram → Q dgram) :
    s.Sourced Q :=
  ⟨h.interface.mono hPQ, fun dgram hd => hPQ dgram (h.queue dgram hd)⟩

theorem AsyncNetworkInterface.Sourced.setInterface {P : InternetDatagram → Prop}
    {s : AsyncNetworkInterface} (h : s.Sourced P) {t : NetworkInterface} (ht : t.Sourced P) :
    Sourced P { s with interface := t } := ⟨ht, h.queue⟩

theorem AsyncNetworkInterface.Sourced.recvFrame {P : InternetDatagram → Prop}
    {s : AsyncNetworkInterface} {bytes : List UInt8} (h : s.Sourced P) (hP : Travels P)
    (hb : OnLink P bytes) : (s.recvFrame (EthernetFrame.parse {} bytes).2).2.Sourced P := by
  obtain ⟨frame, rfl, hf⟩ := hb
  have hs := h.interface.recvFrame (EthernetFrame.parse {} frame.bytes).2
  unfold AsyncNetworkInterface.recvFrame
  simp only
  split
  · rename_i dgram hret
    refine ⟨hs, fun d hm => ?_⟩
    rcases List.mem_append.mp hm with hm | hm
    · exact h.queue d hm
    · rw [List.mem_singleton.mp hm]
      exact NetworkInterface.recvFrame_conveys hP hf hret
  · exact ⟨hs, h.queue⟩

namespace Router

def Sourced (P : InternetDatagram → Prop) (r : Router) : Prop :=
  ∀ iface ∈ r.interfaces, iface.Sourced P

section
variable {P Q : InternetDatagram → Prop} {r : Router} {bytes : List UInt8}

theorem Sourced.mono (h : r.Sourced P) (hPQ : ∀ dgram, P dgram → Q dgram) : r.Sourced Q :=
  fun iface hi => (h iface hi).mono hPQ

theorem Sourced.set (h : r.Sourced P) {n : Nat} {iface : AsyncNetworkInterface}
    (hi : iface.Sourced P) (sends : List Send) :
    Sourced P { r with interfaces := r.interfaces.set n iface, sends := sends } := by
  intro i hm
  rcases List.mem_or_eq_of_mem_set hm with hm | rfl
  · exact h i hm
  · exact hi

theorem Sourced.recvFrame (h : r.Sourced P) (hP : Travels P) (hb : OnLink P bytes) (n : Nat) :
    (r.recvFrame n bytes).2.Sourced P := by
  unfold Router.recvFrame
  simp only
  split
  · exact h
  · split
    · exact h
    · rename_i iface hn
      exact h.set ((h iface (List.mem_of_getElem? hn)).recvFrame hP hb) r.sends

theorem Sourced.tick (h : r.Sourced P) (n ms : Nat) : (r.tick n ms).2.Sourced P := by
  unfold Router.tick
  split
  · exact h
  · rename_i iface hn
    have hi := h iface (List.mem_of_getElem? hn)
    exact h.set (hi.setInterface (hi.interface.tick ms)) r.sends

theorem Sourced.routeOneDatagram (h : r.Sourced P) (hP : Hops P) {dgram : InternetDatagram}
    (hd : P dgram) :
    P (r.routeOneDatagram dgram).2.1 ∧ (r.routeOneDatagram dgram).2.2.Sourced P := by
  unfold Router.routeOneDatagram
  simp only
  split
  · split
    · exact ⟨hP dgram hd, h⟩
    · refine ⟨hP dgram hd, ?_⟩
      unfold sendOn
      simp only
      split
      · exact h
      · rename_i iface hn
        have hi := h iface (List.mem_of_getElem? hn)
        exact h.set (hi.setInterface (hi.interface.sendDatagram (hP dgram hd) _)) _
  · exact ⟨hd, h⟩

theorem Sourced.setQueue (h : r.Sourced P) (i : Nat) {queue : List InternetDatagram}
    (hq : ∀ dgram ∈ queue, P dgram) : (r.setQueue i queue).Sourced P := by
  intro iface hm
  obtain ⟨j, hj, rfl⟩ := List.mem_iff_getElem.mp hm
  simp only [Router.setQueue, List.length_modify] at hj ⊢
  have hi := h _ (List.getElem_mem hj)
  rw [List.getElem_modify]
  split
  · exact ⟨hi.interface, hq⟩
  · exact hi

theorem Sourced.queue (h : r.Sourced P) (i : Nat) : ∀ dgram ∈ r.queue i, P dgram := by
  unfold Router.queue
  split
  · exact List.forall_mem_nil _
  · rename_i iface hi
    exact (h iface (List.mem_of_getElem? hi)).queue

theorem Sourced.drainLoop (hP : Hops P) (i : Nat) (turns : Nat) : ∀ {r : Router}, r.Sourced P →
    (drainLoop i turns r).2.Sourced P := by
  induction turns with
  | zero => exact fun h => h
  | succ turns ih =>
    intro r h
    rw [Router.drainLoop]
    split
    · exact h
    · rename_i dgram rest hq
      have hqueue := h.queue i
      rw [hq] at hqueue
      obtain ⟨hd, hrest⟩ := List.forall_mem_cons.mp hqueue
      obtain ⟨hleft, hr⟩ := h.routeOneDatagram hP hd
      split <;> rename_i heq <;> rw [heq] at hleft hr
      · exact ih (hr.setQueue i hrest)
      · exact hr.setQueue i (List.forall_mem_cons.mpr ⟨hleft, hrest⟩)

theorem Sourced.routeLoop (hP : Hops P) (is : List Nat) : ∀ {r : Router}, r.Sourced P →
    (routeLoop is r).2.Sourced P := by
  induction is with
  | nil => exact fun h => h
  | cons i is ih =>
    intro r h
    have hdrain := h.drainLoop hP i (r.queue i).length
    rw [Router.routeLoop]
    split <;> rename_i heq <;> rw [heq] at hdrain
    · exact ih hdrain
    · exact hdrain

theorem Sourced.route (h : r.Sourced P) (hP : Hops P) : r.route.2.Sourced P :=
  h.routeLoop hP _

theorem Sourced.clearFrames (h : r.Sourced P) : r.clearFrames.Sourced P := by
  intro iface hm
  obtain ⟨i, hi, rfl⟩ := List.mem_map.mp hm
  exact ⟨(h i hi).interface.clear, (h i hi).queue⟩

theorem Sourced.onLink (h : r.Sourced P) :
    ∀ bytes ∈ r.framesOut.map EthernetFrame.bytes, OnLink P bytes := by
  intro bytes hm
  obtain ⟨frame, hf, rfl⟩ := List.mem_map.mp hm
  obtain ⟨iface, hi, hf⟩ := List.mem_flatMap.mp hf
  exact ⟨frame, rfl, (h iface hi).interface.frames frame hf⟩

end

end Router

end Sponge
