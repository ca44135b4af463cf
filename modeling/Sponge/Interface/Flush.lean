import Sponge.Interface.Model

/-!
# The two loops of the interface

`sendStageDatagram` goes through as many positions as the vector has at its
start, and each datagram it sends shortens the vector. So one that is ready is
sent only in the last position (`flush_last`); from any other one on the loop
ends past the end of the vector, or throws with a datagram left that is ready
(`flush_early`).

`tick` visits each entry once (`visit_eq`), and one that has expired is one too
many (`tickLoop_expires`).
-/

namespace Sponge.NetworkInterface

/-- A frame with an IPv4 datagram. -/
def ipv4Frame (s : NetworkInterface) (dst : EthernetAddress) (payload : BufferList) :
    EthernetFrame where
  header := { dst := dst, src := s.ethernetAddress, type := EthernetHeader.TYPE_IPv4 }
  payload := payload

/-- The broadcast frame with a request. -/
def requestFrame (s : NetworkInterface) (bytes : List UInt8) : EthernetFrame where
  header := { dst := ETHERNET_BROADCAST, src := s.ethernetAddress, type := EthernetHeader.TYPE_ARP }
  payload := [bytes]

section
variable {s : NetworkInterface} {ip : UInt32} {dgram : InternetDatagram} {nextHop : Address}

theorem ready_iff : s.Ready ip ↔ ∃ status, s.mapStatus.lookup ip = some status ∧ 0 ≤ status := by
  unfold Ready
  split
  · rename_i status hs
    simp [hs]
  · rename_i hs
    simp [hs]

/-- Of what is ready, sending touches the frames only. -/
theorem sendDatagram_ready (dgram : InternetDatagram) (h : s.Ready nextHop.ipv4Numeric) :
    (∃ frames, s.sendDatagram dgram nextHop = (.returned none, { s with framesOut := frames })) ∨
      ∃ what, s.sendDatagram dgram nextHop = (.threw what, s) := by
  obtain ⟨status, hs, hle⟩ := ready_iff.mp h
  unfold sendDatagram
  split
  · split
    · exact .inr ⟨_, rfl⟩
    · exact .inl ⟨_, rfl⟩
  · rw [hs]
    simp only
    rw [if_neg (by omega)]
    exact .inl ⟨_, rfl⟩

theorem sendDatagram_learned {dst : EthernetAddress} {payload : BufferList}
    (h : s.addrMap.lookup nextHop.ipv4Numeric = some dst) (hp : dgram.serialize = .ok payload) :
    s.sendDatagram dgram nextHop =
      (.returned none, { s with framesOut := s.framesOut ++ [s.ipv4Frame dst payload] }) := by
  unfold sendDatagram
  rw [h, hp]
  rfl

theorem sendDatagram_error {dst : EthernetAddress} {what : String}
    (h : s.addrMap.lookup nextHop.ipv4Numeric = some dst) (hp : dgram.serialize = .error what) :
    s.sendDatagram dgram nextHop = (.threw what, s) := by
  unfold sendDatagram
  rw [h, hp]

/-- An unknown hop: a request goes out, and the datagram waits. -/
theorem sendDatagram_asks (dgram : InternetDatagram)
    (haddr : s.addrMap.lookup nextHop.ipv4Numeric = none)
    (hstatus : s.mapStatus.lookup nextHop.ipv4Numeric = none) :
    ∃ bytes, (s.arpRequest nextHop.ipv4Numeric).serialize = .ok bytes ∧
      s.sendDatagram dgram nextHop = (.returned none, { s with
        framesOut := s.framesOut ++ [s.requestFrame bytes]
        dgramStage := s.dgramStage ++ [(nextHop, dgram)]
        mapStatus := s.mapStatus.insert nextHop.ipv4Numeric (-1) }) := by
  obtain ⟨bytes, hser⟩ := ARPMessage.serialize_ok
    (show (s.arpRequest nextHop.ipv4Numeric).Supported from ⟨rfl, rfl, rfl, rfl, .inl rfl⟩)
  refine ⟨bytes, hser, ?_⟩
  unfold sendDatagram
  rw [haddr, hstatus, hser]
  rfl

/-- A hop that has been asked for: the datagram waits. -/
theorem sendDatagram_waits {status : Int} (dgram : InternetDatagram)
    (haddr : s.addrMap.lookup nextHop.ipv4Numeric = none)
    (hstatus : s.mapStatus.lookup nextHop.ipv4Numeric = some status) (hneg : status < 0) :
    s.sendDatagram dgram nextHop =
      (.returned none, { s with dgramStage := s.dgramStage ++ [(nextHop, dgram)] }) := by
  unfold sendDatagram
  rw [haddr, hstatus]
  exact if_pos hneg

/-! ## The flush -/

/-- The loop passes over what is not ready. -/
theorem stageLoop_skip (pre mid post : List (Address × InternetDatagram)) (turns : Nat)
    (hstage : s.dgramStage = pre ++ mid ++ post) (hmid : ∀ x ∈ mid, ¬ s.Ready x.1.ipv4Numeric) :
    stageLoop (mid.length + turns) pre.length s =
      stageLoop turns (pre.length + mid.length) s := by
  induction mid generalizing pre with
  | nil => simp
  | cons x mid ih =>
    have hget : s.dgramStage[pre.length]? = some x := by simp [hstage]
    have hrest := ih (pre ++ [x]) (by rw [hstage]; simp)
      fun y hy => hmid y (List.mem_cons_of_mem _ hy)
    rw [List.length_cons, Nat.add_right_comm, stageLoop, hget]
    simp only
    rw [if_neg (hmid x List.mem_cons_self)]
    rw [List.length_append, List.length_singleton] at hrest
    rw [hrest, Nat.add_assoc, Nat.add_comm 1]

/-- Nothing is ready: nothing happens. -/
theorem flush_idle (h : ∀ x ∈ s.dgramStage, ¬ s.Ready x.1.ipv4Numeric) :
    s.sendStageDatagram = (.returned none, s) :=
  stageLoop_skip [] s.dgramStage [] 0 (by simp) h

/-- The loop comes to a position where a datagram is ready. -/
theorem flush_eq {pre post : List (Address × InternetDatagram)}
    (hstage : s.dgramStage = pre ++ (nextHop, dgram) :: post)
    (hpre : ∀ x ∈ pre, ¬ s.Ready x.1.ipv4Numeric) (h : s.Ready nextHop.ipv4Numeric) :
    s.sendStageDatagram = match s.sendDatagram dgram nextHop with
      | (.returned _, s) =>
        stageLoop post.length (pre.length + 1)
          { s with dgramStage := s.dgramStage.eraseIdx pre.length }
      | (.threw what, s) => (.threw what, s)
      | (.erasedAccess, s) => (.erasedAccess, s) := by
  have hlen : s.dgramStage.length = pre.length + (post.length + 1) := by simp [hstage]
  have hskip := stageLoop_skip [] pre ((nextHop, dgram) :: post) (post.length + 1)
    (by rw [hstage]; simp) hpre
  have hget : s.dgramStage[pre.length]? = some (nextHop, dgram) := by simp [hstage]
  rw [sendStageDatagram, hlen]
  simp only [List.length_nil, Nat.zero_add] at hskip
  rw [hskip, stageLoop, hget]
  exact if_pos h

/-- A datagram that is ready in the last position is sent. -/
theorem flush_last {pre : List (Address × InternetDatagram)} {dst : EthernetAddress}
    {payload : BufferList} (hstage : s.dgramStage = pre ++ [(nextHop, dgram)])
    (hpre : ∀ x ∈ pre, ¬ s.Ready x.1.ipv4Numeric) (h : s.Ready nextHop.ipv4Numeric)
    (hdst : s.addrMap.lookup nextHop.ipv4Numeric = some dst)
    (hp : dgram.serialize = .ok payload) : s.sendStageDatagram = (.returned none, { s with
      framesOut := s.framesOut ++ [s.ipv4Frame dst payload]
      dgramStage := pre }) := by
  rw [flush_eq hstage hpre h, sendDatagram_learned hdst hp]
  simp only [List.length_nil, stageLoop, hstage]
  rw [List.eraseIdx_append_of_length_le (Nat.le_refl _)]
  simp

theorem flush_error {pre post : List (Address × InternetDatagram)} {dst : EthernetAddress}
    {what : String} (hstage : s.dgramStage = pre ++ (nextHop, dgram) :: post)
    (hpre : ∀ x ∈ pre, ¬ s.Ready x.1.ipv4Numeric) (h : s.Ready nextHop.ipv4Numeric)
    (hdst : s.addrMap.lookup nextHop.ipv4Numeric = some dst)
    (hp : dgram.serialize = .error what) : s.sendStageDatagram = (.threw what, s) := by
  rw [flush_eq hstage hpre h, sendDatagram_error hdst hp]

/-- The loop only takes datagrams out, and which entries are ready does not change. -/
theorem stageLoop_frame (turns : Nat) : ∀ (count : Nat) (s : NetworkInterface), ∃ frames stage,
    (stageLoop turns count s).2 = { s with framesOut := frames, dgramStage := stage } ∧
      stage.Sublist s.dgramStage := by
  induction turns with
  | zero => exact fun _ s => ⟨_, _, rfl, .refl _⟩
  | succ turns ih =>
    intro count s
    rw [stageLoop]
    split
    · exact ⟨_, _, rfl, .refl _⟩
    · rename_i nextHop dgram hget
      split
      · rename_i hready
        rcases sendDatagram_ready dgram hready with ⟨frames, heq⟩ | ⟨what, heq⟩
        · rw [heq]
          obtain ⟨frames', stage, h1, h2⟩ := ih (count + 1)
            { s with framesOut := frames, dgramStage := s.dgramStage.eraseIdx count }
          exact ⟨frames', stage, h1, h2.trans (List.eraseIdx_sublist _ _)⟩
        · rw [heq]
          exact ⟨_, _, rfl, .refl _⟩
      · exact ih (count + 1) s

/-- The frame takes a datagram to the address its next hop is mapped to. -/
def Delivers (s : NetworkInterface) (x : Address × InternetDatagram) (frame : EthernetFrame) :
    Prop :=
  ∃ dst payload, s.addrMap.lookup x.1.ipv4Numeric = some dst ∧ x.2.serialize = .ok payload ∧
    frame = s.ipv4Frame dst payload

/-- When what is ready is mapped, the loop only sends datagrams from the stage, each to the
address of its hop. -/
theorem stageLoop_sends (turns : Nat) : ∀ (count : Nat) (s : NetworkInterface),
    (∀ ip, s.Ready ip → (s.addrMap.lookup ip).isSome) → ∃ new stage,
      (stageLoop turns count s).2 =
        { s with framesOut := s.framesOut ++ new, dgramStage := stage } ∧
      ∀ frame ∈ new, ∃ x ∈ s.dgramStage, s.Delivers x frame := by
  induction turns with
  | zero =>
    intro _ s _
    refine ⟨[], s.dgramStage, ?_, by rintro _ ⟨⟩⟩
    rw [List.append_nil]
    rfl
  | succ turns ih =>
    intro count s hknown
    have hnone : s = { s with framesOut := s.framesOut ++ [], dgramStage := s.dgramStage } := by
      rw [List.append_nil]
    rw [stageLoop]
    split
    · exact ⟨[], s.dgramStage, hnone, by rintro _ ⟨⟩⟩
    · rename_i nextHop dgram hget
      have hmem := List.mem_of_getElem? hget
      split
      · rename_i hready
        obtain ⟨dst, hdst⟩ := Option.isSome_iff_exists.mp (hknown _ hready)
        cases hp : dgram.serialize with
        | error what =>
          rw [sendDatagram_error hdst hp]
          exact ⟨[], s.dgramStage, hnone, by rintro _ ⟨⟩⟩
        | ok payload =>
          rw [sendDatagram_learned hdst hp]
          obtain ⟨new, stage, h1, h2⟩ := ih (count + 1)
            { s with
              framesOut := s.framesOut ++ [s.ipv4Frame dst payload]
              dgramStage := s.dgramStage.eraseIdx count } hknown
          refine ⟨s.ipv4Frame dst payload :: new, stage, ?_, fun frame hm => ?_⟩
          · simp only [h1, List.append_assoc, List.singleton_append]
          · rcases List.mem_cons.mp hm with rfl | hm
            · exact ⟨(nextHop, dgram), hmem, dst, payload, hdst, hp, rfl⟩
            · obtain ⟨x, hx, hdelivers⟩ := h2 frame hm
              exact ⟨x, List.mem_of_mem_eraseIdx hx, hdelivers⟩
      · exact ih (count + 1) s hknown

/-- The loop has read past the end, or has thrown with a datagram left that is ready. -/
def Overran (result : Outcome × NetworkInterface) : Prop :=
  result.1 = .erasedAccess ∨
    (∃ what, result.1 = .threw what) ∧ ∃ x ∈ result.2.dgramStage, result.2.Ready x.1.ipv4Numeric

/-- With more positions to go than the vector has. -/
theorem stageLoop_overran (turns : Nat) : ∀ (count : Nat) (s : NetworkInterface), turns ≠ 0 →
    s.dgramStage.length < count + turns → Overran (stageLoop turns count s) := by
  induction turns with
  | zero => exact fun _ _ h => absurd rfl h
  | succ turns ih =>
    intro count s _ hlen
    rw [stageLoop]
    cases hget : s.dgramStage[count]? with
    | none => exact .inl rfl
    | some x =>
      obtain ⟨nextHop, dgram⟩ := x
      obtain ⟨hcount, hx⟩ := List.getElem?_eq_some_iff.mp hget
      have hturns : turns ≠ 0 := by omega
      simp only
      split
      · rename_i hready
        rcases sendDatagram_ready dgram hready with ⟨frames, heq⟩ | ⟨what, heq⟩
        · rw [heq]
          refine ih (count + 1) _ hturns ?_
          show (s.dgramStage.eraseIdx count).length < _
          rw [List.length_eraseIdx_of_lt hcount]
          omega
        · rw [heq]
          exact .inr ⟨⟨what, rfl⟩, (nextHop, dgram), List.mem_of_getElem? hget, hready⟩
      · exact ih (count + 1) s hturns (by omega)

/-- A datagram that is ready before the last position leads the loop past the end. -/
theorem flush_early {pre post : List (Address × InternetDatagram)}
    (hstage : s.dgramStage = pre ++ (nextHop, dgram) :: post) (hpost : post ≠ [])
    (hpre : ∀ x ∈ pre, ¬ s.Ready x.1.ipv4Numeric) (h : s.Ready nextHop.ipv4Numeric) :
    Overran s.sendStageDatagram := by
  rw [flush_eq hstage hpre h]
  rcases sendDatagram_ready dgram h with ⟨frames, heq⟩ | ⟨what, heq⟩
  · rw [heq]
    refine stageLoop_overran _ _ _ (by simpa using hpost) ?_
    show (s.dgramStage.eraseIdx pre.length).length < _
    rw [List.length_eraseIdx_of_lt (by simp [hstage]), hstage]
    simp
  · rw [heq]
    exact .inr ⟨⟨what, rfl⟩, (nextHop, dgram), by simp [hstage], h⟩

/-! ## The visits of a tick -/

/-- An entry after `ms`, in unbounded integers. -/
def aged (ms : Nat) (status : Int) : Int := if status ≥ 0 then status + ms else status - ms

/-- What the `int` of an entry is after `ms`. -/
def agedInt (ms : Nat) (status : Int) : Int := (aged ms status).bmod (2 ^ 32)

/-- A visit leaves an entry of this age there. -/
def Stays (ms : Nat) (status : Int) : Prop :=
  (status ≥ 0 → agedInt ms status < 30000) ∧ (status < 0 → -5001 < agedInt ms status)

instance (ms : Nat) (status : Int) : Decidable (Stays ms status) :=
  inferInstanceAs (Decidable (_ ∧ _))

theorem stays_learned {ms : Nat} {status : Int} (h : status ≥ 0) :
    Stays ms status ↔ ¬ (status + ms).bmod (2 ^ 32) ≥ 30000 := by
  unfold Stays agedInt aged
  rw [if_pos h]
  omega

theorem stays_pending {ms : Nat} {status : Int} (h : ¬ status ≥ 0) :
    Stays ms status ↔ ¬ (status - ms).bmod (2 ^ 32) ≤ -5001 := by
  unfold Stays agedInt aged
  rw [if_neg h]
  omega

/-- **What a visit does.** The entry stays with its new age, or goes, with its mapping if it has
one. -/
theorem visit_eq (s : NetworkInterface) (ms : Nat) (ip : UInt32) : s.visit ms ip =
    if Stays ms (s.status ip) then
      ({ s with mapStatus := s.mapStatus.insert ip (agedInt ms (s.status ip)) }, false)
    else ({ s with
      mapStatus := s.mapStatus.erase ip
      addrMap := if s.status ip ≥ 0 then s.addrMap.erase ip else s.addrMap }, true) := by
  unfold visit agedInt aged
  by_cases hge : s.status ip ≥ 0
  · simp only [if_pos hge, stays_learned hge, ite_not]
  · simp only [if_neg hge, stays_pending hge, ite_not]

/-- The sum of a visit fits into an `int`. -/
def FitsInt (s : NetworkInterface) (ms : Nat) (ip : UInt32) : Prop :=
  s.status ip + ms < 2 ^ 31 ∧ -2 ^ 31 ≤ s.status ip - ms

instance (s : NetworkInterface) (ms : Nat) (ip : UInt32) : Decidable (s.FitsInt ms ip) :=
  inferInstanceAs (Decidable (_ ∧ _))

/-- The entry does not expire within `ms`. -/
def Survives (s : NetworkInterface) (ms : Nat) (ip : UInt32) : Prop :=
  (s.status ip ≥ 0 → s.status ip + ms < 30000) ∧ (s.status ip < 0 → -5001 < s.status ip - ms)

instance (s : NetworkInterface) (ms : Nat) (ip : UInt32) : Decidable (s.Survives ms ip) :=
  inferInstanceAs (Decidable (_ ∧ _))

/-- In range, the `int` is the age. -/
theorem agedInt_eq {ms : Nat} {status : Int} (h1 : -2 ^ 31 ≤ aged ms status)
    (h2 : aged ms status < 2 ^ 31) : agedInt ms status = aged ms status :=
  Int.bmod_eq_of_le (by omega) (by omega)

theorem agedInt_fits {ms : Nat} (hfit : s.FitsInt ms ip) :
    agedInt ms (s.status ip) = aged ms (s.status ip) := by
  obtain ⟨h1, h2⟩ := hfit
  apply agedInt_eq
  · unfold aged
    split <;> omega
  · unfold aged
    split <;> omega

theorem stays_fits {ms : Nat} (hfit : s.FitsInt ms ip) :
    Stays ms (s.status ip) ↔ s.Survives ms ip := by
  unfold Stays Survives
  rw [agedInt_fits hfit]
  unfold aged
  split <;> omega

theorem visit_survives {ms : Nat} (hfit : s.FitsInt ms ip) (h : s.Survives ms ip) :
    s.visit ms ip =
      ({ s with mapStatus := s.mapStatus.insert ip (aged ms (s.status ip)) }, false) := by
  rw [visit_eq, if_pos ((stays_fits hfit).mpr h), agedInt_fits hfit]

theorem visit_expired {ms : Nat} (hfit : s.FitsInt ms ip) (h : ¬ s.Survives ms ip) :
    s.visit ms ip = ({ s with
      mapStatus := s.mapStatus.erase ip
      addrMap := if s.status ip ≥ 0 then s.addrMap.erase ip else s.addrMap }, true) := by
  rw [visit_eq, if_neg (mt (stays_fits hfit).mp h)]

theorem visit_expires {ms : Nat} (hfit : s.FitsInt ms ip) (h : ¬ s.Survives ms ip) :
    (s.visit ms ip).2 = true := by rw [visit_expired hfit h]

theorem status_insert_ne {ip' : UInt32} (age : Int) (h : ip' ≠ ip) :
    status { s with mapStatus := s.mapStatus.insert ip age } ip' = s.status ip' := by
  show ((s.mapStatus.insert ip age).lookup ip').getD 0 = _
  rw [AList.lookup_insert_ne h]
  rfl

/-- When all entries survive, each is aged once. -/
theorem tickLoop_survives (ms : Nat) : ∀ (ips : List UInt32) (s : NetworkInterface), ips.Nodup →
    (∀ ip ∈ ips, ip ∈ s.mapStatus) → (∀ ip ∈ ips, s.FitsInt ms ip ∧ s.Survives ms ip) →
    ∃ entries, tickLoop ms ips s = (.returned none, { s with mapStatus := entries }) ∧
      ∀ ip, entries.lookup ip =
        if ip ∈ ips then (s.mapStatus.lookup ip).map (aged ms) else s.mapStatus.lookup ip
  | [], s, _, _, _ => ⟨s.mapStatus, rfl, by simp⟩
  | ip :: ips, s, hnodup, hmem, h => by
    obtain ⟨hnot, hnodup'⟩ := List.nodup_cons.mp hnodup
    obtain ⟨hfit, hs⟩ := h ip List.mem_cons_self
    have hin := hmem ip List.mem_cons_self
    obtain ⟨status, hlookup⟩ := Option.isSome_iff_exists.mp (AList.lookup_isSome.mpr hin)
    have hstatus : s.status ip = status := by rw [NetworkInterface.status, hlookup]; rfl
    have hvisit := visit_survives hfit hs
    have hne {ip' : UInt32} (hm : ip' ∈ ips) : ip' ≠ ip := fun he => hnot (he ▸ hm)
    obtain ⟨entries, hloop, hentries⟩ := tickLoop_survives ms ips
      { s with mapStatus := s.mapStatus.insert ip (aged ms (s.status ip)) } hnodup'
      (fun ip' hm => AList.mem_insert _ |>.mpr (.inr (hmem ip' (List.mem_cons_of_mem _ hm))))
      (fun ip' hm => by
        unfold FitsInt Survives
        rw [status_insert_ne _ (hne hm)]
        exact h ip' (List.mem_cons_of_mem _ hm))
    refine ⟨entries, ?_, fun ip' => ?_⟩
    · rw [tickLoop, if_neg (fun hnil => by rw [AList.mem_keys, hnil] at hin; cases hin), hvisit]
      exact hloop
    · rw [hentries]
      show (if ip' ∈ ips then ((s.mapStatus.insert ip _).lookup ip').map _ else
        (s.mapStatus.insert ip _).lookup ip') = _
      by_cases he : ip' = ip
      · subst he
        rw [if_neg hnot, if_pos List.mem_cons_self, AList.lookup_insert, hlookup, hstatus]
        rfl
      · rw [AList.lookup_insert_ne he]
        simp [he]

/-- An entry that expires ends the loop on an erased position. -/
theorem tickLoop_expires (ms : Nat) : ∀ (ips : List UInt32) (s : NetworkInterface), ips.Nodup →
    (∀ ip ∈ ips, ip ∈ s.mapStatus) → (∀ ip ∈ ips, s.FitsInt ms ip) →
    (∃ ip ∈ ips, ¬ s.Survives ms ip) → (tickLoop ms ips s).1 = .erasedAccess
  | [], _, _, _, _, h => by
    obtain ⟨_, hm, -⟩ := h
    cases hm
  | ip :: ips, s, hnodup, hmem, hfit, h => by
    obtain ⟨hnot, hnodup'⟩ := List.nodup_cons.mp hnodup
    have hin := hmem ip List.mem_cons_self
    have hne {ip' : UInt32} (hm : ip' ∈ ips) : ip' ≠ ip := fun he => hnot (he ▸ hm)
    rw [tickLoop, if_neg (fun hnil => by rw [AList.mem_keys, hnil] at hin; cases hin)]
    simp only
    by_cases hs : s.Survives ms ip
    · rw [visit_survives (hfit ip List.mem_cons_self) hs]
      refine tickLoop_expires ms ips _ hnodup'
        (fun ip' hm => AList.mem_insert _ |>.mpr (.inr (hmem ip' (List.mem_cons_of_mem _ hm))))
        (fun ip' hm => ?_) ?_
      · unfold FitsInt
        rw [status_insert_ne _ (hne hm)]
        exact hfit ip' (List.mem_cons_of_mem _ hm)
      · obtain ⟨ip', hm, hs'⟩ := h
        rcases List.mem_cons.mp hm with rfl | hm
        · exact absurd hs hs'
        · refine ⟨ip', hm, ?_⟩
          unfold Survives
          rw [status_insert_ne _ (hne hm)]
          exact hs'
    · rw [if_pos (visit_expires (hfit ip List.mem_cons_self) hs)]

/-! ## What an ARP message does -/

/-- The frame is an ARP reply. -/
def IsReply (frame : EthernetFrame) : Prop :=
  frame.header.type = EthernetHeader.TYPE_ARP ∧ ∃ (msg : ARPMessage) (bytes : List UInt8),
    msg.opcode = ARPMessage.OPCODE_REPLY ∧ msg.serialize = .ok bytes ∧ frame.payload = [bytes]

/-- The message asks for the address of the interface. -/
def AsksOwn (s : NetworkInterface) (msg : ARPMessage) : Prop :=
  msg.opcode = ARPMessage.OPCODE_REQUEST ∧ msg.targetIpAddress = s.ipAddress.ipv4Numeric

instance (s : NetworkInterface) (msg : ARPMessage) : Decidable (s.AsksOwn msg) :=
  inferInstanceAs (Decidable (_ ∧ _))

/-- What the interface has learned before it replies. -/
def heard (s : NetworkInterface) (state : ParseResult) (msg : ARPMessage) : NetworkInterface :=
  if state = .noError then s.learn msg else s

theorem heard_frame (s : NetworkInterface) (state : ParseResult) (msg : ARPMessage) :
    ∃ entries addrs, s.heard state msg = { s with mapStatus := entries, addrMap := addrs } := by
  unfold heard
  split
  · exact ⟨_, _, rfl⟩
  · exact ⟨s.mapStatus, s.addrMap, rfl⟩

/-- **What a message does.** It ends with the flush, behind the reply to a request for the
interface; the reply to a message that is not supported throws. -/
theorem recvArp_heard (s : NetworkInterface) (state : ParseResult) (msg : ARPMessage) :
    (¬ s.AsksOwn msg ∧ s.recvArp state msg = (s.heard state msg).sendStageDatagram) ∨
    (s.AsksOwn msg ∧
      ((¬ msg.Supported ∧ ∃ what, s.recvArp state msg = (.threw what, s.heard state msg)) ∨
        ∃ frame, IsReply frame ∧ s.recvArp state msg = sendStageDatagram
          { s.heard state msg with framesOut := s.framesOut ++ [frame] })) := by
  have hown : (s.heard state msg).ipAddress = s.ipAddress ∧
      (s.heard state msg).framesOut = s.framesOut := by
    obtain ⟨entries, addrs, hheard⟩ := heard_frame s state msg
    rw [hheard]
    exact ⟨rfl, rfl⟩
  unfold recvArp AsksOwn
  rw [show (if state = .noError then s.learn msg else s) = s.heard state msg from rfl]
  simp only [hown.1, hown.2]
  split
  · rename_i hasks
    refine .inr ⟨hasks, ?_⟩
    split
    · rename_i what hser
      refine .inl ⟨fun hsup => ?_, what, rfl⟩
      -- the reply to a message that is supported is supported
      obtain ⟨h1, h2, h3, h4, -⟩ := hsup
      obtain ⟨bytes, hok⟩ := ARPMessage.serialize_ok
        (show ((s.heard state msg).arpReply msg).Supported from ⟨h1, h2, h3, h4, .inr rfl⟩)
      rw [hok] at hser
      cases hser
    · rename_i payload hser
      exact .inr ⟨_, ⟨rfl, _, payload, rfl, hser, rfl⟩, rfl⟩
  · rename_i hasks
    exact .inl ⟨hasks, rfl⟩

/-- The same of a message that is supported if it was accepted: only a rejected one throws. -/
theorem recvArp_eq (s : NetworkInterface) (state : ParseResult) (msg : ARPMessage)
    (h : state = .noError → msg.Supported) :
    (state ≠ .noError ∧ ∃ what, s.recvArp state msg = (.threw what, s.heard state msg)) ∨
      ∃ replies, (∀ frame ∈ replies, IsReply frame) ∧ s.recvArp state msg =
        sendStageDatagram { s.heard state msg with framesOut := s.framesOut ++ replies } := by
  obtain ⟨entries, addrs, hheard⟩ := heard_frame s state msg
  rcases recvArp_heard s state msg with ⟨-, heq⟩ | ⟨-, ⟨hsup, what, heq⟩ | ⟨frame, hreply, heq⟩⟩
  · refine .inr ⟨[], by rintro _ ⟨⟩, ?_⟩
    rw [heq, List.append_nil, hheard]
  · exact .inl ⟨mt h hsup, what, heq⟩
  · refine .inr ⟨[frame], fun f hm => ?_, heq⟩
    rw [List.mem_singleton.mp hm]
    exact hreply

theorem ready_learn (msg : ARPMessage) :
    (s.learn msg).Ready ip ↔ ip = msg.senderIpAddress ∨ s.Ready ip := by
  rw [ready_iff, ready_iff]
  show (∃ status, (s.mapStatus.insert msg.senderIpAddress 0).lookup ip = some status ∧ _) ↔ _
  by_cases he : ip = msg.senderIpAddress
  · subst he
    rw [AList.lookup_insert]
    simp
  · rw [AList.lookup_insert_ne he]
    simp [he]

end

end Sponge.NetworkInterface
