import Sponge.Interface.Visits
import Sponge.Wire.Frame

/-!
# Where what an interface sends comes from

An interface makes up no datagram: each IPv4 frame it pushes carries one that it
has been given to send (`Sourced`), and what it returns is read from a frame it
has received. With `P` a property of datagrams that the way over a wire keeps
(`Travels`), what has `P` where it is sent has it where it is received.
-/

namespace Sponge

/-- The frame, if it is of type IPv4, carries a datagram with `P`. -/
def Conveys (P : InternetDatagram → Prop) (frame : EthernetFrame) : Prop :=
  frame.header.type = EthernetHeader.TYPE_IPv4 →
    ∃ dgram, P dgram ∧ dgram.serialize = .ok frame.payload

/-- A datagram that is written and parsed again still has `P`. -/
def Travels (P : InternetDatagram → Prop) : Prop :=
  ∀ dgram payload, P dgram → dgram.serialize = .ok payload →
    (IPv4Datagram.parse {} payload.flatten).1 = .noError →
      P (IPv4Datagram.parse {} payload.flatten).2

theorem Conveys.mono {P Q : InternetDatagram → Prop} {frame : EthernetFrame}
    (h : Conveys P frame) (hPQ : ∀ dgram, P dgram → Q dgram) : Conveys Q frame := by
  intro htype
  obtain ⟨dgram, hd, hp⟩ := h htype
  exact ⟨dgram, hPQ dgram hd, hp⟩

namespace NetworkInterface

/-- What is staged has `P`, and what has been pushed carries it. -/
structure Sourced (P : InternetDatagram → Prop) (s : NetworkInterface) : Prop where
  staged : ∀ x ∈ s.dgramStage, P x.2
  frames : ∀ frame ∈ s.framesOut, Conveys P frame

/-- The datagram that an operation hands to the interface. -/
def Op.given : Op → Option InternetDatagram
  | .sendDatagram dgram _ => some dgram
  | .recvFrame _ | .tick _ => none

section
variable {P Q : InternetDatagram → Prop} {s : NetworkInterface} {dgram : InternetDatagram}
  {frame : EthernetFrame}

theorem Sourced.mono (h : s.Sourced P) (hPQ : ∀ dgram, P dgram → Q dgram) : s.Sourced Q :=
  ⟨fun x hx => hPQ x.2 (h.staged x hx), fun frame hf => (h.frames frame hf).mono hPQ⟩

/-- The maps have no part in it. -/
theorem Sourced.maps (h : s.Sourced P) (addrMap : AList fun _ : UInt32 => EthernetAddress)
    (mapStatus : AList fun _ : UInt32 => Int) :
    Sourced P { s with addrMap := addrMap, mapStatus := mapStatus } := ⟨h.staged, h.frames⟩

theorem Sourced.push (h : s.Sourced P) (hf : Conveys P frame) :
    Sourced P { s with framesOut := s.framesOut ++ [frame] } := by
  refine ⟨h.staged, fun f hm => ?_⟩
  rcases List.mem_append.mp hm with hm | hm
  · exact h.frames f hm
  · rw [List.mem_singleton.mp hm]
    exact hf

theorem Sourced.stage (h : s.Sourced P) (hd : P dgram) (nextHop : Address) :
    Sourced P { s with dgramStage := s.dgramStage ++ [(nextHop, dgram)] } := by
  refine ⟨fun x hm => ?_, h.frames⟩
  rcases List.mem_append.mp hm with hm | hm
  · exact h.staged x hm
  · rw [List.mem_singleton.mp hm]
    exact hd

theorem conveys_arp (h : frame.header.type = EthernetHeader.TYPE_ARP) : Conveys P frame := by
  intro htype
  rw [h] at htype
  exact absurd htype (by decide)

theorem Sourced.sendDatagram (h : s.Sourced P) (hd : P dgram) (nextHop : Address) :
    Sourced P (s.sendDatagram dgram nextHop).2 := by
  unfold NetworkInterface.sendDatagram
  split
  · split
    · exact h
    · rename_i payload hp
      exact h.push fun _ => ⟨dgram, hd, hp⟩
  · split
    · split
      · exact h
      · exact ((h.push (conveys_arp rfl)).stage hd nextHop).maps _ _
    · split
      · exact h.stage hd nextHop
      · exact h.push fun htype => absurd htype (by decide)

theorem Sourced.stageLoop (turns : Nat) : ∀ (count : Nat) {s : NetworkInterface}, s.Sourced P →
    Sourced P (stageLoop turns count s).2 := by
  induction turns with
  | zero => exact fun _ _ h => h
  | succ turns ih =>
    intro count s h
    rw [NetworkInterface.stageLoop]
    split
    · exact h
    · rename_i nextHop dgram hget
      split
      · have hs := h.sendDatagram (h.staged _ (List.mem_of_getElem? hget)) nextHop
        split
        · rename_i heq
          rw [heq] at hs
          refine ih (count + 1) ⟨fun x hx => hs.staged x ?_, hs.frames⟩
          exact (List.eraseIdx_sublist _ _).mem hx
        · rename_i heq
          rw [heq] at hs
          exact hs
        · rename_i heq
          rw [heq] at hs
          exact hs
      · exact ih (count + 1) h

theorem Sourced.flush (h : s.Sourced P) : Sourced P s.sendStageDatagram.2 := h.stageLoop _ 0

theorem Sourced.recvArp (h : s.Sourced P) (state : ParseResult) (msg : ARPMessage) :
    Sourced P (s.recvArp state msg).2 := by
  have hlearn : Sourced P (if state = .noError then s.learn msg else s) := by
    split
    · exact h.maps _ _
    · exact h
  unfold NetworkInterface.recvArp
  generalize (if state = .noError then s.learn msg else s) = t at hlearn ⊢
  simp only
  split
  · split
    · exact hlearn
    · exact (hlearn.push (conveys_arp rfl)).flush
  · exact hlearn.flush

theorem Sourced.recvFrame (h : s.Sourced P) (frame : EthernetFrame) :
    Sourced P (s.recvFrame frame).2 := by
  unfold NetworkInterface.recvFrame
  split
  · split
    · exact h
    · simp only
      split
      · exact h
      · exact h.flush
  · split
    · split
      · exact h
      · exact h.recvArp _ _
    · exact h.flush

theorem Sourced.tickLoop (ms : Nat) (ips : List UInt32) : ∀ {s : NetworkInterface}, s.Sourced P →
    Sourced P (tickLoop ms ips s).2 := by
  induction ips with
  | nil => exact fun h => h
  | cons ip ips ih =>
    intro s h
    rw [NetworkInterface.tickLoop]
    split
    · exact h
    · obtain ⟨entries, addrs, hvisit⟩ := visit_frame s ms ip
      have hv : Sourced P (s.visit ms ip).1 := by
        rw [hvisit]
        exact h.maps _ _
      simp only
      split
      · exact hv
      · exact ih hv

theorem Sourced.tick (h : s.Sourced P) (ms : Nat) : Sourced P (s.tick ms).2 := by
  have hloop := h.tickLoop ms (s.mapStatus.keys.insertionSort (· ≤ ·))
  unfold NetworkInterface.tick
  split <;> rename_i heq <;> rw [heq] at hloop
  · exact hloop.flush
  · exact hloop
  · exact hloop

/-- Every call keeps it, however it ends. -/
theorem Sourced.call (h : s.Sourced P) {op : Op} (hd : ∀ dgram ∈ op.given, P dgram) :
    Sourced P (s.call op).2 := by
  cases op with
  | sendDatagram dgram nextHop => exact h.sendDatagram (hd dgram rfl) nextHop
  | recvFrame frame => exact h.recvFrame frame
  | tick ms => exact h.tick ms

/-! ## What is received -/

theorem stageLoop_returns (turns : Nat) : ∀ (count : Nat) (s : NetworkInterface)
    (dgram : InternetDatagram), (NetworkInterface.stageLoop turns count s).1 ≠
      .returned (some dgram) := by
  induction turns with
  | zero => exact fun _ _ _ h => nomatch h
  | succ turns ih =>
    intro count s dgram h
    rw [NetworkInterface.stageLoop] at h
    split at h
    · cases h
    · split at h
      · split at h
        · exact ih _ _ _ h
        · cases h
        · cases h
      · exact ih _ _ _ h

theorem recvArp_returns (s : NetworkInterface) (state : ParseResult) (msg : ARPMessage)
    (dgram : InternetDatagram) : (s.recvArp state msg).1 ≠ .returned (some dgram) := by
  unfold NetworkInterface.recvArp
  generalize (if state = .noError then s.learn msg else s) = t
  simp only
  split
  · split
    · exact fun h => nomatch h
    · exact stageLoop_returns _ _ _ _
  · exact stageLoop_returns _ _ _ _

/-- A datagram is returned for a frame of type IPv4 to the interface, and is what its payload
parses to. -/
theorem recvFrame_returned (h : (s.recvFrame frame).1 = .returned (some dgram)) :
    frame.header.type = EthernetHeader.TYPE_IPv4 ∧ ∃ buffer, frame.payload.toBuffer = .ok buffer ∧
      IPv4Datagram.parse {} buffer = (.noError, dgram) := by
  unfold NetworkInterface.recvFrame at h
  split at h
  · rename_i hours
    refine ⟨hours.1, ?_⟩
    split at h
    · cases h
    · rename_i buffer hbuffer
      refine ⟨buffer, hbuffer, ?_⟩
      simp only at h
      split at h
      · rename_i hok
        obtain rfl := Option.some.inj (Outcome.returned.inj h)
        exact Prod.ext hok rfl
      · exact absurd h (stageLoop_returns _ _ _ _)
  · split at h
    · split at h
      · cases h
      · exact absurd h (recvArp_returns _ _ _ _)
    · exact absurd h (stageLoop_returns _ _ _ _)

/-- What is taken off a wire on which the frames convey `P` has `P`. -/
theorem recvFrame_conveys (hP : Travels P) (hf : Conveys P frame)
    (h : (s.recvFrame (EthernetFrame.parse {} frame.serialize.flatten).2).1 =
      .returned (some dgram)) : P dgram := by
  have hbytes : frame.serialize.flatten = frame.header.serialize ++ frame.payload.flatten := by
    simp [EthernetFrame.serialize]
  rw [hbytes, EthernetFrame.parse_append] at h
  obtain ⟨htype, buffer, hbuffer, hparse⟩ := recvFrame_returned h
  obtain rfl : frame.payload.flatten = buffer := by simpa [BufferList.toBuffer] using hbuffer
  obtain ⟨sent, hsent, hp⟩ := hf htype
  have hread := hP sent frame.payload hsent hp
  rw [hparse] at hread
  exact hread rfl

end

end NetworkInterface

end Sponge
