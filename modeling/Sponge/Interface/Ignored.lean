import Sponge.Interface.Delivery
import Sponge.Interface.Visits
import Sponge.Wire.Message

/-!
# Frames that are not for the interface

A frame for another Ethernet address, an ARP frame whose payload does not parse
and a frame of another type are to be ignored. `recvFrame` looks at the
destination of an IPv4 frame only, and goes on with an ARP message that it has
rejected. So ARP frames are the ones that may have an effect: what they teach,
and the reply to a request (`ignores_iff`).
-/

namespace Sponge.NetworkInterface

/-- The frame is neither for the interface nor for all. -/
def Foreign (s : NetworkInterface) (frame : EthernetFrame) : Prop :=
  frame.header.dst ≠ s.ethernetAddress ∧ frame.header.dst ≠ ETHERNET_BROADCAST

/-- The frame is one of ARP, but its payload does not parse. -/
def Malformed (frame : EthernetFrame) : Prop :=
  frame.header.type = EthernetHeader.TYPE_ARP ∧
    (ARPMessage.parse {} frame.payload.flatten).1 ≠ .noError

def OtherType (frame : EthernetFrame) : Prop :=
  frame.header.type ≠ EthernetHeader.TYPE_IPv4 ∧ frame.header.type ≠ EthernetHeader.TYPE_ARP

/-- The interface should ignore the frame. -/
def NotMeant (s : NetworkInterface) (frame : EthernetFrame) : Prop :=
  s.Foreign frame ∨ Malformed frame ∨ OtherType frame

/-- No frame goes out, and the two maps and the stage are as they were. -/
structure Untouched (s t : NetworkInterface) : Prop where
  frames : t.framesOut = s.framesOut
  entries : ∀ ip, t.entry ip = s.entry ip
  stage : t.dgramStage = s.dgramStage

/-- The frame has no effect. -/
def Ignores (s : NetworkInterface) (frame : EthernetFrame) : Prop :=
  (s.recvFrame frame).1 = .returned none ∧ s.Untouched (s.recvFrame frame).2

/-- What the message would teach is known, and has just been learned. -/
def Knows (s : NetworkInterface) (msg : ARPMessage) : Prop :=
  s.entry msg.senderIpAddress = (some 0, some msg.senderEthernetAddress)

instance (s : NetworkInterface) (msg : ARPMessage) : Decidable (s.Knows msg) :=
  inferInstanceAs (Decidable (_ = _))

/-- The payload of an ARP frame that can do nothing: one buffer, with a message that teaches
nothing and does not ask for the interface. -/
def Idle (s : NetworkInterface) : Except String (List UInt8) → Prop
  | .error _ => False
  | .ok buffer =>
    ((ARPMessage.parse {} buffer).1 = .noError → s.Knows (ARPMessage.parse {} buffer).2) ∧
      ¬ s.AsksOwn (ARPMessage.parse {} buffer).2

instance (s : NetworkInterface) :
    (payload : Except String (List UInt8)) → Decidable (s.Idle payload)
  | .error _ => inferInstanceAs (Decidable False)
  | .ok _ => inferInstanceAs (Decidable (_ ∧ _))

/-- The frame is not one of ARP, or its payload can do nothing. -/
def Harmless (s : NetworkInterface) (frame : EthernetFrame) : Prop :=
  frame.header.type = EthernetHeader.TYPE_ARP → s.Idle frame.payload.toBuffer

instance (s : NetworkInterface) (frame : EthernetFrame) : Decidable (s.Harmless frame) :=
  inferInstanceAs (Decidable (_ → _))

section
variable {s : NetworkInterface} {frame : EthernetFrame} {msg : ARPMessage}

theorem entry_learn (ip : UInt32) : (s.learn msg).entry ip =
    if ip = msg.senderIpAddress then (some 0, some msg.senderEthernetAddress)
    else s.entry ip := by
  unfold entry NetworkInterface.learn
  split
  · rename_i he
    subst he
    simp only [AList.lookup_insert]
  · rename_i he
    simp only [AList.lookup_insert_ne he]

theorem knows_iff : s.Knows msg ↔ ∀ ip, (s.learn msg).entry ip = s.entry ip := by
  constructor
  · intro h ip
    rw [entry_learn]
    split
    · rename_i he
      rw [he]
      exact h.symm
    · rfl
  · intro h
    have hsender := h msg.senderIpAddress
    rw [entry_learn, if_pos rfl] at hsender
    exact hsender.symm

theorem ready_congr {t : NetworkInterface} {ip : UInt32} (h : t.entry ip = s.entry ip) :
    t.Ready ip ↔ s.Ready ip := by
  have hstatus : t.mapStatus.lookup ip = s.mapStatus.lookup ip := congrArg Prod.fst h
  rw [ready_iff, ready_iff, hstatus]

theorem heard_entry {state : ParseResult} : (∀ ip, (s.heard state msg).entry ip = s.entry ip) ↔
    (state = .noError → s.Knows msg) := by
  unfold heard
  split
  · rename_i hstate
    rw [← knows_iff]
    simp [hstate]
  · rename_i hstate
    simp [hstate]

/-- The maps are those that the message leaves. -/
theorem recvArp_entry (state : ParseResult) (ip : UInt32) :
    (s.recvArp state msg).2.entry ip = (s.heard state msg).entry ip := by
  have hflush (t : NetworkInterface) : t.sendStageDatagram.2.entry ip = t.entry ip := by
    obtain ⟨frames, stage, h, -⟩ := stageLoop_frame t.dgramStage.length 0 t
    rw [sendStageDatagram, h]
    rfl
  rcases recvArp_heard s state msg with ⟨-, heq⟩ | ⟨-, ⟨-, what, heq⟩ | ⟨frame, -, heq⟩⟩
  · rw [heq, hflush]
  · rw [heq]
  · rw [heq, hflush]
    rfl

/-- A message has no effect exactly when it teaches nothing and is no request for the
interface. -/
theorem recvArp_ignored_iff (hidle : ∀ x ∈ s.dgramStage, ¬ s.Ready x.1.ipv4Numeric)
    (state : ParseResult) :
    (s.recvArp state msg).1 = .returned none ∧ s.Untouched (s.recvArp state msg).2 ↔
      (state = .noError → s.Knows msg) ∧ ¬ s.AsksOwn msg := by
  obtain ⟨entries, addrs, hheard⟩ := heard_frame s state msg
  have hflush (hentry : ∀ ip, (s.heard state msg).entry ip = s.entry ip)
      (frames : List EthernetFrame) :
      sendStageDatagram { s.heard state msg with framesOut := frames } =
        (.returned none, { s.heard state msg with framesOut := frames }) := by
    refine flush_idle fun x hx hr => ?_
    rw [hheard] at hx
    exact hidle x hx ((ready_congr (hentry _)).mp hr)
  constructor
  · rintro ⟨hout, huntouched⟩
    have hentry : ∀ ip, (s.heard state msg).entry ip = s.entry ip := fun ip =>
      (recvArp_entry state ip).symm.trans (huntouched.entries ip)
    refine ⟨heard_entry.mp hentry, fun hasks => ?_⟩
    rcases recvArp_heard s state msg with ⟨hno, -⟩ | ⟨-, ⟨-, what, heq⟩ | ⟨frame, -, heq⟩⟩
    · exact hno hasks
    · rw [heq] at hout
      cases hout
    · -- the reply has gone out
      have hframes := huntouched.frames
      rw [heq, hflush hentry] at hframes
      simp at hframes
  · rintro ⟨hknows, hno⟩
    have hentry := heard_entry.mpr hknows
    rcases recvArp_heard s state msg with ⟨-, heq⟩ | ⟨hasks, -⟩
    · rw [heq, hflush hentry]
      refine ⟨rfl, ?_, hentry, ?_⟩
      · rw [hheard]
      · rw [hheard]
    · exact absurd hasks hno

/-- A message that is not accepted has no target yet, so it asks for 0.0.0.0 at most. -/
theorem idle_rejected_iff {buffer : List UInt8} (h : (ARPMessage.parse {} buffer).1 ≠ .noError) :
    s.Idle (.ok buffer) ↔ ¬ ((ARPMessage.parse {} buffer).2.opcode = ARPMessage.OPCODE_REQUEST ∧
      s.ipAddress.ipv4Numeric = 0) := by
  have htarget : (ARPMessage.parse {} buffer).2.targetIpAddress = 0 := by
    by_cases hlen : ARPMessage.LENGTH ≤ buffer.length
    · obtain ⟨msg, rest, rfl⟩ := ARPMessage.exists_written hlen
      rw [ARPMessage.parse_written] at h ⊢
      split at h
      · exact absurd rfl h
      · rename_i hsup
        rw [if_neg hsup]
    · rw [ARPMessage.parse, if_pos (Nat.not_le.mp hlen)]
  have hasks : s.AsksOwn (ARPMessage.parse {} buffer).2 ↔
      (ARPMessage.parse {} buffer).2.opcode = ARPMessage.OPCODE_REQUEST ∧
        s.ipAddress.ipv4Numeric = 0 := by
    unfold AsksOwn
    rw [htarget, eq_comm (a := (0 : UInt32))]
  rw [← hasks]
  exact ⟨fun hidle => hidle.2, fun hno => ⟨fun he => absurd he h, hno⟩⟩

/-- **Frames that are not for the interface.** With nothing to send in the stage, such a frame has
no effect exactly when it is not one of ARP or its payload can do nothing. -/
theorem ignores_iff (hidle : ∀ x ∈ s.dgramStage, ¬ s.Ready x.1.ipv4Numeric)
    (h : s.NotMeant frame) : s.Ignores frame ↔ s.Harmless frame := by
  have hnot : ¬ (frame.header.type = EthernetHeader.TYPE_IPv4 ∧
      frame.header.dst = s.ethernetAddress) := by
    rintro ⟨htype, hdst⟩
    rcases h with hforeign | ⟨harp, -⟩ | hother
    · exact hforeign.1 hdst
    · rw [htype] at harp
      exact absurd harp (by decide)
    · exact hother.1 htype
  unfold Ignores Harmless recvFrame
  rw [if_neg hnot]
  by_cases harp : frame.header.type = EthernetHeader.TYPE_ARP
  · rw [if_pos harp]
    cases hbuf : frame.payload.toBuffer with
    | error what =>
      refine iff_of_false ?_ fun hidle => hidle harp
      rintro ⟨⟨⟩, -⟩
    | ok buffer =>
      rw [forall_prop_of_true harp]
      exact recvArp_ignored_iff hidle _
  · rw [if_neg harp, flush_idle hidle]
    exact iff_of_true ⟨rfl, rfl, fun _ => rfl, rfl⟩ fun he => absurd he harp

end

/-- A reply to another interface, once more after it has been learned. -/
theorem ignores_known :
    Ignores (recvFrame { ethernetAddress := Outbound.targetEth, ipAddress := ⟨0x04030201⟩ }
      (Outbound.replyFrom 1)).2 (Outbound.replyFrom 1) :=
  (ignores_iff (by decide +kernel) (.inl ⟨by decide +kernel, by decide⟩)).mpr (by decide +kernel)

/-- A reply to another interface is learned. -/
theorem foreign_reply_learned :
    ¬ ∀ (s : NetworkInterface) (frame : EthernetFrame),
      (∀ x ∈ s.dgramStage, ¬ s.Ready x.1.ipv4Numeric) → s.NotMeant frame → s.Ignores frame := by
  intro h
  have hignores := h { ethernetAddress := EthernetAddress.zero, ipAddress := ⟨0x04030201⟩ }
    (Outbound.replyFrom 1) (by rintro _ ⟨⟩) (.inl (by unfold Foreign; decide))
  have hentry := hignores.2.entries 0xc0a80001
  revert hentry
  decide +kernel

end Sponge.NetworkInterface
