import Sponge.Wire.Codec
import Sponge.Wire.Ethernet

/-!
# ARP messages on the wire

`written` is the 28 bytes of a message, supported or not. Every string of that
length begins with some message's (`exists_written`), and a parser comes back
with that message (`parse_written`). So the two directions are one fact:
`parse` accepts what announces a request or a reply between Ethernet and IPv4
addresses, and `serialize` gives those bytes back (`parse_exact`).
-/

namespace Sponge

open NetParser NetUnparser

namespace EthernetAddress

theorem parse_append (a : EthernetAddress) (rest : List UInt8) :
    EthernetAddress.parse { buffer := a.serialize ++ rest } = (a, { buffer := rest }) := by
  obtain ⟨bytes, hlen⟩ := a
  match bytes, hlen with
  | [b0, b1, b2, b3, b4, b5], _ =>
    unfold EthernetAddress.parse EthernetAddress.serialize
    simp only [List.flatMap_cons, List.flatMap_nil, List.append_nil, List.append_assoc, u8_append]

theorem serialize_eq (a : EthernetAddress) : a.serialize = a.bytes := by
  unfold EthernetAddress.serialize
  rw [show NetUnparser.u8 = fun v => [v] from funext u8_eq, List.flatMap_singleton']

theorem serialize_length (a : EthernetAddress) : a.serialize.length = 6 := by
  rw [serialize_eq, a.length_eq]

/-- Six bytes are an address. -/
theorem front {b : List UInt8} {n : Nat} (h : n + 6 ≤ b.length) :
    ∃ (a : EthernetAddress) (rest : List UInt8), b = a.serialize ++ rest ∧ n ≤ rest.length := by
  refine ⟨⟨b.take 6, List.length_take_of_le (by omega)⟩, b.drop 6, ?_, ?_⟩
  · rw [serialize_eq, List.take_append_drop]
  · rw [List.length_drop]
    omega

end EthernetAddress

namespace ARPMessage

/-- The first eight bytes of a message. -/
def announcement (msg : ARPMessage) : List UInt8 :=
  u16 msg.hardwareType ++ (u16 msg.protocolType ++
    (u8 msg.hardwareAddressSize ++ (u8 msg.protocolAddressSize ++ u16 msg.opcode)))

/-- The bytes of a message. -/
def written (msg : ARPMessage) : List UInt8 :=
  msg.announcement ++
    (msg.senderEthernetAddress.serialize ++ (u32 msg.senderIpAddress ++
      (msg.targetEthernetAddress.serialize ++ u32 msg.targetIpAddress)))

/-- The first bytes announce Ethernet and IPv4 addresses of 6 and 4 bytes, and a request or a
reply. -/
def Announces (b : List UInt8) : Prop :=
  b.take 8 = [0, 1, 8, 0, 6, 4, 0, 1] ∨ b.take 8 = [0, 1, 8, 0, 6, 4, 0, 2]

instance (b : List UInt8) : Decidable (Announces b) := inferInstanceAs (Decidable (_ ∨ _))

theorem announcement_length (msg : ARPMessage) : msg.announcement.length = 8 := by
  simp [announcement]

theorem written_length (msg : ARPMessage) : msg.written.length = LENGTH := by
  simp [written, announcement_length, EthernetAddress.serialize_length, LENGTH]

theorem serialize_supported {msg : ARPMessage} (h : msg.Supported) :
    msg.serialize = .ok msg.written := by
  rw [serialize, if_neg (not_not.mpr h)]
  simp only [written, announcement, List.append_assoc]

theorem supported_of_serialize {msg : ARPMessage} {bytes : List UInt8}
    (h : msg.serialize = .ok bytes) : msg.Supported := by
  by_contra hnot
  rw [serialize, if_pos hnot] at h
  cases h

/-- A message is read back if it is supported. -/
theorem parse_written (prev msg : ARPMessage) (rest : List UInt8) :
    prev.parse (msg.written ++ rest) = if msg.Supported then (.noError, msg) else
      (.unsupported, { prev with
        hardwareType := msg.hardwareType
        protocolType := msg.protocolType
        hardwareAddressSize := msg.hardwareAddressSize
        protocolAddressSize := msg.protocolAddressSize
        opcode := msg.opcode }) := by
  have hlen : ¬ (msg.written ++ rest).length < LENGTH := by
    rw [List.length_append, written_length]
    omega
  unfold parse
  rw [if_neg hlen]
  unfold parseFormat written announcement
  simp only [List.append_assoc, u8_append, u16_append, ite_not]
  unfold parseAddresses
  simp only [EthernetAddress.parse_append, u32_append]
  rfl

/-- A message that is written is read back. -/
theorem parse_serialize {msg : ARPMessage} {bytes : List UInt8} (h : msg.serialize = .ok bytes)
    (prev : ARPMessage) (rest : List UInt8) : prev.parse (bytes ++ rest) = (.noError, msg) := by
  have hsup := supported_of_serialize h
  rw [serialize_supported hsup] at h
  obtain rfl := Except.ok.inj h
  rw [parse_written, if_pos hsup]

/-- Every string that is long enough begins with a message. -/
theorem exists_written {b : List UInt8} (h : LENGTH ≤ b.length) :
    ∃ (msg : ARPMessage) (rest : List UInt8), b = msg.written ++ rest := by
  obtain ⟨hardwareType, b1, rfl, h1⟩ := u16_front (n := 26) h
  obtain ⟨protocolType, b2, rfl, h2⟩ := u16_front (n := 24) h1
  obtain ⟨hardwareAddressSize, b3, rfl, h3⟩ := u8_front (n := 23) h2
  obtain ⟨protocolAddressSize, b4, rfl, h4⟩ := u8_front (n := 22) h3
  obtain ⟨opcode, b5, rfl, h5⟩ := u16_front (n := 20) h4
  obtain ⟨senderEthernetAddress, b6, rfl, h6⟩ := EthernetAddress.front (n := 14) h5
  obtain ⟨senderIpAddress, b7, rfl, h7⟩ := u32_front (n := 10) h6
  obtain ⟨targetEthernetAddress, b8, rfl, h8⟩ := EthernetAddress.front (n := 4) h7
  obtain ⟨targetIpAddress, rest, rfl, -⟩ := u32_front (n := 0) h8
  refine ⟨{ hardwareType, protocolType, hardwareAddressSize, protocolAddressSize, opcode,
            senderEthernetAddress, senderIpAddress, targetEthernetAddress, targetIpAddress },
    rest, ?_⟩
  simp only [written, announcement, List.append_assoc]

theorem announces_written (msg : ARPMessage) (rest : List UInt8) :
    Announces (msg.written ++ rest) ↔ msg.Supported := by
  have htake : (msg.written ++ rest).take 8 = msg.announcement := by
    rw [written, List.append_assoc, List.take_left' msg.announcement_length]
  have hrequest : [0, 1, 8, 0, 6, 4, 0, 1] = u16 TYPE_ETHERNET ++
      (u16 EthernetHeader.TYPE_IPv4 ++ (u8 6 ++ (u8 4 ++ u16 OPCODE_REQUEST))) := by decide
  have hreply : [0, 1, 8, 0, 6, 4, 0, 2] = u16 TYPE_ETHERNET ++
      (u16 EthernetHeader.TYPE_IPv4 ++ (u8 6 ++ (u8 4 ++ u16 OPCODE_REPLY))) := by decide
  have hopcode {v v' : UInt16} : u16 v = u16 v' ↔ v = v' := by
    rw [← List.append_nil (u16 v), ← List.append_nil (u16 v'), u16_inj]
    exact and_iff_left rfl
  unfold Announces Supported
  rw [htake, hrequest, hreply, announcement]
  simp only [u16_inj, u8_inj, hopcode, ← and_or_left]

/-- **The ARP codec.** A supported message is written and read back, whatever stands behind it.
What is accepted are the strings of at least 28 bytes that announce a request or a reply, and
such a message is written as the 28 bytes it was read from. -/
theorem parse_exact (prev : ARPMessage) :
    (∀ msg : ARPMessage, msg.Supported → ∃ bytes, msg.serialize = .ok bytes ∧
      ∀ rest, prev.parse (bytes ++ rest) = (.noError, msg)) ∧
    ∀ b : List UInt8, ((prev.parse b).1 = .noError ↔ 28 ≤ b.length ∧ Announces b) ∧
      ((prev.parse b).1 = .noError → (prev.parse b).2.serialize = .ok (b.take 28)) := by
  constructor
  · intro msg hsup
    have hser := serialize_supported hsup
    exact ⟨msg.written, hser, fun rest => parse_serialize hser prev rest⟩
  · intro b
    by_cases hlen : LENGTH ≤ b.length
    · obtain ⟨msg, rest, rfl⟩ := exists_written hlen
      rw [parse_written, announces_written]
      by_cases hsup : msg.Supported
      · rw [if_pos hsup]
        refine ⟨iff_of_true rfl ⟨hlen, hsup⟩, fun _ => ?_⟩
        rw [show (28 : Nat) = LENGTH from rfl, List.take_left' msg.written_length]
        exact serialize_supported hsup
      · rw [if_neg hsup]
        exact ⟨iff_of_false (by rintro ⟨⟩) fun h => hsup h.2, by rintro ⟨⟩⟩
    · rw [parse, if_pos (Nat.not_le.mp hlen)]
      exact ⟨iff_of_false (by rintro ⟨⟩) fun h => hlen h.1, by rintro ⟨⟩⟩

end ARPMessage

end Sponge
