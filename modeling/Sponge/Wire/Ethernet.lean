import Sponge.Wire.Parser

/-!
# Ethernet frames and ARP messages

`parse` and `serialize` are the source's: a parse fills the fields in order and
stops at the first check that fails, so that a message that is not accepted has
some of its fields set.
-/

namespace Sponge

/-- Six bytes. -/
structure EthernetAddress where
  bytes : List UInt8 := [0, 0, 0, 0, 0, 0]
  length_eq : bytes.length = 6 := by rfl
  deriving DecidableEq, Repr

def ETHERNET_BROADCAST : EthernetAddress := { bytes := [0xff, 0xff, 0xff, 0xff, 0xff, 0xff] }

namespace EthernetAddress

def zero : EthernetAddress := {}

/-- The loop that reads the bytes of an address. -/
def parse (p : NetParser) : EthernetAddress × NetParser :=
  let b0 := p.u8
  let b1 := b0.2.u8
  let b2 := b1.2.u8
  let b3 := b2.2.u8
  let b4 := b3.2.u8
  let b5 := b4.2.u8
  ({ bytes := [b0.1, b1.1, b2.1, b3.1, b4.1, b5.1] }, b5.2)

/-- The loop that writes the bytes of an address. -/
def serialize (a : EthernetAddress) : List UInt8 := a.bytes.flatMap NetUnparser.u8

end EthernetAddress

structure EthernetHeader where
  dst : EthernetAddress := .zero
  src : EthernetAddress := .zero
  type : UInt16 := 0
  deriving DecidableEq, Repr

namespace EthernetHeader

def TYPE_IPv4 : UInt16 := 0x800

def TYPE_ARP : UInt16 := 0x806

def LENGTH : Nat := 14

/-- What `parse` returns, the header, and the parser behind it. -/
def parse (header : EthernetHeader) (p : NetParser) : ParseResult × EthernetHeader × NetParser :=
  if p.buffer.length < LENGTH then (.packetTooShort, header, p)
  else
    let dst := EthernetAddress.parse p
    let src := EthernetAddress.parse dst.2
    let type := src.2.u16
    (type.2.error, { dst := dst.1, src := src.1, type := type.1 }, type.2)

def serialize (header : EthernetHeader) : List UInt8 :=
  header.dst.serialize ++ header.src.serialize ++ NetUnparser.u16 header.type

end EthernetHeader

structure EthernetFrame where
  header : EthernetHeader := {}
  payload : BufferList := []
  deriving DecidableEq, Repr

namespace EthernetFrame

/-- What the parse of the header returns is not looked at. -/
def parse (frame : EthernetFrame) (buffer : List UInt8) : ParseResult × EthernetFrame :=
  let parsed := frame.header.parse { buffer := buffer }
  (parsed.2.2.error, { header := parsed.2.1, payload := [parsed.2.2.buffer] })

def serialize (frame : EthernetFrame) : BufferList := [frame.header.serialize] ++ frame.payload

end EthernetFrame

structure ARPMessage where
  hardwareType : UInt16 := 1
  protocolType : UInt16 := EthernetHeader.TYPE_IPv4
  hardwareAddressSize : UInt8 := 6
  protocolAddressSize : UInt8 := 4
  opcode : UInt16 := 0
  senderEthernetAddress : EthernetAddress := .zero
  senderIpAddress : UInt32 := 0
  targetEthernetAddress : EthernetAddress := .zero
  targetIpAddress : UInt32 := 0
  deriving DecidableEq, Repr

namespace ARPMessage

def LENGTH : Nat := 28

def TYPE_ETHERNET : UInt16 := 1

def OPCODE_REQUEST : UInt16 := 1

def OPCODE_REPLY : UInt16 := 2

def Supported (msg : ARPMessage) : Prop :=
  msg.hardwareType = TYPE_ETHERNET ∧ msg.protocolType = EthernetHeader.TYPE_IPv4 ∧
    msg.hardwareAddressSize = 6 ∧ msg.protocolAddressSize = 4 ∧
    (msg.opcode = OPCODE_REQUEST ∨ msg.opcode = OPCODE_REPLY)

instance (msg : ARPMessage) : Decidable msg.Supported := inferInstanceAs (Decidable (_ ∧ _))

/-- The fields up to the opcode. -/
def parseFormat (msg : ARPMessage) (p : NetParser) : ARPMessage × NetParser :=
  let hardwareType := p.u16
  let protocolType := hardwareType.2.u16
  let hardwareAddressSize := protocolType.2.u8
  let protocolAddressSize := hardwareAddressSize.2.u8
  let opcode := protocolAddressSize.2.u16
  ({ msg with
    hardwareType := hardwareType.1
    protocolType := protocolType.1
    hardwareAddressSize := hardwareAddressSize.1
    protocolAddressSize := protocolAddressSize.1
    opcode := opcode.1 }, opcode.2)

/-- The addresses of the sender and the target. -/
def parseAddresses (msg : ARPMessage) (p : NetParser) : ARPMessage × NetParser :=
  let senderEthernetAddress := EthernetAddress.parse p
  let senderIpAddress := senderEthernetAddress.2.u32
  let targetEthernetAddress := EthernetAddress.parse senderIpAddress.2
  let targetIpAddress := targetEthernetAddress.2.u32
  ({ msg with
    senderEthernetAddress := senderEthernetAddress.1
    senderIpAddress := senderIpAddress.1
    targetEthernetAddress := targetEthernetAddress.1
    targetIpAddress := targetIpAddress.1 }, targetIpAddress.2)

/-- What `parse` returns, and what it leaves in the message. -/
def parse (msg : ARPMessage) (buffer : List UInt8) : ParseResult × ARPMessage :=
  if buffer.length < LENGTH then (.packetTooShort, msg)
  else
    let format := msg.parseFormat { buffer := buffer }
    if ¬ format.1.Supported then (.unsupported, format.1)
    else
      let addresses := format.1.parseAddresses format.2
      (addresses.2.error, addresses.1)

def serialize (msg : ARPMessage) : Except String (List UInt8) :=
  if ¬ msg.Supported then .error
    ("ARPMessage::serialize(): unsupported field combination " ++
      "(must be Ethernet/IP, and request or reply)")
  else .ok (NetUnparser.u16 msg.hardwareType ++ NetUnparser.u16 msg.protocolType ++
    NetUnparser.u8 msg.hardwareAddressSize ++ NetUnparser.u8 msg.protocolAddressSize ++
    NetUnparser.u16 msg.opcode ++
    msg.senderEthernetAddress.serialize ++ NetUnparser.u32 msg.senderIpAddress ++
    msg.targetEthernetAddress.serialize ++ NetUnparser.u32 msg.targetIpAddress)

theorem serialize_ok {msg : ARPMessage} (h : msg.Supported) :
    ∃ bytes, msg.serialize = .ok bytes := ⟨_, if_neg (not_not.mpr h)⟩

theorem parseAddresses_supported (msg : ARPMessage) (p : NetParser) :
    (msg.parseAddresses p).1.Supported ↔ msg.Supported := Iff.rfl

/-- What `parse` accepts is supported. -/
theorem parse_supported (msg : ARPMessage) (buffer : List UInt8)
    (h : (msg.parse buffer).1 = .noError) : (msg.parse buffer).2.Supported := by
  by_cases hlen : buffer.length < LENGTH
  · rw [parse, if_pos hlen] at h
    cases h
  · by_cases hsup : (msg.parseFormat { buffer := buffer }).1.Supported
    · rw [parse, if_neg hlen]
      simp only
      rw [if_neg (not_not.mpr hsup)]
      exact (parseAddresses_supported _ _).mpr hsup
    · rw [parse, if_neg hlen] at h
      simp only at h
      rw [if_pos hsup] at h
      cases h

end ARPMessage

end Sponge
