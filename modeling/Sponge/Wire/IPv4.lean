import Sponge.Wire.Parser

/-!
# IPv4 datagrams

`IPv4Datagram.parse` drops what `IPv4Header.parse` returns: it compares the
lengths and returns the parser's own error.
-/

namespace Sponge

structure IPv4Header where
  ver : UInt8 := 4
  hlen : UInt8 := 5
  tos : UInt8 := 0
  len : UInt16 := 0
  id : UInt16 := 0
  df : Bool := true
  mf : Bool := false
  offset : UInt16 := 0
  ttl : UInt8 := 128
  proto : UInt8 := 6
  cksum : UInt16 := 0
  src : UInt32 := 0
  dst : UInt32 := 0
  deriving DecidableEq, Repr

namespace IPv4Header

def LENGTH : Nat := 20

/-- The fields of the header, as they stand in the buffer. -/
def parseFields (p : NetParser) : IPv4Header × NetParser :=
  let firstByte := p.u8
  let tos := firstByte.2.u8
  let len := tos.2.u16
  let id := len.2.u16
  let foVal := id.2.u16
  let ttl := foVal.2.u8
  let proto := ttl.2.u8
  let cksum := proto.2.u16
  let src := cksum.2.u32
  let dst := src.2.u32
  ({ ver := firstByte.1 >>> 4
     hlen := firstByte.1 &&& 0x0f
     tos := tos.1
     len := len.1
     id := id.1
     df := (foVal.1 &&& 0x4000) != 0
     mf := (foVal.1 &&& 0x2000) != 0
     offset := foVal.1 &&& 0x1fff
     ttl := ttl.1
     proto := proto.1
     cksum := cksum.1
     src := src.1
     dst := dst.1 }, dst.2)

/-- What `parse` returns, and what it leaves in the header and the parser. -/
def parse (h : IPv4Header) (p : NetParser) : ParseResult × IPv4Header × NetParser :=
  let originalSerializedVersion := p.buffer
  let dataSize := p.buffer.length
  if dataSize < LENGTH then (.packetTooShort, h, p)
  else
    let fields := parseFields p
    let h := fields.1
    if dataSize < 4 * h.hlen.toNat then (.packetTooShort, fields)
    else if h.ver ≠ 4 then (.wrongIPVersion, fields)
    else if h.hlen < 5 then (.headerTooShort, fields)
    else if dataSize ≠ h.len.toNat then (.truncatedPacket, fields)
    else
      let p := fields.2.removePrefix (h.hlen.toNat * 4 - LENGTH)
      if p.error ≠ .noError then (p.error, h, p)
      else
        let check := InternetChecksum.add {} (originalSerializedVersion.take (4 * h.hlen.toNat))
        if check.value ≠ 0 then (.badChecksum, h, p) else (.noError, h, p)

def firstByte (h : IPv4Header) : UInt8 := (h.ver <<< 4) ||| (h.hlen &&& 0xf)

/-- The flags and the fragment offset. -/
def foVal (h : IPv4Header) : UInt16 :=
  (if h.df then 0x4000 else 0) ||| (if h.mf then 0x2000 else 0) ||| (h.offset &&& 0x1fff)

/-- The string that `serialize` builds up, expanded to the advertised size. -/
def bytes (h : IPv4Header) : List UInt8 :=
  let ret := NetUnparser.u8 h.firstByte ++ NetUnparser.u8 h.tos ++ NetUnparser.u16 h.len ++
    NetUnparser.u16 h.id ++ NetUnparser.u16 h.foVal ++ NetUnparser.u8 h.ttl ++
    NetUnparser.u8 h.proto ++ NetUnparser.u16 h.cksum ++ NetUnparser.u32 h.src ++
    NetUnparser.u32 h.dst
  ret ++ List.replicate (4 * h.hlen.toNat - ret.length) 0

def serialize (h : IPv4Header) : Except String (List UInt8) :=
  if h.ver ≠ 4 then .error "wrong IP version"
  else if 4 * h.hlen.toNat < LENGTH then .error "IP header too short"
  else .ok h.bytes

def payloadLength (h : IPv4Header) : UInt16 := h.len - 4 * h.hlen.toUInt16

def PROTO_TCP : UInt8 := 6

/-- The pseudo-header: addresses, protocol and payload length. -/
def pseudoCksum (h : IPv4Header) : UInt32 :=
  let pcksum := (h.src >>> 16) + (h.src &&& 0xffff)
  let pcksum := pcksum + ((h.dst >>> 16) + (h.dst &&& 0xffff))
  let pcksum := pcksum + h.proto.toUInt32
  pcksum + h.payloadLength.toUInt32

end IPv4Header

structure IPv4Datagram where
  header : IPv4Header := {}
  payload : BufferList := []
  deriving DecidableEq, Repr

abbrev InternetDatagram := IPv4Datagram

namespace IPv4Datagram

/-- What `parse` returns, and what it leaves in the datagram. -/
def parse (dgram : IPv4Datagram) (buffer : List UInt8) : ParseResult × IPv4Datagram :=
  let parsed := dgram.header.parse { buffer := buffer }
  let dgram := { header := parsed.2.1, payload := [parsed.2.2.buffer] }
  if dgram.payload.size ≠ dgram.header.payloadLength.toNat then (.packetTooShort, dgram)
  else (parsed.2.2.error, dgram)

def serialize (dgram : IPv4Datagram) : Except String BufferList :=
  if dgram.payload.size ≠ dgram.header.payloadLength.toNat then
    .error "IPv4Datagram::serialize: payload is wrong size"
  else do
    let headerZeroChecksum ← { dgram.header with cksum := 0 }.serialize
    let check := InternetChecksum.add {} headerZeroChecksum
    let header ← { dgram.header with cksum := check.value }.serialize
    return header :: dgram.payload

end IPv4Datagram

end Sponge
