import Sponge.TCPSegment
import Sponge.Wire.Parser

/-!
# TCP segments on the wire

`TCPHeader.parse` reports a short data offset by what it returns and a missing
option byte by the parser's error. `TCPSegment.parse` drops what it returns.
-/

namespace Sponge

namespace TCPHeader

def LENGTH : Nat := 20

/-- The fields of the header, as they stand in the buffer. -/
def parseFields (p : NetParser) : TCPHeader × NetParser :=
  let sport := p.u16
  let dport := sport.2.u16
  let seqno := dport.2.u32
  let ackno := seqno.2.u32
  let doff := ackno.2.u8
  let flB := doff.2.u8
  let win := flB.2.u16
  let cksum := win.2.u16
  let uptr := cksum.2.u16
  ({ sport := sport.1
     dport := dport.1
     seqno := ⟨seqno.1⟩
     ackno := ⟨ackno.1⟩
     doff := doff.1 >>> 4
     urg := (flB.1 &&& 0b00100000) != 0
     ack := (flB.1 &&& 0b00010000) != 0
     psh := (flB.1 &&& 0b00001000) != 0
     rst := (flB.1 &&& 0b00000100) != 0
     syn := (flB.1 &&& 0b00000010) != 0
     fin := (flB.1 &&& 0b00000001) != 0
     win := win.1
     cksum := cksum.1
     uptr := uptr.1 }, uptr.2)

/-- What `parse` returns, and what it leaves in the header and the parser. -/
def parse (p : NetParser) : ParseResult × TCPHeader × NetParser :=
  let fields := parseFields p
  let h := fields.1
  if h.doff < 5 then (.headerTooShort, fields)
  else
    let p := fields.2.removePrefix (h.doff.toNat * 4 - LENGTH)
    if p.error ≠ .noError then (p.error, h, p) else (.noError, h, p)

/-- The byte that holds the flags. -/
def flB (urg ack psh rst syn fin : Bool) : UInt8 :=
  (if urg then 0b00100000 else 0) ||| (if ack then 0b00010000 else 0) |||
    (if psh then 0b00001000 else 0) ||| (if rst then 0b00000100 else 0) |||
    (if syn then 0b00000010 else 0) ||| (if fin then 0b00000001 else 0)

def withCksum (h : TCPHeader) (cksum : UInt16) : TCPHeader := { h with cksum := cksum }

@[simp] theorem withCksum_doff (h : TCPHeader) (cksum : UInt16) :
    (h.withCksum cksum).doff = h.doff := rfl

/-- The string that `serialize` builds up, expanded to the advertised size. -/
def bytes (h : TCPHeader) : List UInt8 :=
  let ret := NetUnparser.u16 h.sport ++ NetUnparser.u16 h.dport ++
    NetUnparser.u32 h.seqno.rawValue ++ NetUnparser.u32 h.ackno.rawValue ++
    NetUnparser.u8 (h.doff <<< 4) ++ NetUnparser.u8 (flB h.urg h.ack h.psh h.rst h.syn h.fin) ++
    NetUnparser.u16 h.win ++ NetUnparser.u16 h.cksum ++ NetUnparser.u16 h.uptr
  ret ++ List.replicate (4 * h.doff.toNat - ret.length) 0

def serialize (h : TCPHeader) : Except String (List UInt8) :=
  if h.doff < 5 then .error "TCP header too short" else .ok h.bytes

end TCPHeader

namespace TCPSegment

/-- What `parse` returns, and what it leaves in the segment. -/
def parse (seg : TCPSegment) (buffer : List UInt8) (datagramLayerChecksum : UInt32) :
    ParseResult × TCPSegment :=
  let check := InternetChecksum.add { sum := datagramLayerChecksum } buffer
  if check.value ≠ 0 then (.badChecksum, seg)
  else
    let parsed := TCPHeader.parse { buffer := buffer }
    (parsed.2.2.error, { header := parsed.2.1, payload := parsed.2.2.buffer })

def serialize (seg : TCPSegment) (datagramLayerChecksum : UInt32) : Except String BufferList := do
  let headerZeroChecksum ← (seg.header.withCksum 0).serialize
  let check := (InternetChecksum.add { sum := datagramLayerChecksum } headerZeroChecksum).add
    seg.payload
  let header ← (seg.header.withCksum check.value).serialize
  return [header, seg.payload]

end TCPSegment

end Sponge
