import Sponge.Wire.IPv4
import Sponge.Wire.TCP

/-!
# TCP in IPv4

`TCPOverIPv4Adapter` puts a segment into a datagram and takes one out. Of an
`Address` the number and the port are kept, and making one from a dotted quad is
the identity on the number. `write` and `read` are those of the TUN adapter, the
device being the bytes between them.
-/

namespace Sponge

structure SocketAddress where
  ipv4Numeric : UInt32 := 0
  port : UInt16 := 0
  deriving DecidableEq, Repr

structure FdAdapterConfig where
  source : SocketAddress := {}
  destination : SocketAddress := {}
  deriving DecidableEq, Repr

structure TCPOverIPv4Adapter where
  cfg : FdAdapterConfig := {}
  listen : Bool := false
  deriving DecidableEq, Repr

namespace TCPOverIPv4Adapter

/-- The last check of `unwrap_tcp_in_ip`: the segment is from the peer. -/
def fromPeer (a : TCPOverIPv4Adapter) (tcpSeg : TCPSegment) :
    Option TCPSegment × TCPOverIPv4Adapter :=
  if tcpSeg.header.sport ≠ a.cfg.destination.port then (none, a) else (some tcpSeg, a)

/-- The checks on a parsed segment; a listening adapter takes up the connection. -/
def related (a : TCPOverIPv4Adapter) (ip : IPv4Header) (tcpSeg : TCPSegment) :
    Option TCPSegment × TCPOverIPv4Adapter :=
  if tcpSeg.header.dport ≠ a.cfg.source.port then (none, a)
  else if a.listen then
    if tcpSeg.header.syn ∧ ¬ tcpSeg.header.rst then
      let cfg := { source := ⟨ip.dst, a.cfg.source.port⟩
                   destination := ⟨ip.src, tcpSeg.header.sport⟩ }
      fromPeer { cfg := cfg, listen := false } tcpSeg
    else (none, a)
  else a.fromPeer tcpSeg

/-- What `unwrap_tcp_in_ip` returns, and the adapter behind it. -/
def unwrapTcpInIp (a : TCPOverIPv4Adapter) (ipDgram : InternetDatagram) :
    Except String (Option TCPSegment × TCPOverIPv4Adapter) :=
  if ¬ a.listen ∧ ipDgram.header.dst ≠ a.cfg.source.ipv4Numeric then .ok (none, a)
  else if ¬ a.listen ∧ ipDgram.header.src ≠ a.cfg.destination.ipv4Numeric then .ok (none, a)
  else if ipDgram.header.proto ≠ IPv4Header.PROTO_TCP then .ok (none, a)
  else do
    let buffer ← ipDgram.payload.toBuffer
    let tcpSeg := TCPSegment.parse {} buffer ipDgram.header.pseudoCksum
    if tcpSeg.1 ≠ .noError then return (none, a) else return a.related ipDgram.header tcpSeg.2

/-- The segment with the ports of the connection. -/
def withPorts (a : TCPOverIPv4Adapter) (seg : TCPSegment) : TCPSegment :=
  { seg with
    header := { seg.header with sport := a.cfg.source.port, dport := a.cfg.destination.port } }

/-- The header of the datagram for a segment. -/
def ipHeader (a : TCPOverIPv4Adapter) (seg : TCPSegment) : IPv4Header :=
  let header : IPv4Header := { src := a.cfg.source.ipv4Numeric
                               dst := a.cfg.destination.ipv4Numeric }
  { header with
    len := .ofNat (header.hlen.toNat * 4 + seg.header.doff.toNat * 4 + seg.payload.length) }

/-- What `wrap_tcp_in_ip` leaves in the segment, and the datagram. -/
def wrapTcpInIp (a : TCPOverIPv4Adapter) (seg : TCPSegment) :
    TCPSegment × Except String InternetDatagram :=
  let seg := a.withPorts seg
  let header := a.ipHeader seg
  (seg, do
    let payload ← seg.serialize header.pseudoCksum
    return { header := header, payload := payload })

/-- The bytes on the device. -/
def write (a : TCPOverIPv4Adapter) (seg : TCPSegment) : Except String (List UInt8) := do
  let ipDgram ← (a.wrapTcpInIp seg).2
  let buffers ← ipDgram.serialize
  return buffers.flatten

/-- What a read of these bytes returns, and the adapter behind it. -/
def read (a : TCPOverIPv4Adapter) (bytes : List UInt8) :
    Except String (Option TCPSegment × TCPOverIPv4Adapter) :=
  let ipDgram := IPv4Datagram.parse {} bytes
  if ipDgram.1 ≠ .noError then .ok (none, a) else a.unwrapTcpInIp ipDgram.2

end TCPOverIPv4Adapter

end Sponge
