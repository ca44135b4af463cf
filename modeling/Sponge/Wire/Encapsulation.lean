import Sponge.Wire.RoundTrip
import Sponge.Wire.TCPOverIP

/-!
# Segments survive the encapsulation

Both sides sum the pseudo-header from their own view of addresses and lengths:
the sender from the header it makes up, the receiver from the one it parsed. The
two differ in the checksum field alone, which the pseudo-header leaves out, so
that what `write` puts on the wire is what `read` takes off it.
-/

namespace Sponge

open Lib

/-- The pseudo-header leaves room for the sum of a whole segment. -/
theorem IPv4Header.pseudoCksum_lt (h : IPv4Header) : h.pseudoCksum.toNat < 2 ^ 20 := by
  have hsrc := InternetChecksum.turn_toNat h.src
  have hdst := InternetChecksum.turn_toNat h.dst
  have hs := h.src.toNat_lt
  have hd := h.dst.toNat_lt
  have hp := h.proto.toNat_lt
  have hl := h.payloadLength.toNat_lt
  unfold IPv4Header.pseudoCksum
  simp only [UInt32.toNat_add, UInt8.toNat_toUInt32, UInt16.toNat_toUInt32] at hsrc hdst ⊢
  omega

namespace TCPOverIPv4Adapter

/-- The adapter at the other end. -/
def peer (a : TCPOverIPv4Adapter) : TCPOverIPv4Adapter where
  cfg := { source := a.cfg.destination, destination := a.cfg.source }
  listen := false

/-- `r` is connected to `s`, or listens on its port and `seg` opens a connection. -/
def Expects (s r : TCPOverIPv4Adapter) (seg : TCPSegment) : Prop :=
  r = s.peer ∨ (r.listen = true ∧ r.cfg.source.port = s.cfg.destination.port ∧
    seg.header.syn = true ∧ seg.header.rst = false)

variable {s r : TCPOverIPv4Adapter} {seg : TCPSegment}

/-- What `related` checks of a segment, and of the addresses of its datagram. -/
theorem related_eq (hr : Expects s r seg) {ip : IPv4Header} {tcpSeg : TCPSegment}
    (hsrc : ip.src = s.cfg.source.ipv4Numeric) (hdst : ip.dst = s.cfg.destination.ipv4Numeric)
    (hsport : tcpSeg.header.sport = s.cfg.source.port)
    (hdport : tcpSeg.header.dport = s.cfg.destination.port)
    (hsyn : tcpSeg.header.syn = seg.header.syn) (hrst : tcpSeg.header.rst = seg.header.rst) :
    r.related ip tcpSeg = (some tcpSeg, s.peer) := by
  rcases hr with rfl | ⟨hlisten, hport, hs, hr⟩
  · have hours : ¬ tcpSeg.header.dport ≠ s.peer.cfg.source.port := not_not.mpr hdport
    have htheirs : ¬ tcpSeg.header.sport ≠ s.peer.cfg.destination.port := not_not.mpr hsport
    unfold related fromPeer
    rw [if_neg hours, if_neg (show ¬ s.peer.listen = true from Bool.false_ne_true), if_neg htheirs]
  · have hopens : tcpSeg.header.syn = true ∧ ¬ tcpSeg.header.rst = true := by
      rw [hsyn, hrst, hs, hr]
      exact ⟨rfl, Bool.false_ne_true⟩
    unfold related fromPeer peer
    rw [if_neg (by rw [hdport, hport]; exact not_not.mpr rfl), if_pos hlisten, if_pos hopens,
      if_neg (not_not.mpr rfl), hsrc, hdst, hport, hsport]

/-- A datagram between the two adapters gets to the segment in it. -/
theorem unwrapTcpInIp_eq (hr : Expects s r seg) (ip : IPv4Header) {buffer : List UInt8}
    (hsrc : ip.src = s.cfg.source.ipv4Numeric) (hdst : ip.dst = s.cfg.destination.ipv4Numeric)
    (hproto : ip.proto = IPv4Header.PROTO_TCP)
    {tcpSeg : TCPSegment} (hparse : TCPSegment.parse {} buffer ip.pseudoCksum =
      (.noError, tcpSeg)) :
    r.unwrapTcpInIp { header := ip, payload := [buffer] } = .ok (r.related ip tcpSeg) := by
  have hours : ¬ (¬ r.listen = true ∧ ip.dst ≠ r.cfg.source.ipv4Numeric) := by
    rintro ⟨hnot, hne⟩
    rcases hr with rfl | ⟨hlisten, -⟩
    · exact hne hdst
    · exact hnot hlisten
  have htheirs : ¬ (¬ r.listen = true ∧ ip.src ≠ r.cfg.destination.ipv4Numeric) := by
    rintro ⟨hnot, hne⟩
    rcases hr with rfl | ⟨hlisten, -⟩
    · exact hne hsrc
    · exact hnot hlisten
  unfold unwrapTcpInIp
  rw [if_neg hours, if_neg htheirs, if_neg (not_not.mpr hproto)]
  change (if (TCPSegment.parse {} buffer ip.pseudoCksum).1 ≠ .noError then _ else _) = _
  rw [hparse, if_neg (not_not.mpr rfl)]
  rfl

theorem ipHeader_writable (s : TCPOverIPv4Adapter) (seg : TCPSegment) :
    (s.ipHeader seg).Writable where
  version := rfl
  words := show 5 ≤ 5 from Nat.le_refl 5
  words_lt := show 5 < 16 by omega
  offset_lt := show 0 < 2 ^ 13 by omega

theorem ipHeader_len (s : TCPOverIPv4Adapter)
    (hlen : 20 + 4 * seg.header.doff.toNat + seg.payload.length ≤ 65535) :
    (s.ipHeader seg).len.toNat =
      4 * (s.ipHeader seg).hlen.toNat + (4 * seg.header.doff.toNat + seg.payload.length) := by
  change (5 * 4 + seg.header.doff.toNat * 4 + seg.payload.length) % 2 ^ 16 = 4 * 5 + _
  omega

/-- The header of the segment on the wire: the ports of the connection, and the checksum. -/
def wireHeader (s : TCPOverIPv4Adapter) (seg : TCPSegment) : TCPHeader :=
  (s.withPorts seg).sealed (s.ipHeader seg).pseudoCksum

/-- The datagram with the segment, whose header and payload are two buffers. -/
def sent (s : TCPOverIPv4Adapter) (seg : TCPSegment) : IPv4Datagram where
  header := s.ipHeader seg
  payload := [(s.wireHeader seg).bytes, seg.payload]

theorem wireHeader_length (hoff : 5 ≤ seg.header.doff.toNat) :
    (s.wireHeader seg).bytes.length = 4 * seg.header.doff.toNat :=
  TCPHeader.bytes_length (h := s.wireHeader seg) hoff

theorem wrapTcpInIp_eq (hoff : 5 ≤ seg.header.doff.toNat) :
    (s.wrapTcpInIp seg).2 = .ok (s.sent seg) := by
  have hlow : ¬ (s.withPorts seg).header.doff < 5 := by
    rw [UInt8.lt_iff_toNat_lt]
    exact Nat.not_lt.mpr hoff
  have hserialize := TCPSegment.serialize_eq hlow (s.ipHeader seg).pseudoCksum
  unfold wrapTcpInIp
  change ((s.withPorts seg).serialize (s.ipHeader seg).pseudoCksum >>= _) = _
  rw [hserialize]
  rfl

theorem write_eq (hoff : 5 ≤ seg.header.doff.toNat)
    (hlen : 20 + 4 * seg.header.doff.toNat + seg.payload.length ≤ 65535) :
    s.write seg = .ok ((s.sent seg).sealed.bytes ++
      ((s.wireHeader seg).bytes ++ seg.payload)) := by
  have hsize : (s.sent seg).payload.size = (s.ipHeader seg).payloadLength.toNat := by
    have hhlen : (s.ipHeader seg).hlen.toNat = 5 := rfl
    rw [IPv4Header.payloadLength_toNat, ipHeader_len s hlen, hhlen]
    unfold sent BufferList.size
    rw [List.foldl_cons, List.foldl_cons, List.foldl_nil, wireHeader_length hoff]
    omega
  have hserialize : (s.sent seg).serialize = .ok ((s.sent seg).sealed.bytes ::
      [(s.wireHeader seg).bytes, seg.payload]) :=
    IPv4Datagram.serialize_eq (s.ipHeader_writable seg) hsize
  unfold write
  rw [wrapTcpInIp_eq hoff]
  change ((s.sent seg).serialize >>= fun buffers => pure buffers.flatten) = _
  rw [hserialize]
  change Except.ok ((s.sent seg).sealed.bytes ++ (_ ++ (seg.payload ++ []))) = _
  rw [List.append_nil]

/-- The checksum of the datagram is not part of the pseudo-header. -/
theorem sealed_pseudoCksum (dgram : IPv4Datagram) :
    dgram.sealed.pseudoCksum = dgram.header.pseudoCksum := by
  unfold IPv4Header.pseudoCksum IPv4Header.payloadLength
  rfl

/-- A segment goes through with the ports of the connection and its checksum. -/
theorem read_write (s : TCPOverIPv4Adapter) (seg : TCPSegment)
    (hoff : 5 ≤ seg.header.doff.toNat) (hlt : seg.header.doff.toNat ≤ 15)
    (hlen : 20 + 4 * seg.header.doff.toNat + seg.payload.length ≤ 65535)
    (hr : Expects s r seg) :
    ∃ bytes, s.write seg = .ok bytes ∧
      r.read bytes =
        .ok (some { header := s.wireHeader seg, payload := seg.payload }, s.peer) := by
  have hfits : 4 * seg.header.doff.toNat + seg.payload.length ≤ 65535 := by omega
  have htotal : (s.sent seg).sealed.len.toNat = 4 * (s.sent seg).sealed.hlen.toNat +
      ((s.wireHeader seg).bytes ++ seg.payload).length := by
    rw [List.length_append, wireHeader_length hoff]
    exact ipHeader_len s hlen
  refine ⟨_, write_eq hoff hlen, ?_⟩
  have hdgram := IPv4Datagram.parse_bytes
    (IPv4Datagram.sealed_writable (s.ipHeader_writable seg)) htotal {}
  have hseg : TCPSegment.parse {} ((s.wireHeader seg).bytes ++ seg.payload)
      (s.ipHeader seg).pseudoCksum =
        (.noError, { header := s.wireHeader seg, payload := seg.payload }) :=
    TCPSegment.parse_sealed (s.withPorts seg) (s.ipHeader seg).pseudoCksum_lt hoff
      (Nat.lt_succ_of_le hlt) hfits {}
  have hunwrap := unwrapTcpInIp_eq hr (s.sent seg).sealed rfl rfl rfl
    ((congrArg _ (sealed_pseudoCksum (s.sent seg))).trans hseg)
  calc r.read _ = r.unwrapTcpInIp { header := (s.sent seg).sealed, payload := [_] } := by
        unfold read
        rw [hdgram]
        rfl
    _ = .ok (r.related (s.sent seg).sealed _) := hunwrap
    _ = _ := congrArg Except.ok (related_eq hr rfl rfl rfl rfl rfl rfl)

/-- A client and the SYN it opens a connection with. -/
def client : TCPOverIPv4Adapter where
  cfg := { source := ⟨0x0a000001, 5000⟩, destination := ⟨0xc0a80001, 80⟩ }

def opening : TCPSegment where
  header := { syn := true, doff := 6, win := 64000 }
  payload := [1, 2, 3]

/-- It reaches a server that listens on all its addresses. -/
theorem read_write_opening :
    ∃ bytes, client.write opening = .ok bytes ∧
      read { cfg := { source := ⟨0, 80⟩ }, listen := true } bytes =
        .ok (some { header := client.wireHeader opening, payload := [1, 2, 3] }, client.peer) :=
  read_write client opening (by decide) (by decide) (by decide) (Or.inr (by decide))

end TCPOverIPv4Adapter

end Sponge
