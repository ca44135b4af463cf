import Sponge.Wire.Encapsulation
import Sponge.Wire.Filter

/-!
# A segment on its way

`a.Transports seg dgram`: the datagram is the one that the adapter `a` makes for
`seg`, up to what may change on the way: the time to live, the checksum, and how
the payload is cut into buffers. It can be written and parsed again as often as
there are hops. An adapter that accepts a segment from it accepts `seg`, and is
then connected to `a` (`Transports.accepted`). The host that sent it does not take
it for one of its peer (`NoEcho`).
-/

namespace Sponge

open Lib

/-- The segment fits a datagram. -/
structure TCPSegment.FitsDatagram (seg : TCPSegment) : Prop where
  words : 5 ≤ seg.header.doff.toNat
  words_le : seg.header.doff.toNat ≤ 15
  length : 20 + 4 * seg.header.doff.toNat + seg.payload.length ≤ 65535

theorem SocketAddress.eq_of {x y : SocketAddress} (h : x.ipv4Numeric = y.ipv4Numeric)
    (h' : x.port = y.port) : x = y := by
  cases x
  cases y
  simp_all

namespace TCPOverIPv4Adapter

structure Transports (a : TCPOverIPv4Adapter) (seg : TCPSegment) (dgram : IPv4Datagram) :
    Prop where
  header : ∃ ttl cksum, dgram.header = { a.ipHeader seg with ttl := ttl, cksum := cksum }
  payload : dgram.payload.flatten = (a.wireHeader seg).bytes ++ seg.payload

/-- What is taken off the wire for `seg`. -/
def arrived (a : TCPOverIPv4Adapter) (seg : TCPSegment) : TCPSegment where
  header := a.wireHeader seg
  payload := seg.payload

section
variable {a r r' : TCPOverIPv4Adapter} {seg seg' : TCPSegment} {dgram : IPv4Datagram}

theorem transports_sent (a : TCPOverIPv4Adapter) (seg : TCPSegment) :
    a.Transports seg (a.sent seg) where
  header := ⟨_, _, rfl⟩
  payload := by simp [sent]

namespace Transports

theorem writable (h : a.Transports seg dgram) : dgram.header.Writable := by
  obtain ⟨ttl, cksum, heq⟩ := h.header
  rw [heq]
  have hw := a.ipHeader_writable seg
  exact ⟨hw.version, hw.words, hw.words_lt, hw.offset_lt⟩

theorem size (h : a.Transports seg dgram) (hfit : seg.FitsDatagram) :
    dgram.payload.size = 4 * seg.header.doff.toNat + seg.payload.length := by
  rw [BufferList.size_eq, h.payload, List.length_append, wireHeader_length hfit.words]

theorem len (h : a.Transports seg dgram) (hfit : seg.FitsDatagram) :
    dgram.header.len.toNat = 4 * dgram.header.hlen.toNat + dgram.payload.size := by
  obtain ⟨ttl, cksum, heq⟩ := h.header
  rw [h.size hfit, heq]
  exact ipHeader_len a hfit.length

/-- The pseudo-header is that of the sender. -/
theorem pseudoCksum (h : a.Transports seg dgram) :
    dgram.header.pseudoCksum = (a.ipHeader seg).pseudoCksum := by
  obtain ⟨ttl, cksum, heq⟩ := h.header
  rw [heq]
  unfold IPv4Header.pseudoCksum IPv4Header.payloadLength
  rfl

/-- It can be written, and is still transported when it is parsed again. -/
theorem serialize (h : a.Transports seg dgram) (hfit : seg.FitsDatagram) :
    ∃ payload, dgram.serialize = .ok payload ∧
      (IPv4Datagram.parse {} payload.flatten).1 = .noError ∧
      a.Transports seg (IPv4Datagram.parse {} payload.flatten).2 := by
  have hlen := h.len hfit
  have hlt := dgram.header.len.toNat_lt
  have hsize : dgram.payload.size = dgram.header.payloadLength.toNat := by
    rw [IPv4Header.payloadLength_toNat]
    omega
  have htotal : dgram.sealed.len.toNat =
      4 * dgram.sealed.hlen.toNat + dgram.payload.flatten.length := by
    rw [← BufferList.size_eq]
    exact hlen
  have hparse := IPv4Datagram.parse_bytes (IPv4Datagram.sealed_writable h.writable) htotal {}
  refine ⟨_, IPv4Datagram.serialize_eq h.writable hsize, ?_⟩
  rw [List.flatten_cons, hparse]
  obtain ⟨ttl, cksum, heq⟩ := h.header
  refine ⟨rfl, ⟨ttl, dgram.sealed.cksum, ?_⟩, ?_⟩
  · change { dgram.header with cksum := dgram.sealed.cksum } = _
    rw [heq]
  · rw [List.flatten_singleton]
    exact h.payload

/-- The segment in it. -/
theorem parse (h : a.Transports seg dgram) (hfit : seg.FitsDatagram) {buffer : List UInt8}
    (hbuffer : dgram.payload = [buffer]) :
    TCPSegment.parse {} buffer dgram.header.pseudoCksum = (.noError, a.arrived seg) := by
  have hpay := h.payload
  rw [hbuffer, List.flatten_singleton] at hpay
  have hlength := hfit.length
  rw [h.pseudoCksum, hpay]
  exact TCPSegment.parse_sealed (a.withPorts seg) (a.ipHeader seg).pseudoCksum_lt hfit.words
    (Nat.lt_succ_of_le hfit.words_le)
    (show 4 * seg.header.doff.toNat + seg.payload.length ≤ 65535 by omega) {}

theorem addresses (h : a.Transports seg dgram) :
    dgram.header.src = a.cfg.source.ipv4Numeric ∧
      dgram.header.dst = a.cfg.destination.ipv4Numeric := by
  obtain ⟨ttl, cksum, heq⟩ := h.header
  rw [heq]
  exact ⟨rfl, rfl⟩

end Transports

/-- A segment that an adapter accepts from the datagram is the one that was sent, by an adapter
to which it is connected from then on. -/
theorem Transports.accepted (h : a.Transports seg dgram) (hfit : seg.FitsDatagram)
    {buffer : List UInt8} (hbuffer : dgram.payload = [buffer])
    (hr : r.unwrapTcpInIp dgram = .ok (some seg', r')) :
    seg' = a.arrived seg ∧ Expects a r seg ∧ r' = a.peer := by
  obtain ⟨hsrc, hdst⟩ := h.addresses
  have hdgram : dgram = { header := dgram.header, payload := [buffer] } := by rw [← hbuffer]
  rw [hdgram] at hr
  rcases unwrapTcpInIp_cases r dgram.header buffer with heq | ⟨got, hp, heq⟩
  · rw [heq] at hr
    cases hr
  · rw [heq] at hr
    have hgot : got = a.arrived seg :=
      congrArg Prod.snd (hp.parsed.symm.trans (h.parse hfit hbuffer))
    rcases related_cases r dgram.header got with hrel | ⟨hrel, hconn, hdport, hsport⟩ |
      ⟨hrel, hlisten, hopens, hdport⟩
    · rw [hrel] at hr
      cases hr
    · rw [hrel] at hr
      obtain ⟨hseg, rfl⟩ := Prod.mk.inj (Except.ok.inj hr)
      obtain rfl := Option.some.inj hseg
      rw [hgot] at hdport hsport
      have hpeer : r = a.peer := by
        have hd := (hp.dst hconn).symm.trans hdst
        have hs := (hp.src hconn).symm.trans hsrc
        obtain ⟨⟨source, destination⟩, listen⟩ := r
        simp only at hconn hd hs hdport hsport ⊢
        rw [hconn, SocketAddress.eq_of hd hdport.symm, SocketAddress.eq_of hs hsport.symm]
        rfl
      exact ⟨hgot, .inl hpeer, hpeer⟩
    · rw [hrel] at hr
      obtain ⟨hseg, rfl⟩ := Prod.mk.inj (Except.ok.inj hr)
      obtain rfl := Option.some.inj hseg
      rw [hgot] at hdport hopens ⊢
      refine ⟨rfl, .inr ⟨hlisten, hdport.symm, hopens⟩, ?_⟩
      rw [hsrc, hdst, ← hdport]
      rfl

end

end TCPOverIPv4Adapter

/-! ## No echo -/

open TCPOverIPv4Adapter (Expects)

/-- What `a` sends is not accepted by `r`, which has the same port: it goes to another port, or
`a` is `r` and is connected to another host. -/
def NoEcho (a r : TCPOverIPv4Adapter) : Prop :=
  a.cfg.source.port = r.cfg.source.port ∧
    (a.cfg.destination.port ≠ a.cfg.source.port ∨
      (a = r ∧ r.listen = false ∧ r.cfg.source ≠ r.cfg.destination))

instance (a r : TCPOverIPv4Adapter) : Decidable (NoEcho a r) := inferInstanceAs (Decidable (_ ∧ _))

section
variable {a b r : TCPOverIPv4Adapter} {seg : TCPSegment}

theorem NoEcho.not_expects (h : NoEcho a r) : ¬ Expects a r seg := by
  obtain ⟨hport, hne⟩ := h
  rintro (rfl | ⟨hlisten, hport', -⟩)
  · rcases hne with hne | ⟨heq, -, hne⟩
    · exact hne hport.symm
    · apply hne
      rw [← heq]
      exact (congrArg (fun r => r.cfg.destination) heq).symm
  · rcases hne with hne | ⟨-, hconn, -⟩
    · exact hne (hport'.symm.trans hport.symm)
    · rw [hconn] at hlisten
      cases hlisten

/-- An adapter that takes up a connection to `a` still does not accept what it has sent. -/
theorem NoEcho.connect (h : NoEcho b r) (hr : Expects a r seg) : NoEcho b a.peer := by
  rcases hr with rfl | ⟨hlisten, hport, -⟩
  · exact h
  · refine ⟨h.1.trans hport, ?_⟩
    rcases h.2 with hne | ⟨-, hconn, -⟩
    · exact .inl hne
    · rw [hconn] at hlisten
      cases hlisten

/-- Nor what it will send. -/
theorem NoEcho.peer (h : NoEcho a r) : NoEcho a.peer a.peer := by
  refine ⟨rfl, ?_⟩
  rcases h.2 with hne | ⟨rfl, -, hne⟩
  · exact .inl fun heq => hne heq.symm
  · exact .inr ⟨rfl, rfl, fun heq => hne heq.symm⟩

end

end Sponge
