import Sponge.Adapter.Lossy

/-!
# The adapter over a TUN device

The device hands over every datagram that is routed to it, whatever its addresses.
-/

namespace Sponge.TCPOverIPv4Adapter

open Lib

instance : FdAdapter TCPOverIPv4Adapter (List UInt8) where
  config a := a.cfg
  listening a := a.listen
  reaches _ _ := true
  read := read
  write := write

/-- The header and the segment in a datagram. -/
def carried (bytes : List UInt8) : IPv4Header × TCPSegment :=
  let ipDgram := (IPv4Datagram.parse {} bytes).2
  (ipDgram.header,
    (TCPSegment.parse {} ipDgram.payload.flatten ipDgram.header.pseudoCksum).2)

/-- The address and the port that the segment comes from. -/
def origin (bytes : List UInt8) : SocketAddress :=
  ⟨(carried bytes).1.src, (carried bytes).2.header.sport⟩

/-- The datagram carries a segment that opens a connection. -/
def opens (bytes : List UInt8) : Bool :=
  (carried bytes).2.header.syn && !(carried bytes).2.header.rst

section
variable {a b r r' : TCPOverIPv4Adapter} {bytes : List UInt8} {seg seg' : TCPSegment}

theorem parse_payload (bytes : List UInt8) :
    ∃ buffer, (IPv4Datagram.parse {} bytes).2.payload = [buffer] := by
  unfold IPv4Datagram.parse
  simp only
  split <;> exact ⟨_, rfl⟩

/-- A datagram is dropped by the adapter as it was; or it is from the peer; or the adapter
listens, and takes up the sender. -/
theorem read_cases (a : TCPOverIPv4Adapter) (bytes : List UInt8) :
    a.read bytes = .ok (none, a) ∨ ∃ seg a', a.read bytes = .ok (some seg, a') ∧
      a'.listen = false ∧ origin bytes = a'.cfg.destination ∧
      (a' = a ∨ (a.listen = true ∧ opens bytes = true)) := by
  obtain ⟨buffer, hbuffer⟩ := parse_payload bytes
  have hcarried : carried bytes = ((IPv4Datagram.parse {} bytes).2.header,
      (TCPSegment.parse {} buffer (IPv4Datagram.parse {} bytes).2.header.pseudoCksum).2) := by
    unfold carried
    simp only
    rw [hbuffer, List.flatten_singleton]
  unfold read origin opens
  rw [hcarried]
  clear hcarried
  generalize IPv4Datagram.parse {} bytes = parsed at hbuffer ⊢
  obtain ⟨result, header, payload⟩ := parsed
  obtain rfl : payload = [buffer] := hbuffer
  by_cases hresult : result ≠ .noError
  · exact .inl (if_pos hresult)
  rw [if_neg hresult]
  rcases unwrapTcpInIp_cases a header buffer with heq | ⟨seg, hp, heq⟩
  · exact .inl heq
  simp only [hp.parsed, heq]
  rcases related_cases a header seg with hr | ⟨hr, hconn, hdport, hsport⟩ |
    ⟨hr, hlisten, hopens, hdport⟩
  · exact .inl (congrArg Except.ok hr)
  · exact .inr ⟨seg, a, congrArg Except.ok hr, hconn,
      SocketAddress.eq_of (hp.src hconn) hsport, .inl rfl⟩
  · exact .inr ⟨seg, _, congrArg Except.ok hr, rfl, rfl, .inr ⟨hlisten, by
      rw [hopens.1, hopens.2]
      rfl⟩⟩

/-- What is written is taken out of the datagram again, by an adapter that expects it. -/
theorem read_sent (hfit : seg.FitsDatagram) (hw : a.write seg = .ok bytes)
    (hread : r.read bytes = .ok (some seg', r')) :
    seg' = a.arrived seg ∧ Expects a r seg ∧ r' = a.peer := by
  obtain ⟨payload, hserialize, hresult, ht⟩ := (transports_sent a seg).serialize hfit
  have hbytes : a.write seg = .ok payload.flatten := by
    unfold write
    rw [wrapTcpInIp_eq hfit.words]
    change ((a.sent seg).serialize >>= _) = _
    rw [hserialize]
    rfl
  obtain rfl := Except.ok.inj (hw.symm.trans hbytes)
  obtain ⟨buffer, hbuffer⟩ := parse_payload payload.flatten
  unfold read at hread
  simp only at hread
  rw [if_neg (not_not.mpr hresult)] at hread
  exact ht.accepted hfit hbuffer hread

instance : LawfulFdAdapter TCPOverIPv4Adapter (List UInt8) where
  origin := origin
  opens := opens
  read_cases := read_cases
  Apart := NoEcho
  read_own {a r _ bytes} hecho hfit hw _ := by
    rcases r.read_cases bytes with heq | ⟨seg', r', heq, -⟩
    · exact heq
    · exact absurd (read_sent hfit hw heq).2.1 hecho.not_expects
  read_other hecho hfit hw _ hread := by
    obtain ⟨rfl, hexp, rfl⟩ := read_sent hfit hw hread
    exact ⟨alike_arrived .., hecho.peer, fun c hc => hc.connect hexp⟩

end

end Sponge.TCPOverIPv4Adapter
