import Sponge.Wire.TCPOverIP

/-!
# The adapter as a filter

`unwrapTcpInIp` either drops a datagram and is the adapter it was, or returns the
segment of a datagram that fits the configuration it then has (`Fits`). A listening
adapter records the peer between two of its checks. The check behind that compares
the port of the segment with the one just recorded (`fromPeer_recorded`), so that it
does not drop what has changed the adapter.
-/

namespace Sponge.TCPOverIPv4Adapter

/-- The datagram carries `seg`, and its addresses and ports are those of the connected
adapter `a`. -/
structure Fits (a : TCPOverIPv4Adapter) (header : IPv4Header) (buffer : List UInt8)
    (seg : TCPSegment) : Prop where
  proto : header.proto = IPv4Header.PROTO_TCP
  parsed : TCPSegment.parse {} buffer header.pseudoCksum = (.noError, seg)
  connected : a.listen = false
  dst : header.dst = a.cfg.source.ipv4Numeric
  src : header.src = a.cfg.destination.ipv4Numeric
  dport : seg.header.dport = a.cfg.source.port
  sport : seg.header.sport = a.cfg.destination.port

/-- What passes the checks in front of `related`. -/
structure Parsed (a : TCPOverIPv4Adapter) (header : IPv4Header) (buffer : List UInt8)
    (seg : TCPSegment) : Prop where
  dst : a.listen = false → header.dst = a.cfg.source.ipv4Numeric
  src : a.listen = false → header.src = a.cfg.destination.ipv4Numeric
  proto : header.proto = IPv4Header.PROTO_TCP
  parsed : TCPSegment.parse {} buffer header.pseudoCksum = (.noError, seg)

/-- The segment opens a connection. -/
def Opens (seg : TCPSegment) : Prop := seg.header.syn = true ∧ seg.header.rst = false

variable (a : TCPOverIPv4Adapter) (header : IPv4Header) (buffer : List UInt8) (seg : TCPSegment)

/-- A datagram is dropped, or its segment goes on to `related`. -/
theorem unwrapTcpInIp_cases :
    a.unwrapTcpInIp { header := header, payload := [buffer] } = .ok (none, a) ∨
      ∃ seg, Parsed a header buffer seg ∧
        a.unwrapTcpInIp { header := header, payload := [buffer] } =
          .ok (a.related header seg) := by
  unfold unwrapTcpInIp
  by_cases hours : ¬ a.listen = true ∧ header.dst ≠ a.cfg.source.ipv4Numeric
  · exact .inl (if_pos hours)
  by_cases htheirs : ¬ a.listen = true ∧ header.src ≠ a.cfg.destination.ipv4Numeric
  · exact .inl (by rw [if_neg hours, if_pos htheirs])
  by_cases hproto : header.proto ≠ IPv4Header.PROTO_TCP
  · exact .inl (by rw [if_neg hours, if_neg htheirs, if_pos hproto])
  rw [if_neg hours, if_neg htheirs, if_neg hproto]
  change (if (TCPSegment.parse {} buffer header.pseudoCksum).1 ≠ .noError then _ else _) = _ ∨
    ∃ seg, _ ∧ (if (TCPSegment.parse {} buffer header.pseudoCksum).1 ≠ .noError then _ else _) = _
  rcases hparse : TCPSegment.parse {} buffer header.pseudoCksum with ⟨result, seg⟩
  by_cases hresult : result ≠ .noError
  · exact .inl (if_pos hresult)
  · rw [if_neg hresult]
    refine .inr ⟨seg, ?_, rfl⟩
    exact {
      dst := fun hconn => not_not.mp fun hne => hours ⟨by simp [hconn], hne⟩
      src := fun hconn => not_not.mp fun hne => htheirs ⟨by simp [hconn], hne⟩
      proto := not_not.mp hproto
      parsed := by rw [hparse, not_not.mp hresult] }

/-- The last check does not drop the segment whose port has just been recorded. -/
theorem fromPeer_recorded (source : SocketAddress) (ip : UInt32) :
    fromPeer { cfg := ⟨source, ⟨ip, seg.header.sport⟩⟩, listen := false } seg =
      (some seg, { cfg := ⟨source, ⟨ip, seg.header.sport⟩⟩, listen := false }) :=
  if_neg (not_not.mpr rfl)

/-- A segment is dropped by the adapter as it was; or the adapter is connected and stays
as it is; or it listens, and records the peer that opens a connection. -/
theorem related_cases :
    a.related header seg = (none, a) ∨
      (a.related header seg = (some seg, a) ∧ a.listen = false ∧
        seg.header.dport = a.cfg.source.port ∧ seg.header.sport = a.cfg.destination.port) ∨
      (a.related header seg = (some seg,
          { cfg := ⟨⟨header.dst, a.cfg.source.port⟩, ⟨header.src, seg.header.sport⟩⟩
            listen := false }) ∧
        a.listen = true ∧ Opens seg ∧ seg.header.dport = a.cfg.source.port) := by
  unfold related
  by_cases hdport : seg.header.dport ≠ a.cfg.source.port
  · exact .inl (if_pos hdport)
  rw [if_neg hdport]
  cases hlisten : a.listen with
  | true =>
    rw [if_pos rfl]
    by_cases hopens : seg.header.syn = true ∧ ¬ seg.header.rst = true
    · rw [if_pos hopens]
      exact .inr (.inr ⟨fromPeer_recorded seg _ _, rfl,
        ⟨hopens.1, Bool.eq_false_iff.mpr hopens.2⟩, not_not.mp hdport⟩)
    · exact .inl (if_neg hopens)
  | false =>
    rw [if_neg Bool.false_ne_true]
    by_cases hsport : seg.header.sport ≠ a.cfg.destination.port
    · exact .inl (if_pos hsport)
    · exact .inr (.inl ⟨if_neg hsport, rfl, not_not.mp hdport, not_not.mp hsport⟩)

/-- **The adapter filters atomically.** A datagram that is dropped leaves the adapter as it
was. A segment that is returned fits the adapter behind it, which differs from the one
before only when that was listening and the segment opens a connection. -/
theorem unwrapTcpInIp_atomic :
    ∃ result a', a.unwrapTcpInIp { header := header, payload := [buffer] } = .ok (result, a') ∧
      (result = none → a' = a) ∧
      ∀ seg, result = some seg → Fits a' header buffer seg ∧
        (a' ≠ a → a.listen = true ∧ Opens seg) := by
  rcases unwrapTcpInIp_cases a header buffer with heq | ⟨seg, hp, heq⟩
  · exact ⟨none, a, heq, fun _ => rfl, fun _ h => nomatch h⟩
  rcases related_cases a header seg with hr | ⟨hr, hconn, hdport, hsport⟩ |
    ⟨hr, hlisten, hopens, hdport⟩
  · exact ⟨none, a, by rw [heq, hr], fun _ => rfl, fun _ h => nomatch h⟩
  · refine ⟨some seg, a, by rw [heq, hr], (fun h => nomatch h), ?_⟩
    rintro _ ⟨⟩
    exact ⟨⟨hp.proto, hp.parsed, hconn, hp.dst hconn, hp.src hconn, hdport, hsport⟩,
      fun hne => absurd rfl hne⟩
  · refine ⟨some seg, _, by rw [heq, hr], (fun h => nomatch h), ?_⟩
    rintro _ ⟨⟩
    exact ⟨⟨hp.proto, hp.parsed, rfl, rfl, rfl, hdport, rfl⟩, fun _ => ⟨hlisten, hopens⟩⟩

end Sponge.TCPOverIPv4Adapter
