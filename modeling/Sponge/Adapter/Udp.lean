import Sponge.Adapter.Lossy

/-!
# The adapter over UDP

A UDP socket hands over the datagrams that are addressed to it. The ports in the
segment are written and never looked at: what counts is where the datagram comes
from.
-/

namespace Sponge

open Lib

structure UDPDatagram where
  sourceAddress : SocketAddress
  destination : SocketAddress
  payload : List UInt8
  deriving DecidableEq, Repr

/-- The socket has the address that its datagrams come from. -/
structure UDPSocket where
  address : SocketAddress
  deriving DecidableEq, Repr

def UDPSocket.sendto (sock : UDPSocket) (destination : SocketAddress) (payload : BufferList) :
    UDPDatagram where
  sourceAddress := sock.address
  destination := destination
  payload := payload.flatten

structure TCPOverUDPSocketAdapter where
  cfg : FdAdapterConfig := {}
  listen : Bool := false
  sock : UDPSocket
  deriving DecidableEq, Repr

namespace TCPOverUDPSocketAdapter

/-- What a read of this datagram returns, and the adapter behind it. -/
def read (a : TCPOverUDPSocketAdapter) (datagram : UDPDatagram) :
    Option TCPSegment × TCPOverUDPSocketAdapter :=
  if ¬ a.listen ∧ datagram.sourceAddress ≠ a.cfg.destination then (none, a)
  else
    let seg := TCPSegment.parse {} datagram.payload 0
    if seg.1 ≠ .noError then (none, a)
    else if a.listen then
      if seg.2.header.syn ∧ ¬ seg.2.header.rst then
        (some seg.2, { a with
          cfg := { a.cfg with destination := datagram.sourceAddress }
          listen := false })
      else (none, a)
    else (some seg.2, a)

/-- The segment with the ports of the connection. -/
def withPorts (a : TCPOverUDPSocketAdapter) (seg : TCPSegment) : TCPSegment :=
  { seg with
    header := { seg.header with sport := a.cfg.source.port, dport := a.cfg.destination.port } }

def write (a : TCPOverUDPSocketAdapter) (seg : TCPSegment) : Except String UDPDatagram := do
  let payload ← (a.withPorts seg).serialize 0
  return a.sock.sendto a.cfg.destination payload

instance : FdAdapter TCPOverUDPSocketAdapter UDPDatagram where
  config a := a.cfg
  listening a := a.listen
  reaches a datagram := datagram.destination = a.sock.address
  read a datagram := .ok (a.read datagram)
  write := write

/-- The datagram carries a segment that opens a connection. -/
def opens (datagram : UDPDatagram) : Bool :=
  let seg := TCPSegment.parse {} datagram.payload 0
  decide (seg.1 = .noError) && seg.2.header.syn && !seg.2.header.rst

section
variable {a b r r' : TCPOverUDPSocketAdapter} {datagram : UDPDatagram} {seg seg' : TCPSegment}

/-- A datagram is dropped by the adapter as it was; or it is from the peer; or the adapter
listens, and takes up the sender. -/
theorem read_cases (a : TCPOverUDPSocketAdapter) (datagram : UDPDatagram) :
    a.read datagram = (none, a) ∨ ∃ seg,
      TCPSegment.parse {} datagram.payload 0 = (.noError, seg) ∧
      ((a.read datagram = (some seg, a) ∧ a.listen = false ∧
          datagram.sourceAddress = a.cfg.destination) ∨
        (a.read datagram = (some seg, { a with
            cfg := { a.cfg with destination := datagram.sourceAddress }
            listen := false }) ∧ a.listen = true ∧ opens datagram = true)) := by
  unfold read opens
  by_cases hsource : ¬ a.listen = true ∧ datagram.sourceAddress ≠ a.cfg.destination
  · exact .inl (if_pos hsource)
  rw [if_neg hsource]
  rcases TCPSegment.parse {} datagram.payload 0 with ⟨result, seg⟩
  by_cases hresult : result ≠ .noError
  · exact .inl (if_pos hresult)
  obtain rfl := not_not.mp hresult
  rw [if_neg hresult]
  cases hlisten : a.listen with
  | true =>
    by_cases hopens : seg.header.syn = true ∧ ¬ seg.header.rst = true
    · refine .inr ⟨seg, rfl, .inr ⟨?_, rfl, ?_⟩⟩
      · rw [if_pos rfl, if_pos hopens]
      · simp [hopens.1, hopens.2]
    · left
      rw [if_pos rfl, if_neg hopens]
  | false =>
    refine .inr ⟨seg, rfl, .inl ⟨if_neg Bool.false_ne_true, rfl, ?_⟩⟩
    exact not_not.mp fun hne => hsource ⟨by simp [hlisten], hne⟩

/-- What is written can be parsed again. -/
theorem write_spec (hfit : seg.FitsDatagram) (hw : a.write seg = .ok datagram) :
    datagram.sourceAddress = a.sock.address ∧ datagram.destination = a.cfg.destination ∧
      TCPSegment.parse {} datagram.payload 0 =
        (.noError, { header := (a.withPorts seg).sealed 0, payload := seg.payload }) := by
  have hwords := hfit.words
  have hlength := hfit.length
  have hoff : ¬ (a.withPorts seg).header.doff < 5 := by
    rw [UInt8.lt_iff_toNat_lt, not_lt]
    exact hwords
  rw [write, TCPSegment.serialize_eq hoff] at hw
  obtain rfl := Except.ok.inj hw
  refine ⟨rfl, rfl, ?_⟩
  have hparse := TCPSegment.parse_sealed (a.withPorts seg) (c := 0)
    (show (0 : Nat) < 2 ^ 20 by omega) hwords (Nat.lt_succ_of_le hfit.words_le)
    (show 4 * seg.header.doff.toNat + seg.payload.length ≤ 65535 by omega) {}
  change TCPSegment.parse {} (([_, _] : BufferList).flatten) 0 = _
  rw [List.flatten_cons, List.flatten_singleton]
  exact hparse

/-- The adapters are of one host, which is not connected to itself. -/
def NoEcho (a r : TCPOverUDPSocketAdapter) : Prop :=
  a.sock = r.sock ∧ a.cfg.destination ≠ a.sock.address

instance (a r : TCPOverUDPSocketAdapter) : Decidable (NoEcho a r) :=
  inferInstanceAs (Decidable (_ ∧ _))

/-- What one host sends the other accepts as it was sent; it is then connected to that host. -/
theorem read_sent (hecho : NoEcho a b) (hfit : seg.FitsDatagram) (hw : a.write seg = .ok datagram)
    (hreach : datagram.destination = r.sock.address)
    (hread : r.read datagram = (some seg', r')) :
    Alike seg seg' ∧ NoEcho r' r' ∧ r'.sock = r.sock := by
  obtain ⟨hsource, hdest, hparse⟩ := write_spec hfit hw
  have hne : datagram.sourceAddress ≠ r.sock.address := by
    rw [hsource, ← hreach, hdest]
    exact hecho.2.symm
  have halike : ∀ got, TCPSegment.parse {} datagram.payload 0 = (.noError, got) →
      Alike seg got := by
    intro got hgot
    rw [hparse] at hgot
    obtain rfl : _ = got := congrArg Prod.snd hgot
    exact ⟨_, _, _, rfl⟩
  rcases r.read_cases datagram with heq | ⟨got, hgot, ⟨heq, hconn, hfrom⟩ | ⟨heq, -, -⟩⟩
  · rw [heq] at hread
    cases hread
  · rw [heq] at hread
    obtain ⟨hseg, rfl⟩ := Prod.mk.inj hread
    obtain rfl := Option.some.inj hseg
    refine ⟨halike got hgot, ⟨rfl, ?_⟩, rfl⟩
    rw [← hfrom]
    exact hne
  · rw [heq] at hread
    obtain ⟨hseg, rfl⟩ := Prod.mk.inj hread
    obtain rfl := Option.some.inj hseg
    exact ⟨halike got hgot, ⟨rfl, hne⟩, rfl⟩

instance : LawfulFdAdapter TCPOverUDPSocketAdapter UDPDatagram where
  origin datagram := datagram.sourceAddress
  opens := opens
  read_cases a datagram := by
    rcases a.read_cases datagram with heq | ⟨seg, -, ⟨heq, hconn, hfrom⟩ | ⟨heq, hlisten, hopens⟩⟩
    · exact .inl (congrArg Except.ok heq)
    · exact .inr ⟨seg, a, congrArg Except.ok heq, hconn, hfrom, .inl rfl⟩
    · exact .inr ⟨seg, _, congrArg Except.ok heq, rfl, rfl, .inr ⟨hlisten, hopens⟩⟩
  Apart := NoEcho
  read_own hecho hfit hw hreach := by
    obtain ⟨-, hdest, -⟩ := write_spec hfit hw
    refine absurd ?_ hecho.2
    rw [← hdest, of_decide_eq_true hreach, hecho.1]
  read_other hecho hfit hw hreach hread := by
    obtain ⟨halike, hself, hsock⟩ := read_sent hecho hfit hw (of_decide_eq_true hreach)
      (Except.ok.inj hread)
    exact ⟨halike, hself, fun c hc => ⟨hc.1.trans hsock.symm, hc.2⟩⟩

end

end TCPOverUDPSocketAdapter

open LossyFdAdapter (hears)

/-- **One peer over UDP.** Whatever comes in and whichever of it is dropped: all segments that the
adapter returns come from one address, the destination it ends up with; and nothing changes it
but a SYN without RST from there, while it listens. -/
theorem udp_onePeer (a : LossyFdAdapter TCPOverUDPSocketAdapter)
    (datagrams : List (UDPDatagram × UInt32)) :
    Along hears (fun b d =>
      (∀ seg ∈ b.returned d,
        d.1.sourceAddress = (run hears a datagrams).adapter.cfg.destination) ∧
      (b.hears d = b ∨ (b.adapter.listen = true ∧ TCPOverUDPSocketAdapter.opens d.1 = true ∧
        d.1.sourceAddress = (run hears a datagrams).adapter.cfg.destination))) a datagrams :=
  a.reads_onePeer datagrams

end Sponge
