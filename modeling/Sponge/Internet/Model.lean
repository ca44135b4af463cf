import Sponge.Adapter.Ethernet
import Sponge.Network.Model
import Sponge.Router.Model

/-!
# Two hosts on an internet

Each host is a connection with its adapter over Ethernet, and between them there
are any number of routers with any tables. All frames ever put on a link are kept
as bytes in `wire`; a reception picks any of them, at any host or any interface
of any router, any number of times or never. This covers every topology, and
links that lose, repeat, reorder and flood.

An event whose call goes on from an erased position has no result, and is left
out of the run. One whose call throws leaves what it has done so far.
-/

namespace Sponge

/-- Receive a frame; a datagram in it waits to be routed. -/
def AsyncNetworkInterface.recvFrame (s : AsyncNetworkInterface) (frame : EthernetFrame) :
    Outcome × AsyncNetworkInterface :=
  let received := s.interface.recvFrame frame
  match received.1 with
  | .returned (some dgram) => (.returned none,
      { s with interface := received.2, datagramsOut := s.datagramsOut ++ [dgram] })
  | outcome => (outcome, { s with interface := received.2 })

namespace Router

/-- The interface `n` handles a frame with these bytes. -/
def recvFrame (r : Router) (n : Nat) (bytes : List UInt8) : Outcome × Router :=
  let frame := EthernetFrame.parse {} bytes
  if frame.1 ≠ .noError then (.returned none, r)
  else
    match r.interfaces[n]? with
    | none => (.threw "vector::_M_range_check", r)
    | some iface =>
      let received := iface.recvFrame frame.2
      (received.1, { r with interfaces := r.interfaces.set n received.2 })

def tick (r : Router) (n msSinceLastTick : Nat) : Outcome × Router :=
  match r.interfaces[n]? with
  | none => (.threw "vector::_M_range_check", r)
  | some iface =>
    let ticked := iface.interface.tick msSinceLastTick
    (ticked.1, { r with interfaces := r.interfaces.set n { iface with interface := ticked.2 } })

/-- The frames that the interfaces have pushed, in their order. -/
def framesOut (r : Router) : List EthernetFrame := r.interfaces.flatMap (·.interface.framesOut)

/-- The owner has taken the frames. -/
def clearFrames (r : Router) : Router :=
  { r with interfaces := r.interfaces.map fun iface =>
      { iface with interface := { iface.interface with framesOut := [] } } }

/-- A router that has not received or pushed anything, with any tables. -/
def Idle (r : Router) : Prop :=
  ∀ iface ∈ r.interfaces, iface.datagramsOut = [] ∧ iface.interface.framesOut = [] ∧
    iface.interface.dgramStage = []

instance (r : Router) : Decidable r.Idle := inferInstanceAs (Decidable (∀ iface ∈ _, _))

end Router

/-- How a host is set up. -/
structure HostConfig where
  tcp : TCPConfig := {}
  random : UInt32 := 0
  ethAddress : EthernetAddress
  ipAddress : Address
  nextHop : Address
  adapter : TCPOverIPv4Adapter

structure Host where
  endpoint : Endpoint
  /-- What the connection has enqueued and the adapter has not written yet. -/
  segmentsOut : List TCPSegment := []
  adapter : TCPOverIPv4OverEthernetAdapter

namespace Host

def mk? (cfg : HostConfig) : Option Host := do
  let conn ← TCPConnection.mk? cfg.tcp cfg.random
  return {
    endpoint := { conn := conn }
    adapter := { TCPOverIPv4OverEthernetAdapter.new cfg.ethAddress cfg.ipAddress cfg.nextHop with
      toTCPOverIPv4Adapter := cfg.adapter } }

def call (h : Host) (op : TCPConnection.Op) (heard : Nat) : Host :=
  { h with
    endpoint := h.endpoint.step op heard
    segmentsOut := h.segmentsOut ++ (h.endpoint.conn.step op).segmentsOut }

/-- A frame is ready to be read. -/
def receive (h : Host) (bytes : List UInt8) (heard : Nat) : Except Fault Unit × Host :=
  match h.adapter.read bytes with
  | (.error fault, adapter) => (.error fault, { h with adapter := adapter })
  | (.ok none, adapter) => (.ok (), { h with adapter := adapter })
  | (.ok (some seg), adapter) =>
    (.ok (), { h with adapter := adapter }.call (.segmentReceived seg) heard)

/-- The loop that writes what has been enqueued; what has not been written is left. -/
def flushLoop : List TCPSegment → TCPOverIPv4OverEthernetAdapter →
    Except Fault Unit × List TCPSegment × TCPOverIPv4OverEthernetAdapter
  | [], adapter => (.ok (), [], adapter)
  | seg :: segs, adapter =>
    match adapter.write seg with
    | (.ok (), adapter) => flushLoop segs adapter
    | (.error fault, adapter) => (.error fault, seg :: segs, adapter)

def flush (h : Host) : Except Fault Unit × Host :=
  let flushed := flushLoop h.segmentsOut h.adapter
  (flushed.1, { h with segmentsOut := flushed.2.1, adapter := flushed.2.2 })

/-- The adapter is told the time. -/
def age (h : Host) (ms : Nat) : Except Fault Unit × Host :=
  let ticked := h.adapter.tick ms
  (ticked.1, { h with adapter := ticked.2 })

end Host

structure Internet where
  a : Host
  b : Host
  routers : List Router := []
  wire : List (List UInt8) := []

namespace Internet

/-- A call of an application, a tick of a connection, a flush of its queue, a tick of an adapter,
the reception of the `k`-th frame; and for the interface `n` of the router `i` a reception and a
tick, and the routing of what the router has received. -/
inductive Event where
  | connect (x : Side)
  | write (x : Side) (data : List UInt8)
  | endInputStream (x : Side)
  | tick (x : Side) (ms : Nat)
  | read (x : Side) (n : Nat)
  | flush (x : Side)
  | age (x : Side) (ms : Nat)
  | receive (x : Side) (k : Nat)
  | arrive (i n k : Nat)
  | route (i : Nat)
  | ageRouter (i n ms : Nat)
  deriving DecidableEq, Repr

def host (s : Internet) : Side → Host
  | .a => s.a
  | .b => s.b

/-- The two connections. -/
def system (s : Internet) : System where
  a := s.a.endpoint
  b := s.b.endpoint

/-- What the other side of `x` has had acknowledged. -/
def heard (s : Internet) (x : Side) : Nat := (s.host x.other).endpoint.conn.sender.receiveAck

/-- The host after an event, with what it wrote to its device on the wire. -/
def setHost (s : Internet) (x : Side) (h : Host) : Internet :=
  let host := { h with adapter := { h.adapter with tap := [] } }
  match x with
  | .a => { s with a := host, wire := s.wire ++ h.adapter.tap }
  | .b => { s with b := host, wire := s.wire ++ h.adapter.tap }

def setRouter (s : Internet) (i : Nat) (r : Router) : Internet :=
  { s with
    routers := s.routers.set i r.clearFrames
    wire := s.wire ++ r.framesOut.map EthernetFrame.bytes }

/-- Both hosts are set up, and prime their devices. -/
def mk? (cfgA cfgB : HostConfig) (routers : List Router) : Option Internet := do
  let a ← Host.mk? cfgA
  let b ← Host.mk? cfgB
  return (setHost { a := a, b := b, routers := routers } .a a).setHost .b b

/-- The host after a call, if that has a result. -/
def hostAfter (s : Internet) (x : Side) : Except Fault Unit × Host → Internet
  | (.error .erasedAccess, _) => s
  | (.error (.threw _), h) | (.ok (), h) => s.setHost x h

def routerAfter (s : Internet) (i : Nat) : Outcome × Router → Internet
  | (.erasedAccess, _) => s
  | (.threw _, r) | (.returned _, r) => s.setRouter i r

/-- The host of `x` calls its connection. -/
def call (s : Internet) (x : Side) (op : TCPConnection.Op) : Internet :=
  s.setHost x ((s.host x).call op (s.heard x))

def step (s : Internet) : Event → Internet
  | .connect x => s.call x .connect
  | .write x data => s.call x (.write data)
  | .endInputStream x => s.call x .endInputStream
  | .tick x ms => s.call x (.tick ms)
  | .read x n => s.call x (.read n)
  | .flush x => s.hostAfter x (s.host x).flush
  | .age x ms => s.hostAfter x ((s.host x).age ms)
  | .receive x k =>
    match s.wire[k]? with
    | none => s
    | some bytes => s.hostAfter x ((s.host x).receive bytes (s.heard x))
  | .arrive i n k =>
    match s.routers[i]?, s.wire[k]? with
    | some r, some bytes => s.routerAfter i (r.recvFrame n bytes)
    | _, _ => s
  | .route i =>
    match s.routers[i]? with
    | none => s
    | some r => s.routerAfter i r.route
  | .ageRouter i n ms =>
    match s.routers[i]? with
    | none => s
    | some r => s.routerAfter i (r.tick n ms)

end Internet

end Sponge
