import Sponge.Interface.Model

/-!
# The router

Interfaces that keep the datagrams they receive in a queue, and a table of
routes. `route` goes through the interfaces in order and empties each queue,
sending every datagram on by the route `findLongestPrefix` picks for it.

`sends` keeps all calls of `sendDatagram` that are made, in order.
-/

namespace Sponge

structure AsyncNetworkInterface where
  interface : NetworkInterface
  datagramsOut : List InternetDatagram := []

structure RouteElem where
  routePrefix : UInt32 := 0
  prefixLength : UInt8 := 0
  nextHop : Option Address := none
  interfaceNum : Nat := 0
  deriving DecidableEq, Repr

/-- A call of `sendDatagram` on the interface `interfaceNum`. -/
structure Send where
  interfaceNum : Nat
  dgram : InternetDatagram
  nextHop : Address
  deriving DecidableEq, Repr

structure Router where
  interfaces : List AsyncNetworkInterface := []
  routes : List RouteElem := []
  sends : List Send := []

namespace Router

def addInterface (r : Router) (interface : AsyncNetworkInterface) : Nat × Router :=
  (r.interfaces.length, { r with interfaces := r.interfaces ++ [interface] })

def addRoute (r : Router) (routePrefix : UInt32) (prefixLength : UInt8) (nextHop : Option Address)
    (interfaceNum : Nat) : Router :=
  { r with routes := r.routes ++ [{ routePrefix, prefixLength, nextHop, interfaceNum }] }

/-- The bits of an address that a prefix of this length fixes. -/
def mask (prefixLength : UInt8) : UInt32 :=
  if prefixLength = 0 then 0 else 0xffffffff <<< (32 - prefixLength.toUInt32)

/-- The loop of `findLongestPrefix` over the rest of the table. -/
def findLoop (dst : UInt32) : List RouteElem → (longest idx count : Int) → Int
  | [], _, idx, _ => idx
  | route :: routes, longest, idx, count =>
    let mask := mask route.prefixLength
    if (mask &&& dst) = (mask &&& route.routePrefix) ∧ longest < route.prefixLength.toNat then
      findLoop dst routes route.prefixLength.toNat count (count + 1)
    else findLoop dst routes longest idx (count + 1)

/-- The index of a route in the table, or -1. -/
def findLongestPrefix (r : Router) (dst : UInt32) : Int := findLoop dst r.routes (-1) (-1) 0

/-- `interface(N).send_datagram`; `at` throws for an interface that is not there. -/
def sendOn (r : Router) (n : Nat) (dgram : InternetDatagram) (nextHop : Address) :
    Outcome × Router :=
  match r.interfaces[n]? with
  | none => (.threw "vector::_M_range_check", r)
  | some iface =>
    let sent := iface.interface.sendDatagram dgram nextHop
    (sent.1, { r with
      interfaces := r.interfaces.set n { iface with interface := sent.2 }
      sends := r.sends ++ [{ interfaceNum := n, dgram := dgram, nextHop := nextHop }] })

/-- The datagram with its time to live one lower. -/
def lowerTtl (dgram : InternetDatagram) : InternetDatagram :=
  { dgram with header := { dgram.header with ttl := dgram.header.ttl - 1 } }

/-- The outcome, and what is left in the datagram. -/
def routeOneDatagram (r : Router) (dgram : InternetDatagram) :
    Outcome × InternetDatagram × Router :=
  let idx := r.findLongestPrefix dgram.header.dst
  if dgram.header.ttl > 1 ∧ idx > -1 then
    let dgram := lowerTtl dgram
    match r.routes[idx.toNat]? with
    | none => (.erasedAccess, dgram, r)
    | some route =>
      let sent := r.sendOn route.interfaceNum dgram (route.nextHop.getD ⟨dgram.header.dst⟩)
      (sent.1, dgram, sent.2)
  else (.returned none, dgram, r)

def queue (r : Router) (i : Nat) : List InternetDatagram :=
  match r.interfaces[i]? with
  | none => []
  | some iface => iface.datagramsOut

def setQueue (r : Router) (i : Nat) (queue : List InternetDatagram) : Router :=
  { r with interfaces := r.interfaces.modify i fun iface => { iface with datagramsOut := queue } }

/-- The loop that empties the queue of an interface; each turn takes a datagram off it. -/
def drainLoop (i : Nat) : Nat → Router → Outcome × Router
  | 0, r => (.returned none, r)
  | turns + 1, r =>
    match r.queue i with
    | [] => (.returned none, r)
    | dgram :: rest =>
      match r.routeOneDatagram dgram with
      | (.returned _, _, r) => drainLoop i turns (r.setQueue i rest)
      | (outcome, dgram, r) => (outcome, r.setQueue i (dgram :: rest))

/-- The loop over the interfaces. -/
def routeLoop : List Nat → Router → Outcome × Router
  | [], r => (.returned none, r)
  | i :: is, r =>
    match drainLoop i (r.queue i).length r with
    | (.returned _, r) => routeLoop is r
    | (outcome, r) => (outcome, r)

def route (r : Router) : Outcome × Router := routeLoop (List.range r.interfaces.length) r

end Router

end Sponge
