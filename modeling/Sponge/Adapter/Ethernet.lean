import Sponge.Interface.Model
import Sponge.Wire.TCPOverIP

/-!
# The adapter over Ethernet

A TCP-over-IPv4 adapter with a network interface and a TAP device under it. `tap`
is what is written to the device, frame by frame; `read` is given the bytes that
come off it. What the interface pushes goes to the device at once, unless the
call throws before.
-/

namespace Sponge

/-- How a call fails. -/
inductive Fault where
  | threw (what : String)
  | erasedAccess
  deriving DecidableEq, Repr

def Outcome.result : Outcome → Except Fault (Option InternetDatagram)
  | .returned dgram => .ok dgram
  | .threw what => .error (.threw what)
  | .erasedAccess => .error .erasedAccess

/-- The bytes of a frame. -/
def EthernetFrame.bytes (frame : EthernetFrame) : List UInt8 := frame.serialize.flatten

structure TCPOverIPv4OverEthernetAdapter extends TCPOverIPv4Adapter where
  tap : List (List UInt8) := []
  interface : NetworkInterface
  nextHop : Address

namespace TCPOverIPv4OverEthernetAdapter

/-- The constructor, which primes the device with an empty frame. -/
def new (ethAddress : EthernetAddress) (ipAddress nextHop : Address) :
    TCPOverIPv4OverEthernetAdapter where
  tap := [EthernetFrame.bytes {}]
  interface := { ethernetAddress := ethAddress, ipAddress := ipAddress }
  nextHop := nextHop

def sendPending (a : TCPOverIPv4OverEthernetAdapter) : TCPOverIPv4OverEthernetAdapter :=
  { a with
    tap := a.tap ++ a.interface.framesOut.map EthernetFrame.bytes
    interface := { a.interface with framesOut := [] } }

/-- What a read of these bytes returns, and the adapter behind it. -/
def read (a : TCPOverIPv4OverEthernetAdapter) (bytes : List UInt8) :
    Except Fault (Option TCPSegment) × TCPOverIPv4OverEthernetAdapter :=
  let frame := EthernetFrame.parse {} bytes
  if frame.1 ≠ .noError then (.ok none, a)
  else
    let received := a.interface.recvFrame frame.2
    let a := { a with interface := received.2 }
    match received.1.result with
    | .error fault => (.error fault, a)
    | .ok none => (.ok none, a.sendPending)
    | .ok (some ipDgram) =>
      let a := a.sendPending
      match a.unwrapTcpInIp ipDgram with
      | .error what => (.error (.threw what), a)
      | .ok (seg, adapter) => (.ok seg, { a with toTCPOverIPv4Adapter := adapter })

def tick (a : TCPOverIPv4OverEthernetAdapter) (msSinceLastTick : Nat) :
    Except Fault Unit × TCPOverIPv4OverEthernetAdapter :=
  let ticked := a.interface.tick msSinceLastTick
  let a := { a with interface := ticked.2 }
  match ticked.1.result with
  | .error fault => (.error fault, a)
  | .ok _ => (.ok (), a.sendPending)

def write (a : TCPOverIPv4OverEthernetAdapter) (seg : TCPSegment) :
    Except Fault Unit × TCPOverIPv4OverEthernetAdapter :=
  match (a.wrapTcpInIp seg).2 with
  | .error what => (.error (.threw what), a)
  | .ok ipDgram =>
    let sent := a.interface.sendDatagram ipDgram a.nextHop
    let a := { a with interface := sent.2 }
    match sent.1.result with
    | .error fault => (.error fault, a)
    | .ok _ => (.ok (), a.sendPending)

end TCPOverIPv4OverEthernetAdapter

end Sponge
