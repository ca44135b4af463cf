import Mathlib.Algebra.Order.Ring.Int
import Mathlib.Data.List.AList
import Mathlib.Data.List.Sort
import Sponge.Wire.Ethernet
import Sponge.Wire.IPv4

/-!
# The network interface

One interface between IP and Ethernet: the addresses it has learned
(`addrMap`), the age of each entry (`mapStatus`: 0 and up for what is learned,
below 0 for a request that is pending) and the datagrams that wait for an
address (`dgramStage`). `framesOut` keeps all frames that are pushed.

A call returns, throws, or reads a position that has been erased. Both loops take
`begin` and `end` once: `sendStageDatagram` goes on through the positions the
vector had at its start, and `tick` moves on from an entry that is gone when
that entry has expired.
-/

namespace Sponge

/-- Of an `Address` only the IPv4 number is looked at. -/
structure Address where
  ipv4Numeric : UInt32
  deriving DecidableEq, Repr

structure NetworkInterface where
  ethernetAddress : EthernetAddress
  ipAddress : Address
  framesOut : List EthernetFrame := []
  addrMap : AList fun _ : UInt32 => EthernetAddress := ∅
  mapStatus : AList fun _ : UInt32 => Int := ∅
  dgramStage : List (Address × InternetDatagram) := []

/-- How a call ends. -/
inductive Outcome where
  | returned (dgram : Option InternetDatagram)
  | threw (what : String)
  | erasedAccess
  deriving DecidableEq, Repr

namespace NetworkInterface

/-- The request for the address of `nextHopIp`. -/
def arpRequest (s : NetworkInterface) (nextHopIp : UInt32) : ARPMessage where
  opcode := ARPMessage.OPCODE_REQUEST
  senderEthernetAddress := s.ethernetAddress
  senderIpAddress := s.ipAddress.ipv4Numeric
  targetIpAddress := nextHopIp

def sendDatagram (s : NetworkInterface) (dgram : InternetDatagram) (nextHop : Address) :
    Outcome × NetworkInterface :=
  match s.addrMap.lookup nextHop.ipv4Numeric with
  | some dst =>
    match dgram.serialize with
    | .error what => (.threw what, s)
    | .ok payload => (.returned none, { s with framesOut := s.framesOut ++
        [{ header := { dst := dst, src := s.ethernetAddress, type := EthernetHeader.TYPE_IPv4 }
           payload := payload }] })
  | none =>
    match s.mapStatus.lookup nextHop.ipv4Numeric with
    | none =>
      match (s.arpRequest nextHop.ipv4Numeric).serialize with
      | .error what => (.threw what, s)
      | .ok payload => (.returned none, { s with
          framesOut := s.framesOut ++
            [{ header := { dst := ETHERNET_BROADCAST, src := s.ethernetAddress
                           type := EthernetHeader.TYPE_ARP }
               payload := [payload] }]
          dgramStage := s.dgramStage ++ [(nextHop, dgram)]
          mapStatus := s.mapStatus.insert nextHop.ipv4Numeric (-1) })
    | some status =>
      if status < 0 then
        (.returned none, { s with dgramStage := s.dgramStage ++ [(nextHop, dgram)] })
      else (.returned none, { s with framesOut := s.framesOut ++ [{}] })

/-- An entry for `ip` that is learned. -/
def Ready (s : NetworkInterface) (ip : UInt32) : Prop :=
  match s.mapStatus.lookup ip with
  | some status => status ≥ 0
  | none => False

instance (s : NetworkInterface) (ip : UInt32) : Decidable (s.Ready ip) :=
  match h : s.mapStatus.lookup ip with
  | some status => decidable_of_iff (status ≥ 0) (by simp [Ready, h])
  | none => isFalse (by simp [Ready, h])

/-- The loop of `sendStageDatagram`, with `turns` positions to go from `count` on. -/
def stageLoop : Nat → Nat → NetworkInterface → Outcome × NetworkInterface
  | 0, _, s => (.returned none, s)
  | turns + 1, count, s =>
    match s.dgramStage[count]? with
    | none => (.erasedAccess, s)
    | some (nextHop, dgram) =>
      if s.Ready nextHop.ipv4Numeric then
        match s.sendDatagram dgram nextHop with
        | (.returned _, s) =>
          stageLoop turns (count + 1) { s with dgramStage := s.dgramStage.eraseIdx count }
        | (.threw what, s) => (.threw what, s)
        | (.erasedAccess, s) => (.erasedAccess, s)
      else stageLoop turns (count + 1) s

def sendStageDatagram (s : NetworkInterface) : Outcome × NetworkInterface :=
  stageLoop s.dgramStage.length 0 s

/-- The mapping of an ARP message that has been parsed. -/
def learn (s : NetworkInterface) (msg : ARPMessage) : NetworkInterface :=
  { s with
    addrMap := s.addrMap.insert msg.senderIpAddress msg.senderEthernetAddress
    mapStatus := s.mapStatus.insert msg.senderIpAddress 0 }

/-- The reply to `msg`. -/
def arpReply (s : NetworkInterface) (msg : ARPMessage) : ARPMessage :=
  { msg with
    targetEthernetAddress := msg.senderEthernetAddress
    targetIpAddress := msg.senderIpAddress
    senderEthernetAddress := s.ethernetAddress
    senderIpAddress := s.ipAddress.ipv4Numeric
    opcode := ARPMessage.OPCODE_REPLY }

/-- An ARP message, with what its parse returned: the mapping is learned if it is valid, and a
request for the interface's own address is answered. -/
def recvArp (s : NetworkInterface) (state : ParseResult) (msg : ARPMessage) :
    Outcome × NetworkInterface :=
  let s := if state = .noError then s.learn msg else s
  if msg.opcode = ARPMessage.OPCODE_REQUEST ∧ msg.targetIpAddress = s.ipAddress.ipv4Numeric then
    match (s.arpReply msg).serialize with
    | .error what => (.threw what, s)
    | .ok payload => sendStageDatagram { s with framesOut := s.framesOut ++
        [{ header := { dst := msg.senderEthernetAddress, src := s.ethernetAddress
                       type := EthernetHeader.TYPE_ARP }
           payload := [payload] }] }
  else s.sendStageDatagram

def recvFrame (s : NetworkInterface) (frame : EthernetFrame) : Outcome × NetworkInterface :=
  if frame.header.type = EthernetHeader.TYPE_IPv4 ∧ frame.header.dst = s.ethernetAddress then
    match frame.payload.toBuffer with
    | .error what => (.threw what, s)
    | .ok buffer =>
      let parsed := IPv4Datagram.parse {} buffer
      if parsed.1 = .noError then (.returned (some parsed.2), s) else s.sendStageDatagram
  else if frame.header.type = EthernetHeader.TYPE_ARP then
    match frame.payload.toBuffer with
    | .error what => (.threw what, s)
    | .ok buffer =>
      let parsed := ARPMessage.parse {} buffer
      s.recvArp parsed.1 parsed.2
  else s.sendStageDatagram

/-- `_map_status[ip]`, for an entry that is there. -/
def status (s : NetworkInterface) (ip : UInt32) : Int := (s.mapStatus.lookup ip).getD 0

/-- One turn of the loop of `tick`, and whether it erases the entry. The sum is one of a `size_t`
that goes back into an `int`. -/
def visit (s : NetworkInterface) (msSinceLastTick : Nat) (ip : UInt32) : NetworkInterface × Bool :=
  if s.status ip ≥ 0 then
    let status := (s.status ip + msSinceLastTick).bmod (2 ^ 32)
    if status ≥ 30000 then
      ({ s with mapStatus := s.mapStatus.erase ip, addrMap := s.addrMap.erase ip }, true)
    else ({ s with mapStatus := s.mapStatus.insert ip status }, false)
  else
    let status := (s.status ip - msSinceLastTick).bmod (2 ^ 32)
    if status ≤ -5001 then ({ s with mapStatus := s.mapStatus.erase ip }, true)
    else ({ s with mapStatus := s.mapStatus.insert ip status }, false)

/-- The loop of `tick` over the entries `ips`; from an entry that it has erased there is no way
on. -/
def tickLoop (msSinceLastTick : Nat) : List UInt32 → NetworkInterface → Outcome × NetworkInterface
  | [], s => (.returned none, s)
  | ip :: ips, s =>
    if s.mapStatus.keys = [] then (.returned none, s)
    else
      let visited := s.visit msSinceLastTick ip
      if visited.2 then (.erasedAccess, visited.1)
      else tickLoop msSinceLastTick ips visited.1

def tick (s : NetworkInterface) (msSinceLastTick : Nat) : Outcome × NetworkInterface :=
  match tickLoop msSinceLastTick (s.mapStatus.keys.insertionSort (· ≤ ·)) s with
  | (.returned _, s) => s.sendStageDatagram
  | (.threw what, s) => (.threw what, s)
  | (.erasedAccess, s) => (.erasedAccess, s)

inductive Op where
  | sendDatagram (dgram : InternetDatagram) (nextHop : Address)
  | recvFrame (frame : EthernetFrame)
  | tick (msSinceLastTick : Nat)

def call (s : NetworkInterface) : Op → Outcome × NetworkInterface
  | .sendDatagram dgram nextHop => s.sendDatagram dgram nextHop
  | .recvFrame frame => s.recvFrame frame
  | .tick ms => s.tick ms

end NetworkInterface

end Sponge
