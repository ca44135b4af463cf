import Sponge.Connection.State
import Sponge.Internet.Model
import Sponge.Util.EventLoop

/-!
# Two applications on an internet

A `TCPSpongeSocket` runs a connection and its adapter in an event loop with four
rules, in a thread of its own. The application has the other end of a pair of
local sockets; the loop's end is `threadData`.

What `poll` and the other system calls of a turn return is its `Kernel`: any frame
that has been on the wire for a read of the adapter, any bytes for a read of the
pair, any number for a write to it; the device takes every frame. A loop ends when
a call of its adapter goes on from an erased position. The output for debugging is
left out.

`taken` and `given`, what the loop has read from its application and written to
it, and the log of the events are observations and feed back into nothing.
-/

namespace Sponge

open EventLoop

def TCPConnection.remainingOutboundCapacity (c : TCPConnection) : Nat :=
  c.sender.stream.remainingCapacity

/-- The adapter has written `n` frames. -/
def FileDescriptor.registerWrites (fd : FileDescriptor) (n : Nat) : FileDescriptor :=
  { fd with writeCount := fd.writeCount + UInt32.ofNat n }

/-- The limit of a read without one. -/
def SIZE_MAX : Nat := 2 ^ 64 - 1

/-- The rules, in the order in which they are added. -/
inductive SocketRule where
  | datagramIn
  | dataIn
  | dataOut
  | datagramOut
  deriving DecidableEq, Repr

/-- How the loop fails: in `wait_next_event`, in a system call, in the adapter, or because the
connection takes less than it has room for. -/
inductive SocketFault where
  | eventLoop (what : String)
  | systemCall (what : String)
  | adapter (fault : Fault)
  | acceptedLess
  deriving DecidableEq, Repr

/-- The text of the exception; a call that goes on from an erased position has none. -/
def SocketFault.what : SocketFault → Option String
  | .eventLoop what | .systemCall what | .adapter (.threw what) => some what
  | .adapter .erasedAccess => none
  | .acceptedLess => some "TCPConnection::write() accepted less than advertised length"

/-- The function that runs the loop: `connect`, `listen_and_accept`, or the thread. -/
inductive Phase where
  | idle
  | connecting
  | accepting
  | running
  | ended (result : Except SocketFault Unit)

structure TCPSpongeSocket where
  threadData : FileDescriptor := {}
  /-- The descriptor of the adapter. -/
  datagramAdapter : FileDescriptor := {}
  outboundShutdown : Bool := false
  inboundShutdown : Bool := false
  rules : List SocketRule := [.datagramIn, .dataIn, .dataOut, .datagramOut]
  phase : Phase := .idle
  taken : List UInt8 := []
  given : List UInt8 := []

/-- Two hosts with a socket each, and what lies between them. -/
structure FullStack where
  internet : Internet
  a : TCPSpongeSocket := {}
  b : TCPSpongeSocket := {}
  events : List Internet.Event := []

namespace FullStack

/-- What the system calls of one turn return. -/
structure Kernel where
  poll : PollResult
  /-- The place on the wire of the frame that is read. -/
  frame : Nat := 0
  data : Option (List UInt8) := none
  /-- How much of the inbound stream the pair takes. -/
  inbound : Option Nat := none
  shutdown : Bool := true
  elapsed : Nat := 0
  abort : Bool := false
  deriving DecidableEq, Repr

def socket (s : FullStack) : Side → TCPSpongeSocket
  | .a => s.a
  | .b => s.b

def update (s : FullStack) (x : Side) (f : TCPSpongeSocket → TCPSpongeSocket) : FullStack :=
  match x with
  | .a => { s with a := f s.a }
  | .b => { s with b := f s.b }

def conn (s : FullStack) (x : Side) : TCPConnection := (s.internet.host x).endpoint.conn

/-- Something happens between the hosts. -/
def passes (s : FullStack) (ev : Internet.Event) : FullStack :=
  { s with internet := s.internet.step ev, events := s.events ++ [ev] }

/-- The loop of `x` calls its connection or its adapter, which may write frames. -/
def does (s : FullStack) (x : Side) (ev : Internet.Event) : FullStack :=
  let frames := (s.internet.step ev).wire.length - s.internet.wire.length
  (s.passes ev).update x fun sock =>
    { sock with datagramAdapter := sock.datagramAdapter.registerWrites frames }

section
variable (x : Side) (k : Kernel) (s : FullStack)

/-- Rule 1: a frame from the adapter to the connection. -/
def readDatagram : Except SocketFault Unit × FullStack :=
  match (s.socket x).datagramAdapter.read SIZE_MAX s.internet.wire[k.frame]? with
  | (.error what, fd) =>
    (.error (.systemCall what), s.update x fun sock => { sock with datagramAdapter := fd })
  | (.ok bytes, fd) =>
    let received := (s.internet.host x).receive bytes (s.internet.heard x)
    let s := s.update x fun sock => { sock with datagramAdapter := fd }
    (received.1.mapError .adapter, s.does x (.receive x k.frame))

/-- The end of what the application sends. -/
def endOutbound : FullStack :=
  (s.does x (.endInputStream x)).update x fun sock => { sock with outboundShutdown := true }

/-- Rule 2: bytes from the application to the connection. -/
def readData : Except SocketFault Unit × FullStack :=
  match (s.socket x).threadData.read (s.conn x).remainingOutboundCapacity k.data with
  | (.error what, fd) =>
    (.error (.systemCall what), s.update x fun sock => { sock with threadData := fd })
  | (.ok data, fd) =>
    let amountWritten := ((s.conn x).write data).2
    let s := s.update x fun sock => { sock with threadData := fd, taken := sock.taken ++ data }
    let s := s.does x (.write x data)
    if amountWritten ≠ data.length then (.error .acceptedLess, s)
    else if fd.eof then (.ok (), s.endOutbound x)
    else (.ok (), s)

/-- Rule 3: bytes from the connection to the application, as many as it takes. -/
def writeData : Except SocketFault Unit × FullStack :=
  let inbound := (s.conn x).inboundStream
  let amountToWrite := min 65536 inbound.bufferSize
  let wrote := (s.socket x).threadData.write [inbound.peekOutput amountToWrite] false
    fun _ => k.inbound
  match wrote.1 with
  | .error what =>
    (.error (.systemCall what), s.update x fun sock => { sock with threadData := wrote.2.fd })
  | .ok bytesWritten =>
    let s := s.update x fun sock =>
      { sock with threadData := wrote.2.fd, given := sock.given ++ wrote.2.device }
    let s := s.does x (.read x bytesWritten)
    let inbound := (s.conn x).inboundStream
    if inbound.eof || inbound.error then
      match Socket.shutdown wrote.2.fd .SHUT_WR k.shutdown with
      | (.error what, fd) =>
        (.error (.systemCall what), s.update x fun sock => { sock with threadData := fd })
      | (.ok (), fd) =>
        (.ok (), s.update x fun sock => { sock with threadData := fd, inboundShutdown := true })
    else (.ok (), s)

/-- Rule 4: segments from the connection to the adapter. -/
def writeDatagrams : Except SocketFault Unit × FullStack :=
  ((s.internet.host x).flush.1.mapError .adapter, s.does x (.flush x))

end

def rule (x : Side) (k : Kernel) : SocketRule → Rule FullStack SocketFault
  | .datagramIn =>
    { fd := fun s => (s.socket x).datagramAdapter
      direction := .input
      callback := readDatagram x k
      interest := fun s => (s.conn x).active }
  | .dataIn =>
    { fd := fun s => (s.socket x).threadData
      direction := .input
      callback := readData x k
      interest := fun s => (s.conn x).active && !(s.socket x).outboundShutdown &&
        decide ((s.conn x).remainingOutboundCapacity > 0)
      cancel := endOutbound x }
  | .dataOut =>
    { fd := fun s => (s.socket x).threadData
      direction := .output
      callback := writeData x k
      interest := fun s =>
        let inbound := (s.conn x).inboundStream
        !inbound.bufferEmpty ||
          ((inbound.eof || inbound.error) && !(s.socket x).inboundShutdown) }
  | .datagramOut =>
    { fd := fun s => (s.socket x).datagramAdapter
      direction := .output
      callback := writeDatagrams x
      interest := fun s => !(s.internet.host x).segmentsOut.isEmpty }

section
variable (x : Side) (k : Kernel) (s : FullStack)

/-- One turn of `_tcp_loop`; `next` is what follows the loop. -/
def tcpLoop (next : Phase) : FullStack :=
  let waited := waitNextEvent (rule x k) .eventLoop (s.socket x).rules k.poll s
  let s := waited.2.2.update x fun sock => { sock with rules := waited.2.1 }
  match waited.1 with
  | .error fault => s.update x fun sock => { sock with phase := .ended (.error fault) }
  | .ok result =>
    if result = .exit ∨ k.abort = true then s.update x fun sock => { sock with phase := next }
    else if (s.conn x).active then
      let s := s.does x (.tick x k.elapsed)
      let aged := (s.internet.host x).age k.elapsed
      let s := s.does x (.age x k.elapsed)
      match aged.1 with
      | .error fault =>
        s.update x fun sock => { sock with phase := .ended (.error (.adapter fault)) }
      | .ok () => s
    else s

/-- The loop goes on while its condition holds. -/
def turn : FullStack :=
  match (s.socket x).phase with
  | .idle | .ended _ => s
  | .connecting =>
    if (s.conn x).state = .ofState .synSent then s.tcpLoop x k .running
    else s.update x fun sock => { sock with phase := .running }
  | .accepting =>
    if (s.conn x).state ∈ [.ofState .listen, .ofState .synRcvd, .ofState .synSent] then
      s.tcpLoop x k .running
    else s.update x fun sock => { sock with phase := .running }
  | .running => s.tcpLoop x k (.ended (.ok ()))

/-- That the state is then SYN_SENT, which the source checks, holds of every new connection. A
socket that is connected refuses. -/
def connect : FullStack :=
  match (s.socket x).phase with
  | .idle => (s.does x (.connect x)).update x fun sock => { sock with phase := .connecting }
  | .connecting | .accepting | .running | .ended _ => s

/-- The adapter of the host is set up to listen. -/
def listenAndAccept : FullStack :=
  match (s.socket x).phase with
  | .idle => s.update x fun sock => { sock with phase := .accepting }
  | .connecting | .accepting | .running | .ended _ => s

end

/-- The calls of the applications, the turns of the loops, and what happens at the routers. -/
inductive Event where
  | connect (x : Side)
  | listenAndAccept (x : Side)
  | turn (x : Side) (k : Kernel)
  | arrive (i n k : Nat)
  | route (i : Nat)
  | ageRouter (i n ms : Nat)
  deriving DecidableEq, Repr

def step (s : FullStack) : Event → FullStack
  | .connect x => s.connect x
  | .listenAndAccept x => s.listenAndAccept x
  | .turn x k => s.turn x k
  | .arrive i n k => s.passes (.arrive i n k)
  | .route i => s.passes (.route i)
  | .ageRouter i n ms => s.passes (.ageRouter i n ms)

def mk? (cfgA cfgB : HostConfig) (routers : List Router) : Option FullStack :=
  (Internet.mk? cfgA cfgB routers).map fun internet => { internet := internet }

end FullStack

end Sponge
