import Sponge.Adapter.Lossy

/-!
# Two hosts on a datagram service

Each host is a connection with a lossy adapter. All messages ever handed to the
service are kept in `wire`; a reception picks any that the device of the host
hands over, any number of times or never. Besides, strangers send what they like.

A call of an adapter that throws leaves the host as it was.
-/

namespace Sponge

/-- How a host is set up. -/
structure DatagramConfig (α : Type) where
  tcp : TCPConfig := {}
  random : UInt32 := 0
  adapter : LossyFdAdapter α

structure DatagramHost (α : Type) where
  endpoint : Endpoint
  /-- What the connection has enqueued and the adapter has not been given yet. -/
  segmentsOut : List TCPSegment := []
  adapter : LossyFdAdapter α
  deriving DecidableEq, Repr

namespace DatagramHost

variable {α μ : Type} [FdAdapter α μ]

def mk? (cfg : DatagramConfig α) : Option (DatagramHost α) := do
  let conn ← TCPConnection.mk? cfg.tcp cfg.random
  return { endpoint := { conn := conn }, adapter := cfg.adapter }

def call (h : DatagramHost α) (op : TCPConnection.Op) (heard : Nat) : DatagramHost α :=
  { h with
    endpoint := h.endpoint.step op heard
    segmentsOut := h.segmentsOut ++ (h.endpoint.conn.step op).segmentsOut }

/-- A turn of the loop that writes what has been enqueued: the host, and what it hands over. -/
def send (h : DatagramHost α) (rand : UInt32) : DatagramHost α × Option μ :=
  match h.segmentsOut with
  | [] => (h, none)
  | seg :: segs =>
    match h.adapter.write seg rand with
    | .error _ => (h, none)
    | .ok m => ({ h with segmentsOut := segs }, m)

/-- A message is ready to be read. -/
def receive (h : DatagramHost α) (m : μ) (rand : UInt32) (heard : Nat) : DatagramHost α :=
  if FdAdapter.reaches h.adapter.adapter m then
    match h.adapter.read m rand with
    | .error _ => h
    | .ok (none, adapter) => { h with adapter := adapter }
    | .ok (some seg, adapter) => { h with adapter := adapter }.call (.segmentReceived seg) heard
  else h

/-- The segment that the connection is given when this message is received, if any. -/
def taken (h : DatagramHost α) (m : μ) (rand : UInt32) : Option TCPSegment :=
  if FdAdapter.reaches h.adapter.adapter m then h.adapter.returned (m, rand) else none

end DatagramHost

structure DatagramNet (α μ : Type) where
  a : DatagramHost α
  b : DatagramHost α
  wire : List μ := []
  deriving DecidableEq, Repr

namespace DatagramNet

/-- A call of an application, a tick of a connection, a turn of the loop that writes, the
reception of the `k`-th message, and that of a stranger's. -/
inductive Event (μ : Type) where
  | connect (x : Side)
  | write (x : Side) (data : List UInt8)
  | endInputStream (x : Side)
  | tick (x : Side) (ms : Nat)
  | read (x : Side) (n : Nat)
  | send (x : Side) (rand : UInt32)
  | receive (x : Side) (k : Nat) (rand : UInt32)
  | stray (x : Side) (m : μ) (rand : UInt32)
  deriving DecidableEq, Repr

variable {α μ : Type} [FdAdapter α μ]

def host (s : DatagramNet α μ) : Side → DatagramHost α
  | .a => s.a
  | .b => s.b

/-- The two connections. -/
def system (s : DatagramNet α μ) : System where
  a := s.a.endpoint
  b := s.b.endpoint

/-- What the other side of `x` has had acknowledged. -/
def heard (s : DatagramNet α μ) (x : Side) : Nat :=
  (s.host x.other).endpoint.conn.sender.receiveAck

/-- The host after an event, with what it handed over. -/
def setHost (s : DatagramNet α μ) (x : Side) (h : DatagramHost α) (out : List μ) :
    DatagramNet α μ :=
  match x with
  | .a => { s with a := h, wire := s.wire ++ out }
  | .b => { s with b := h, wire := s.wire ++ out }

def mk? (cfgA cfgB : DatagramConfig α) : Option (DatagramNet α μ) := do
  let a ← DatagramHost.mk? cfgA
  let b ← DatagramHost.mk? cfgB
  return { a := a, b := b }

/-- The host of `x` calls its connection. -/
def call (s : DatagramNet α μ) (x : Side) (op : TCPConnection.Op) : DatagramNet α μ :=
  s.setHost x ((s.host x).call op (s.heard x)) []

/-- The host of `x` receives a message. -/
def received (s : DatagramNet α μ) (x : Side) (m : μ) (rand : UInt32) : DatagramNet α μ :=
  s.setHost x ((s.host x).receive m rand (s.heard x)) []

def step (s : DatagramNet α μ) : Event μ → DatagramNet α μ
  | .connect x => s.call x .connect
  | .write x data => s.call x (.write data)
  | .endInputStream x => s.call x .endInputStream
  | .tick x ms => s.call x (.tick ms)
  | .read x n => s.call x (.read n)
  | .send x rand =>
    let sent := (s.host x).send rand
    s.setHost x sent.1 sent.2.toList
  | .receive x k rand =>
    match s.wire[k]? with
    | none => s
    | some m => s.received x m rand
  | .stray x m rand => s.received x m rand

end DatagramNet

end Sponge
