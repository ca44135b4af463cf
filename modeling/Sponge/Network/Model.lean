import Sponge.Connection.Step
import Sponge.Lib.Run
import Sponge.Sender.Stream

/-!
# Two endpoints and a network

Two connections exchange segments over a network that may lose, repeat and
reorder them. What an endpoint enqueues is kept for good in `net`; a delivery
picks any of it, any number of times or never, and hands it over unaltered.

Besides its connection an endpoint carries what an observer has seen of it: the
bytes its application wrote, those of them it wrote before FIN was sent, and the
bytes it read; the segments that have been in the sender's queue with their
absolute sequence numbers (`sent`); and with each packet what the other endpoint
had had acknowledged when it was enqueued.
-/

namespace Sponge

open Lib

inductive Side where
  | a
  | b
  deriving DecidableEq, Repr

def Side.other : Side → Side
  | .a => .b
  | .b => .a

@[simp] theorem Side.other_other (x : Side) : x.other.other = x := by cases x <;> rfl

structure Packet where
  seg : TCPSegment
  /-- The other endpoint's acknowledged position when the segment was enqueued. -/
  heard : Nat
  deriving DecidableEq, Repr

structure Endpoint where
  conn : TCPConnection
  wrote : List UInt8 := []
  /-- What was written before FIN was sent. -/
  outgoing : List UInt8 := []
  reads : List UInt8 := []
  sent : List (Nat × TCPSegment) := []
  net : List Packet := []
  deriving DecidableEq, Repr

namespace Endpoint

/-- All bytes ever written into the inbound stream. -/
def received (e : Endpoint) : List UInt8 := e.reads ++ e.conn.inboundStream.buffer

/-- What an operation adds to the bytes the application wrote. -/
def writes (e : Endpoint) : TCPConnection.Op → List UInt8
  | .write data => data.take (e.conn.write data).2
  | .connect | .endInputStream | .tick _ | .segmentReceived _ | .read _ => []

/-- What an operation adds to the bytes written before FIN is sent. -/
def writesOut (e : Endpoint) (op : TCPConnection.Op) : List UInt8 :=
  if e.conn.sender.fin then [] else e.writes op

theorem writes_eq_nil (e : Endpoint) {op : TCPConnection.Op} (h : ∀ data, op ≠ .write data) :
    e.writes op = [] := by
  cases op with
  | write data => exact absurd rfl (h data)
  | connect | endInputStream | read _ | tick _ | segmentReceived _ => rfl

/-- What an operation adds to the bytes the application read. -/
def readsOf (e : Endpoint) : TCPConnection.Op → List UInt8
  | .read n => (e.conn.inboundStream.read n).1
  | .connect | .endInputStream | .tick _ | .segmentReceived _ | .write _ => []

/-- An operation on the connection; what it enqueues is put on the network. -/
def step (e : Endpoint) (op : TCPConnection.Op) (heard : Nat) : Endpoint :=
  let conn := e.conn.step op
  { conn := { conn with segmentsOut := [] }
    wrote := e.wrote ++ e.writes op
    outgoing := e.outgoing ++ e.writesOut op
    reads := e.reads ++ e.readsOf op
    sent := e.sent ++ conn.sender.outstanding
    net := e.net ++ conn.segmentsOut.map fun seg => { seg := seg, heard := heard } }

end Endpoint

structure System where
  a : Endpoint
  b : Endpoint
  deriving DecidableEq, Repr

/-- What can happen: a call of an application, a tick, or the delivery to `x` of the `k`-th
segment the other endpoint has enqueued. -/
inductive Event where
  | connect (x : Side)
  | write (x : Side) (data : List UInt8)
  | endInputStream (x : Side)
  | tick (x : Side) (ms : Nat)
  | read (x : Side) (n : Nat)
  | deliver (x : Side) (k : Nat)
  deriving DecidableEq, Repr

namespace System

def mk? (cfgA cfgB : TCPConfig) (randomA randomB : UInt32) : Option System := do
  let a ← TCPConnection.mk? cfgA randomA
  let b ← TCPConnection.mk? cfgB randomB
  return { a := { conn := a }, b := { conn := b } }

def endpoint (s : System) : Side → Endpoint
  | .a => s.a
  | .b => s.b

def set (s : System) (x : Side) (e : Endpoint) : System :=
  match x with
  | .a => { s with a := e }
  | .b => { s with b := e }

@[simp] theorem endpoint_set (s : System) (x : Side) (e : Endpoint) :
    (s.set x e).endpoint x = e := by cases x <;> rfl

@[simp] theorem endpoint_set_other (s : System) (x : Side) (e : Endpoint) :
    (s.set x e).endpoint x.other = s.endpoint x.other := by cases x <;> rfl

@[simp] theorem endpoint_other_set (s : System) (x : Side) (e : Endpoint) :
    (s.set x.other e).endpoint x = s.endpoint x := by cases x <;> rfl

/-- The endpoint an event acts on, and the operation; `none` for a delivery of nothing. -/
def opOf (s : System) : Event → Option (Side × TCPConnection.Op)
  | .connect x => some (x, .connect)
  | .write x data => some (x, .write data)
  | .endInputStream x => some (x, .endInputStream)
  | .tick x ms => some (x, .tick ms)
  | .read x n => some (x, .read n)
  | .deliver x k => (s.endpoint x.other).net[k]?.map fun pkt => (x, .segmentReceived pkt.seg)

def act (s : System) (x : Side) (op : TCPConnection.Op) : System :=
  s.set x ((s.endpoint x).step op (s.endpoint x.other).conn.sender.receiveAck)

def step (s : System) (ev : Event) : System :=
  match s.opOf ev with
  | none => s
  | some (x, op) => s.act x op

end System

/-- The two segments have the same seqno, flags SYN and FIN, and payload. -/
def SameBody (s t : TCPSegment) : Prop :=
  s.payload = t.payload ∧ s.header.seqno = t.header.seqno ∧ s.header.syn = t.header.syn ∧
    s.header.fin = t.header.fin

instance (s t : TCPSegment) : Decidable (SameBody s t) := inferInstanceAs (Decidable (_ ∧ _))

/-- The segment's absolute sequence number is within 2^31 of what `x` has written; a segment
without sequence numbers has none. -/
def Near (x y : Endpoint) (seg : TCPSegment) : Prop :=
  seg.lengthInSequenceSpace = 0 ∨ ∃ entry ∈ y.sent, SameBody entry.2 seg ∧
    entry.1 ≤ x.conn.inboundStream.bytesWritten + 2 ^ 31 ∧
    x.conn.inboundStream.bytesWritten ≤ entry.1 + 2 ^ 31

instance (x y : Endpoint) (seg : TCPSegment) : Decidable (Near x y seg) :=
  inferInstanceAs (Decidable (_ ∨ ∃ entry ∈ y.sent, _))

/-- Deliveries of near segments only. -/
def InReach (s : System) : Event → Prop
  | .deliver x k => ∀ pkt ∈ (s.endpoint x.other).net[k]?,
      Near (s.endpoint x) (s.endpoint x.other) pkt.seg
  | .connect _ | .write _ _ | .endInputStream _ | .tick _ _ | .read _ _ => True

instance (s : System) : ∀ ev, Decidable (InReach s ev)
  | .deliver x k => inferInstanceAs (Decidable (∀ pkt ∈ (s.endpoint x.other).net[k]?, _))
  | .connect _ | .write _ _ | .endInputStream _ | .tick _ _ | .read _ _ => isTrue trivial

/-- No write after `endInputStream`. -/
def NoLateWrite (s : System) : Event → Prop
  | .write x _ => (s.endpoint x).conn.sender.stream.inputEnded = false
  | .connect _ | .endInputStream _ | .tick _ _ | .read _ _ | .deliver _ _ => True

instance (s : System) : ∀ ev, Decidable (NoLateWrite s ev)
  | .write _ _ => inferInstanceAs (Decidable (_ = false))
  | .connect _ | .endInputStream _ | .tick _ _ | .read _ _ | .deliver _ _ => isTrue trivial

/-- Both streams are shorter than 2^63 bytes. -/
def Short (s : System) : Prop := s.a.wrote.length < 2 ^ 63 ∧ s.b.wrote.length < 2 ^ 63

instance (s : System) : Decidable (Short s) := inferInstanceAs (Decidable (_ ∧ _))

end Sponge
