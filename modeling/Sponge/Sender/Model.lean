import Sponge.ByteStream
import Sponge.TCPConfig
import Sponge.TCPSegment

/-!
# The TCP sender

`fillWindow` sends SYN or runs the loop `fillLoop`; `ackReceived` drops acked
segments (`advanceAck`), refills the window and restarts the timer; `tick`
sends the oldest outstanding segment again.

The loop has a bound on its turns. Each turn takes a byte out of the stream or
sends FIN, so `bufferSize + 2` turns always reach one of the exits
(`fillLoop_done`).

`_next_seqno`, `_receive_ack`, `_checkpoint` and `_bytes_in_flight` are `Nat`s:
the first three only grow, by what is sent, and what is subtracted from the
last one has been added to it with the same segment. The differences the loop
computes are 64-bit ones (`sub64`).
-/

namespace Sponge

structure TCPSender where
  syn : Bool := false
  fin : Bool := false
  windowIsZero : Bool := false
  clockIsCounting : Bool := false
  bytesInFlight : Nat := 0
  windowSize : UInt16 := 0
  checkpoint : Nat := 0
  clock : Nat := 0
  segmentsInFlight : List TCPSegment := []
  consecutiveRetrans : UInt32 := 0
  retransTimeout : UInt32 := 0
  receiveAck : Nat := 0
  isn : WrappingInt32
  segmentsOut : List TCPSegment := []
  initialRetransmissionTimeout : UInt32
  stream : ByteStream
  nextSeqno : Nat := 0
  deriving DecidableEq, Repr

namespace TCPSender

/-- The constructor; `random` is what `random_device` returns. -/
def new (capacity : Nat) (retxTimeout : UInt16) (fixedIsn : Option WrappingInt32)
    (random : UInt32) : TCPSender where
  isn := fixedIsn.getD ⟨random⟩
  initialRetransmissionTimeout := retxTimeout.toUInt32
  stream := { capacity := capacity }
  retransTimeout := retxTimeout.toUInt32

def sendSegment (s : TCPSender) (seg : TCPSegment) : TCPSender :=
  let seg := { seg with header := { seg.header with seqno := wrap s.nextSeqno s.isn } }
  { s with
    nextSeqno := s.nextSeqno + seg.lengthInSequenceSpace
    bytesInFlight := s.bytesInFlight + seg.lengthInSequenceSpace
    segmentsInFlight := s.segmentsInFlight ++ [seg]
    segmentsOut := s.segmentsOut ++ [seg]
    clockIsCounting := true
    clock := if s.clockIsCounting = false then 0 else s.clock }

def sendEmptySegment (s : TCPSender) : TCPSender :=
  { s with segmentsOut :=
      s.segmentsOut ++ [{ header := { seqno := wrap s.nextSeqno s.isn } }] }

/-- The window, a window of 0 seen as one of 1. -/
def window (s : TCPSender) : Nat := if s.windowSize > 0 then s.windowSize.toNat else 1

/-- What the loop computes as the part of the window `win` that is left. -/
def remain (s : TCPSender) (win : Nat) : Nat := sub64 win (sub64 s.nextSeqno s.receiveAck)

/-- The segment of one turn of the loop, and the stream it leaves. -/
def nextSegment (s : TCPSender) (win : Nat) : TCPSegment × ByteStream :=
  let len := min (s.remain win) TCPConfig.MAX_PAYLOAD_SIZE
  let (data, stream) := s.stream.read len
  let seg : TCPSegment := { payload := data }
  if stream.eof && decide (seg.lengthInSequenceSpace < win) then
    ({ seg with header := { seg.header with fin := true } }, stream)
  else (seg, stream)

def fillLoop (win : Nat) : Nat → TCPSender → TCPSender
  | 0, s => s
  | fuel + 1, s =>
    if s.remain win ≠ 0 ∧ s.fin = false then
      let (seg, stream) := s.nextSegment win
      let s := { s with stream := stream, fin := s.fin || seg.header.fin }
      if seg.lengthInSequenceSpace = 0 then s
      else fillLoop win fuel (s.sendSegment seg)
    else s

def fillWindow (s : TCPSender) : TCPSender :=
  if s.syn = false then { s.sendSegment { header := { syn := true } } with syn := true }
  else
    let s := { s with windowIsZero := s.windowSize == 0 }
    fillLoop s.window (s.stream.bufferSize + 2) s

/-- Pop the segments at the front of the queue that end at or before `absAckno`. -/
def popAcked (absAckno : Nat) (s : TCPSender) : List TCPSegment → TCPSender
  | [] => { s with segmentsInFlight := [] }
  | seg :: rest =>
    if unwrap seg.header.seqno s.isn s.nextSeqno + seg.lengthInSequenceSpace ≤ absAckno then
      popAcked absAckno { s with bytesInFlight := s.bytesInFlight - seg.lengthInSequenceSpace } rest
    else { s with segmentsInFlight := seg :: rest }

/-- A new ackno is recorded and the acked segments are popped. -/
def advanceAck (s : TCPSender) (absAckno : Nat) : TCPSender :=
  popAcked absAckno { s with receiveAck := absAckno, checkpoint := absAckno } s.segmentsInFlight

def restartTimer (s : TCPSender) : TCPSender :=
  let s := { s with retransTimeout := s.initialRetransmissionTimeout, consecutiveRetrans := 0 }
  if s.segmentsInFlight.length ≠ 0 then { s with clockIsCounting := true, clock := 0 } else s

def ackReceived (s : TCPSender) (ackno : WrappingInt32) (windowSize : UInt16) : TCPSender :=
  let absAckno := unwrap ackno s.isn s.checkpoint
  if absAckno > s.nextSeqno then s
  else
    let s := { s with windowSize := windowSize }
    if absAckno ≤ s.receiveAck then s
    else ((s.advanceAck absAckno).fillWindow).restartTimer

/-- The timer has expired: the oldest outstanding segment is sent again. -/
def retransmit (s : TCPSender) (seg : TCPSegment) : TCPSender :=
  { s with
    segmentsOut := s.segmentsOut ++ [seg]
    consecutiveRetrans := s.consecutiveRetrans + 1
    clockIsCounting := true
    clock := 0
    retransTimeout := if s.windowIsZero = false then s.retransTimeout * 2 else s.retransTimeout }

def tick (s : TCPSender) (msSinceLastTick : Nat) : TCPSender :=
  let s := { s with clock := (s.clock + msSinceLastTick) % 2 ^ 64 }
  match s.segmentsInFlight with
  | [] => { s with clockIsCounting := false }
  | seg :: _ => if s.clock ≥ s.retransTimeout.toNat then s.retransmit seg else s

/-- The application writes to the outgoing stream. -/
def write (s : TCPSender) (data : List UInt8) : TCPSender :=
  { s with stream := (s.stream.write data).1 }

def endInput (s : TCPSender) : TCPSender := { s with stream := s.stream.endInput }

end TCPSender

end Sponge
