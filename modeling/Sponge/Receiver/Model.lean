import Sponge.Reassembler.Model
import Sponge.TCPSegment

/-!
# The TCP receiver

`segmentReceived` in the order of the source: the SYN branch, the call of the
reassembler with the update of `ackno`, the FIN flag, and the end of the stream.
-/

namespace Sponge

structure TCPReceiver where
  ackno : WrappingInt32 := ⟨0⟩
  isn : WrappingInt32 := ⟨0⟩
  syn : Bool := false
  fin : Bool := false
  finNotCount : Bool := true
  reassembler : StreamReassembler
  capacity : Nat
  deriving DecidableEq, Repr

namespace TCPReceiver

/-- The constructor; `none` when the reassembler's throws. -/
def mk? (capacity : Nat) : Option TCPReceiver :=
  (StreamReassembler.mk? capacity).map fun r => { reassembler := r, capacity := capacity }

def streamOut (r : TCPReceiver) : ByteStream := r.reassembler.output

/-- The ackno sent to the peer. -/
def acknoOut (r : TCPReceiver) : Option WrappingInt32 :=
  if r.ackno = ⟨0⟩ ∨ r.syn = false then none else some r.ackno

def windowSize (r : TCPReceiver) : Nat := r.capacity - r.streamOut.bufferSize

def unassembledBytes (r : TCPReceiver) : Nat := r.reassembler.unassembledBytes

/-- The SYN branch: a connection request fixes the initial sequence number. -/
def acceptSyn (r : TCPReceiver) (seg : TCPSegment) : TCPReceiver :=
  if seg.header.syn then
    { r with syn := true, ackno := seg.header.seqno.add 1, isn := seg.header.seqno }
  else r

/-- The index of the payload in the stream, 0 in a segment with SYN. -/
def segmentIndex (r : TCPReceiver) (seg : TCPSegment) : Nat :=
  if seg.header.syn then 0
  else sub64 (unwrap seg.header.seqno r.isn r.streamOut.bytesWritten) 1

/-- Push the payload; `ackno` moves when the segment starts at it or carries SYN. -/
def assemble (r : TCPReceiver) (seg : TCPSegment) : TCPReceiver :=
  if (r.fin = false ∨ (r.fin = true ∧ r.reassembler.empty = false)) ∧ r.syn = true then
    let writtenBeforeWrite := r.streamOut.bytesWritten
    let reassembler :=
      r.reassembler.pushSubstring seg.payload (r.segmentIndex seg) seg.header.fin
    if r.ackno = seg.header.seqno ∨ seg.header.syn = true then
      let writtenAfterWrite := reassembler.output.bytesWritten
      { r with
        reassembler := reassembler
        ackno := r.ackno.add (UInt32.ofNat (writtenAfterWrite - writtenBeforeWrite)) }
    else { r with reassembler := reassembler }
  else r

def acceptFin (r : TCPReceiver) (seg : TCPSegment) : TCPReceiver :=
  if seg.header.fin && r.syn then { r with fin := true } else r

/-- All bytes are assembled: count the FIN once and end the stream. -/
def finish (r : TCPReceiver) : TCPReceiver :=
  if r.fin && r.reassembler.empty then
    let r := if r.finNotCount then { r with ackno := r.ackno.add 1, finNotCount := false } else r
    { r with reassembler := { r.reassembler with output := r.reassembler.output.endInput } }
  else r

def segmentReceived (r : TCPReceiver) (seg : TCPSegment) : TCPReceiver :=
  if seg.header.syn && r.syn then r
  else (((r.acceptSyn seg).assemble seg).acceptFin seg).finish

/-- The application reads `n` bytes from the inbound stream. -/
def readOut (r : TCPReceiver) (n : Nat) : TCPReceiver :=
  { r with reassembler := r.reassembler.readOut n }

end TCPReceiver

end Sponge
