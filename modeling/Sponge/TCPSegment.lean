import Sponge.WrappingIntegers

/-!
# TCP segments

The header fields with the source's defaults, and the payload.
-/

namespace Sponge

structure TCPHeader where
  sport : UInt16 := 0
  dport : UInt16 := 0
  seqno : WrappingInt32 := ⟨0⟩
  ackno : WrappingInt32 := ⟨0⟩
  doff : UInt8 := 20 / 4
  urg : Bool := false
  ack : Bool := false
  psh : Bool := false
  rst : Bool := false
  syn : Bool := false
  fin : Bool := false
  win : UInt16 := 0
  cksum : UInt16 := 0
  uptr : UInt16 := 0
  deriving DecidableEq, Repr

structure TCPSegment where
  header : TCPHeader := {}
  payload : List UInt8 := []
  deriving DecidableEq, Repr

/-- The payload length, plus one for SYN and one for FIN. -/
def TCPSegment.lengthInSequenceSpace (seg : TCPSegment) : Nat :=
  seg.payload.length + (if seg.header.syn then 1 else 0) + (if seg.header.fin then 1 else 0)

/-- The sequence numbers a list of segments occupies. -/
def seqLength (segs : List TCPSegment) : Nat :=
  (segs.map TCPSegment.lengthInSequenceSpace).sum

@[simp] theorem seqLength_nil : seqLength [] = 0 := rfl

@[simp] theorem seqLength_cons (seg : TCPSegment) (segs : List TCPSegment) :
    seqLength (seg :: segs) = seg.lengthInSequenceSpace + seqLength segs := by simp [seqLength]

@[simp] theorem seqLength_append (a b : List TCPSegment) :
    seqLength (a ++ b) = seqLength a + seqLength b := by simp [seqLength]

end Sponge
