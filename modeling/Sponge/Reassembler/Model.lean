import Sponge.ByteStream

/-!
# The stream reassembler

`pushSubstring` accepts a substring at an index of the stream, merges it into
the ordered set of stored blocks, and writes the first block to the output
stream when it starts at `headIndex`. The set is the list of its blocks in
order; `lowerBound` is the position `std::set::lower_bound` returns, given as
the blocks before it and the blocks from it on.

`size_t` sums and differences are `Nat` ones: the sums stay far below 2^64,
and what is subtracted from `unassembledByte` has been counted in it before
(`storeBlock_stored`, `Stored.count`).
-/

namespace Sponge

structure BlockNode where
  begin : Nat := 0
  length : Nat := 0
  data : List UInt8 := []
  deriving DecidableEq, Repr

/-- The largest capacity the constructor accepts: it resizes a `vector<char>`
to the capacity, and `resize` throws `length_error` beyond `max_size()`. -/
def maxCapacity : Nat := 2 ^ 63 - 1

structure StreamReassembler where
  blocks : List BlockNode := []
  unassembledByte : Nat := 0
  headIndex : Nat := 0
  eofFlag : Bool := false
  output : ByteStream
  capacity : Nat
  deriving DecidableEq, Repr

/-- The three outcomes of merging `y` behind `x`, where `x` does not start after
`y`: they do not touch and `elm1` stays, `y` lies inside `x`, `y` sticks out. -/
def mergeOrdered (elm1 x y : BlockNode) : BlockNode × Int :=
  if x.begin + x.length < y.begin then
    (elm1, -1)
  else if x.begin + x.length ≥ y.begin + y.length then
    (x, y.length)
  else
    let data := x.data ++ y.data.drop (x.begin + x.length - y.begin)
    ({ begin := x.begin, data := data, length := data.length },
      (x.begin + x.length - y.begin : Nat))

/-- Merge `elm2` into `elm1`. The second component is the number of merged
bytes, `-1` when the two do not touch. -/
def mergeBlock (elm1 elm2 : BlockNode) : BlockNode × Int :=
  if elm1.begin > elm2.begin then mergeOrdered elm1 elm2 elm1
  else mergeOrdered elm1 elm1 elm2

/-- The blocks before, and from, the first one that does not start before `elm`. -/
def lowerBound (blocks : List BlockNode) (elm : BlockNode) : List BlockNode × List BlockNode :=
  (blocks.takeWhile (fun b => decide (b.begin < elm.begin)),
    blocks.dropWhile (fun b => decide (b.begin < elm.begin)))

/-- The first merge loop: absorb the block at the lower bound while it touches.
Each turn erases a block, so the number of blocks bounds the turns. -/
def mergeNext : Nat → BlockNode → List BlockNode → Nat → BlockNode × List BlockNode × Nat
  | 0, elm, blocks, unassembled => (elm, blocks, unassembled)
  | fuel + 1, elm, blocks, unassembled =>
    match lowerBound blocks elm with
    | (_, []) => (elm, blocks, unassembled)
    | (pre, next :: post) =>
      let merged := mergeBlock elm next
      if merged.2 ≥ 0 then
        mergeNext fuel merged.1 (pre ++ post) (unassembled - merged.2.toNat)
      else (elm, blocks, unassembled)

/-- The second merge loop: absorb the block before the lower bound while it touches. -/
def mergePrev : Nat → BlockNode → List BlockNode → Nat → BlockNode × List BlockNode × Nat
  | 0, elm, blocks, unassembled => (elm, blocks, unassembled)
  | fuel + 1, elm, blocks, unassembled =>
    match lowerBound blocks elm with
    | (pre, post) =>
      match pre.getLast? with
      | none => (elm, blocks, unassembled)
      | some prev =>
        let merged := mergeBlock elm prev
        if merged.2 ≥ 0 then
          mergePrev fuel merged.1 (pre.dropLast ++ post) (unassembled - merged.2.toNat)
        else (elm, blocks, unassembled)

/-- `std::set::insert`: nothing happens when a block with the same begin is present. -/
def insertBlock (blocks : List BlockNode) (elm : BlockNode) : List BlockNode :=
  match lowerBound blocks elm with
  | (pre, post) =>
    match post with
    | [] => pre ++ [elm]
    | b :: rest => if b.begin = elm.begin then blocks else pre ++ elm :: b :: rest

namespace StreamReassembler

/-- The constructor; `none` when it throws. -/
def mk? (capacity : Nat) : Option StreamReassembler :=
  if capacity ≤ maxCapacity then some { output := { capacity := capacity }, capacity := capacity }
  else none

def unassembledBytes (r : StreamReassembler) : Nat := r.unassembledByte

def empty (r : StreamReassembler) : Bool := r.unassembledByte == 0

/-- Count the new element, merge it with the stored blocks and store the result. -/
def storeBlock (r : StreamReassembler) (elm : BlockNode) : StreamReassembler :=
  let next := mergeNext r.blocks.length elm r.blocks (r.unassembledByte + elm.length)
  let prev := mergePrev next.2.1.length next.1 next.2.1 next.2.2
  { r with unassembledByte := prev.2.2, blocks := insertBlock prev.2.1 prev.1 }

/-- Write the first block to the output when it starts at the head. What the
output does not accept of it is dropped with the block. -/
def writeHead (r : StreamReassembler) : StreamReassembler :=
  match r.blocks with
  | [] => r
  | headBlock :: rest =>
    if headBlock.begin = r.headIndex then
      let written := r.output.write headBlock.data
      { r with
        output := written.1
        headIndex := r.headIndex + written.2
        unassembledByte := r.unassembledByte - written.2
        blocks := rest }
    else r

def judgeEof (r : StreamReassembler) (eof : Bool) : StreamReassembler :=
  let r := if eof then { r with eofFlag := true } else r
  if r.eofFlag && r.empty then { r with output := r.output.endInput } else r

/-- The substring as a block, without the prefix below the head. -/
def newBlock (r : StreamReassembler) (data : List UInt8) (index : Nat) : BlockNode :=
  if index < r.headIndex then
    let offset := r.headIndex - index
    { begin := index + offset, data := data.drop offset, length := (data.drop offset).length }
  else
    { begin := index, length := data.length, data := data }

def pushSubstring (r : StreamReassembler) (data : List UInt8) (index : Nat) (eof : Bool) :
    StreamReassembler :=
  if index ≥ r.headIndex + r.capacity then r
  else if index + data.length ≤ r.headIndex then r.judgeEof eof
  else ((r.storeBlock (r.newBlock data index)).writeHead).judgeEof eof

/-- The application reads `n` bytes from the output stream. -/
def readOut (r : StreamReassembler) (n : Nat) : StreamReassembler :=
  { r with output := r.output.popOutput n }

end StreamReassembler

end Sponge
