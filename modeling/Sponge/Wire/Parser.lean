import Mathlib.Data.List.Basic

/-!
# Buffers, parsers and unparsers

`NetParser` reads big-endian integers off the front of a buffer. It keeps its
first error: once there is one, nothing more is consumed and every integer reads
as 0.
-/

namespace Sponge

/-- The bytes of the buffers of a `BufferList`. -/
abbrev BufferList := List (List UInt8)

namespace BufferList

def size (b : BufferList) : Nat := b.foldl (fun ret buf => ret + buf.length) 0

/-- The conversion to `Buffer`. -/
def toBuffer : BufferList → Except String (List UInt8)
  | [] => .ok []
  | [buf] => .ok buf
  | _ :: _ :: _ => .error
      "BufferList: please use concatenate() to combine a multi-Buffer BufferList into one Buffer"

end BufferList

inductive ParseResult where
  | noError
  | badChecksum
  | packetTooShort
  | wrongIPVersion
  | headerTooShort
  | truncatedPacket
  | unsupported
  deriving DecidableEq, Repr

structure NetParser where
  buffer : List UInt8
  error : ParseResult := .noError
  deriving DecidableEq, Repr

namespace NetParser

def checkSize (p : NetParser) (size : Nat) : NetParser :=
  if size > p.buffer.length then { p with error := .packetTooShort } else p

/-- `_parse_int`, for an integer of `len` bytes. -/
def parseInt (len : Nat) (p : NetParser) : Nat × NetParser :=
  let p := p.checkSize len
  if p.error ≠ .noError then (0, p)
  else ((p.buffer.take len).foldl (fun ret b => ret * 256 + b.toNat) 0,
    { p with buffer := p.buffer.drop len })

def u8 (p : NetParser) : UInt8 × NetParser := (p.parseInt 1).map UInt8.ofNat id

def u16 (p : NetParser) : UInt16 × NetParser := (p.parseInt 2).map UInt16.ofNat id

def u32 (p : NetParser) : UInt32 × NetParser := (p.parseInt 4).map UInt32.ofNat id

def removePrefix (p : NetParser) (n : Nat) : NetParser :=
  let p := p.checkSize n
  if p.error ≠ .noError then p else { p with buffer := p.buffer.drop n }

end NetParser

namespace NetUnparser

/-- `_unparse_int`, for an integer of `len` bytes. -/
def unparseInt (len : Nat) (val : Nat) : List UInt8 :=
  (List.range len).map fun i => UInt8.ofNat (val >>> ((len - i - 1) * 8))

def u8 (val : UInt8) : List UInt8 := unparseInt 1 val.toNat

def u16 (val : UInt16) : List UInt8 := unparseInt 2 val.toNat

def u32 (val : UInt32) : List UInt8 := unparseInt 4 val.toNat

end NetUnparser

/-! ## The Internet checksum -/

structure InternetChecksum where
  sum : UInt32 := 0
  parity : Bool := false
  deriving DecidableEq, Repr

namespace InternetChecksum

def addByte (c : InternetChecksum) (b : UInt8) : InternetChecksum :=
  let val := if c.parity then b.toUInt16 else b.toUInt16 <<< 8
  { sum := c.sum + val.toUInt32, parity := !c.parity }

def add (c : InternetChecksum) (data : List UInt8) : InternetChecksum := data.foldl addByte c

/-- The loop of `value`; two turns always reach its end. -/
def fold : Nat → UInt32 → UInt32
  | 0, ret => ret
  | fuel + 1, ret => if ret > 0xffff then fold fuel ((ret >>> 16) + (ret &&& 0xffff)) else ret

def value (c : InternetChecksum) : UInt16 := ~~~(fold 2 c.sum).toUInt16

/-- One turn of the loop. -/
theorem turn_toNat (x : UInt32) :
    ((x >>> 16) + (x &&& 0xffff)).toNat = x.toNat / 65536 + x.toNat % 65536 := by
  have hmod : (x &&& 0xffff).toNat = x.toNat % 2 ^ 16 := by
    rw [UInt32.toNat_and]
    exact Nat.and_two_pow_sub_one_eq_mod _ 16
  have hdiv : (x >>> 16).toNat = x.toNat / 2 ^ 16 := by
    rw [UInt32.toNat_shiftRight]
    exact Nat.shiftRight_eq_div_pow _ 16
  have := x.toNat_lt
  rw [UInt32.toNat_add, hdiv, hmod]
  omega

/-- Two turns end the loop. -/
theorem fold_le (ret : UInt32) : ¬ fold 2 ret > 0xffff := by
  have hlt := ret.toNat_lt
  have hmax : (0xffff : UInt32).toNat = 65535 := rfl
  simp only [fold, gt_iff_lt, UInt32.lt_iff_toNat_lt]
  split
  · split
    · rw [turn_toNat, turn_toNat]
      rename_i h1 h2
      rw [turn_toNat] at h2
      omega
    · assumption
  · assumption

end InternetChecksum

end Sponge
