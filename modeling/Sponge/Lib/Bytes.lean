import Mathlib.Algebra.Order.Ring.Nat
import Mathlib.Data.List.Induction
import Mathlib.Tactic.Common

/-!
# Numbers in bytes

`number bs` is the number a byte string writes, most significant byte first, and
`encode len n` writes `n` in `len` bytes. A number that fits is read back
(`number_encode`), one that does not is read back modulo `256 ^ len`, and every
string is what it writes (`encode_number`). `field` is the number at a position
of a longer string.
-/

namespace Lib

/-- The big-endian number of a byte string. -/
def number (bs : List UInt8) : Nat := bs.foldl (fun n b => n * 256 + b.toNat) 0

/-- `n` in `len` bytes, most significant byte first. -/
def encode (len n : Nat) : List UInt8 :=
  (List.range len).map fun i => UInt8.ofNat (n >>> ((len - i - 1) * 8))

/-- The number in the `len` bytes from `offset` on. -/
def field (bs : List UInt8) (offset len : Nat) : Nat := number ((bs.drop offset).take len)

@[simp] theorem number_nil : number [] = 0 := rfl

theorem number_concat (bs : List UInt8) (b : UInt8) :
    number (bs ++ [b]) = number bs * 256 + b.toNat := by
  unfold number
  rw [List.foldl_append, List.foldl_cons, List.foldl_nil]

theorem number_lt (bs : List UInt8) : number bs < 256 ^ bs.length := by
  induction bs using List.reverseRecOn with
  | nil => exact Nat.one_pos
  | append_singleton bs b ih =>
    have hb := b.toNat_lt
    rw [number_concat, List.length_append, List.length_singleton, Nat.pow_succ]
    omega

theorem field_lt (bs : List UInt8) (offset len : Nat) : field bs offset len < 256 ^ len := by
  have h := number_lt ((bs.drop offset).take len)
  have hlen : ((bs.drop offset).take len).length ≤ len := List.length_take_le _ _
  exact Nat.lt_of_lt_of_le h (Nat.pow_le_pow_right (by omega) hlen)

@[simp] theorem encode_length (len n : Nat) : (encode len n).length = len := by simp [encode]

@[simp] theorem encode_zero (n : Nat) : encode 0 n = [] := rfl

/-- The last byte of a number, and the bytes of the rest of it. -/
theorem encode_succ (len n : Nat) :
    encode (len + 1) n = encode len (n / 256) ++ [UInt8.ofNat n] := by
  unfold encode
  rw [List.range_succ, List.map_append, List.map_singleton]
  congr 1
  · apply List.map_congr_left
    intro i hi
    have hlt : i < len := List.mem_range.mp hi
    congr 1
    rw [show (len + 1 - i - 1) * 8 = 8 + (len - i - 1) * 8 by omega, Nat.shiftRight_add]
    congr 1
    exact Nat.shiftRight_eq_div_pow n 8
  · rw [show (len + 1 - len - 1) * 8 = 0 by omega, Nat.shiftRight_zero]

theorem number_encode_mod (len n : Nat) : number (encode len n) = n % 256 ^ len := by
  induction len generalizing n with
  | zero => simp [Nat.mod_one]
  | succ len ih =>
    have hsplit : n % 256 ^ (len + 1) = n % 256 + 256 * (n / 256 % 256 ^ len) := by
      rw [Nat.pow_succ', Nat.mod_mul]
    rw [encode_succ, number_concat, ih, UInt8.toNat_ofNat', hsplit]
    omega

/-- A number that fits is read back. -/
theorem number_encode {len n : Nat} (h : n < 256 ^ len) : number (encode len n) = n := by
  rw [number_encode_mod, Nat.mod_eq_of_lt h]

/-- What a string writes is written as that string. -/
theorem encode_number (bs : List UInt8) : encode bs.length (number bs) = bs := by
  induction bs using List.reverseRecOn with
  | nil => rfl
  | append_singleton bs b ih =>
    have hb := b.toNat_lt
    have hdiv : (number bs * 256 + b.toNat) / 256 = number bs := by omega
    have hlast : UInt8.ofNat (number bs * 256 + b.toNat) = b := by
      apply UInt8.toNat_inj.mp
      rw [UInt8.toNat_ofNat']
      omega
    rw [List.length_append, List.length_singleton, number_concat, encode_succ, hdiv, ih, hlast]

/-- The bytes in front of a string write a number. -/
theorem exists_encode_append {len : Nat} {bs : List UInt8} (h : len ≤ bs.length) :
    ∃ n < 256 ^ len, ∃ rest, bs = encode len n ++ rest := by
  have hlen : (bs.take len).length = len := List.length_take_of_le h
  refine ⟨number (bs.take len), ?_, bs.drop len, ?_⟩
  · have hlt := number_lt (bs.take len)
    rwa [hlen] at hlt
  · have hwrite := encode_number (bs.take len)
    rw [hlen] at hwrite
    rw [hwrite, List.take_append_drop]

/-- A number written in front of other bytes. -/
theorem number_take_encode {len n : Nat} (h : n < 256 ^ len) (rest : List UInt8) :
    number ((encode len n ++ rest).take len) = n := by
  rw [List.take_left' (encode_length len n), number_encode h]

end Lib
