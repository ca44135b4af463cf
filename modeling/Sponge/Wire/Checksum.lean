import Sponge.Wire.Codec

/-!
# The laws of the checksum

A string is added in pieces, and the parity that is kept between two of them
makes a piece of odd length as good as any. What `value` gives is the ones'
complement of the sum of the string's words, and a string that has it in a field
that was 0 adds up to 0 (`addAll_lawful`).
-/

namespace Sponge.InternetChecksum

open Lib

/-- A checksum from `c` on, over the pieces in order. -/
def addAll (c : UInt32) (pieces : List (List UInt8)) : InternetChecksum :=
  pieces.foldl add { sum := c }

/-- What holds of the checksum over a string in pieces. -/
structure Lawful (c : UInt32) (pieces : List (List UInt8)) : Prop where
  /-- The pieces do not show. -/
  whole : ∀ pieces', pieces'.flatten = pieces.flatten →
    (addAll c pieces').value = (addAll c pieces).value
  value : (addAll c pieces).value.toNat = 65535 - onesSum c.toNat pieces.flatten
  /-- After each byte, the accumulator is the sum in unbounded integers. -/
  fits : ∀ n, (add { sum := c } (pieces.flatten.take n)).sum.toNat =
    c.toNat + wordSum (pieces.flatten.take n)
  seals : ∀ a b pieces', a.length % 2 = 0 → pieces.flatten = a ++ [0, 0] ++ b →
    pieces'.flatten = a ++ NetUnparser.u16 (addAll c pieces).value ++ b →
    (addAll c pieces').value = 0

theorem addAll_eq (c : UInt32) (pieces : List (List UInt8)) :
    addAll c pieces = add { sum := c } pieces.flatten := by
  have hfold (d : InternetChecksum) : pieces.foldl add d = d.add pieces.flatten := by
    induction pieces generalizing d with
    | nil => rfl
    | cons piece pieces ih => rw [List.foldl_cons, ih, List.flatten_cons, add_append]
  exact hfold _

/-- **The Internet checksum.** From a start below 2^20, over at most 65535 bytes in any pieces. -/
theorem addAll_lawful {c : UInt32} (hc : c.toNat < 2 ^ 20) {pieces : List (List UInt8)}
    (hlen : pieces.flatten.length ≤ 65535) : Lawful c pieces := by
  have hvalue : (addAll c pieces).value.toNat = checksum c.toNat pieces.flatten := by
    rw [addAll_eq]
    exact value_add c _ (sum_lt hc hlen)
  refine ⟨fun pieces' h => ?_, ?_, fun n => ?_, fun a b pieces' ha hzero hsealed => ?_⟩
  · rw [addAll_eq, addAll_eq, h]
  · rw [hvalue, checksum, onesSum_eq c.toNat_lt]
  · refine add_sum_toNat c _ (sum_lt hc ?_)
    exact Nat.le_trans (List.length_take_le' _ _) hlen
  · have hfield : ([0, 0] : List UInt8) = encode 2 0 := rfl
    have hlen' : pieces'.flatten.length = pieces.flatten.length := by
      rw [hsealed, hzero]
      simp only [List.length_append, NetUnparser.u16_length, List.length_cons, List.length_nil]
    rw [addAll_eq, value_eq_zero_iff c _ (sum_lt hc (by omega)), hsealed, addAll_eq, hzero, hfield]
    refine verifies_value ha (sum_lt hc ?_)
    rwa [← hfield, ← hzero]

/-- A pseudo-header's sum, a string with pieces of odd length and a field that is 0. -/
theorem lawful_oddPieces : Lawful 0xfffff [[1], [2, 3, 0], [], [0, 0xff, 0xff]] :=
  addAll_lawful (by decide) (by decide)

end Sponge.InternetChecksum
