import Sponge.Lib.Checksum
import Sponge.Wire.Parser
import Mathlib.Data.Nat.Bitwise

/-!
# What the parser reads

Two forms of the same reads. `u8_drop`, `u16_drop`, `u32_drop` and
`removePrefix_drop` follow a parser through a fixed byte string by its position;
`u8_append`, `u16_append` and `u32_append` read back what `NetUnparser` wrote in
front of other bytes. `Reads` says how much a parser that ends without an error
has read.
-/

namespace Sponge

open Lib

theorem BufferList.size_eq (b : BufferList) : b.size = b.flatten.length := by
  have hfold (n : Nat) : b.foldl (fun ret buf => ret + buf.length) n = n + b.flatten.length := by
    induction b generalizing n with
    | nil => rfl
    | cons buf b ih =>
      rw [List.foldl_cons, ih, List.flatten_cons, List.length_append, Nat.add_assoc]
  exact (hfold 0).trans (Nat.zero_add _)

namespace NetParser

theorem checkSize_of_le {p : NetParser} {size : Nat} (h : size ≤ p.buffer.length) :
    p.checkSize size = p := if_neg (by omega)

theorem parseInt_eq {b : List UInt8} {len : Nat} (h : len ≤ b.length) :
    parseInt len { buffer := b } = (number (b.take len), { buffer := b.drop len }) := by
  unfold parseInt
  rw [checkSize_of_le h]
  exact if_neg (not_not.mpr rfl)

/-- If `q` has no error then `p` had none, and `n` bytes were read between them. -/
def Reads (p q : NetParser) (n : Nat) : Prop :=
  q.error = .noError → p.error = .noError ∧ q.buffer.length + n = p.buffer.length

theorem Reads.trans {p q r : NetParser} {m n : Nat} (h : Reads p q m) (h' : Reads q r n) :
    Reads p r (m + n) := by
  intro hr
  obtain ⟨hq, hlen'⟩ := h' hr
  obtain ⟨hp, hlen⟩ := h hq
  exact ⟨hp, by omega⟩

theorem parseInt_reads (p : NetParser) (len : Nat) : Reads p (p.parseInt len).2 len := by
  intro h
  unfold parseInt at h ⊢
  rcases Nat.lt_or_ge p.buffer.length len with hlt | hle
  · have hsize : p.checkSize len = { p with error := .packetTooShort } := if_pos hlt
    rw [hsize] at h
    cases h
  · rw [checkSize_of_le hle] at h ⊢
    simp only at h ⊢
    by_cases herr : p.error = .noError
    · rw [if_neg (not_not.mpr herr)]
      refine ⟨herr, ?_⟩
      rw [List.length_drop]
      omega
    · rw [if_pos herr] at h
      exact absurd h herr

theorem u8_reads (p : NetParser) : Reads p p.u8.2 1 := parseInt_reads p 1

theorem u16_reads (p : NetParser) : Reads p p.u16.2 2 := parseInt_reads p 2

theorem u32_reads (p : NetParser) : Reads p p.u32.2 4 := parseInt_reads p 4

/-- Skipping is refused after an error and beyond the end. -/
theorem removePrefix_ok {p : NetParser} {n : Nat} (h : (p.removePrefix n).error = .noError) :
    p.error = .noError ∧ n ≤ p.buffer.length := by
  unfold removePrefix at h
  rcases Nat.lt_or_ge p.buffer.length n with hlt | hle
  · have hsize : p.checkSize n = { p with error := .packetTooShort } := if_pos hlt
    rw [hsize] at h
    cases h
  · rw [checkSize_of_le hle] at h
    simp only at h
    by_cases herr : p.error = .noError
    · exact ⟨herr, hle⟩
    · rw [if_pos herr] at h
      exact absurd h herr

/-! ## Reads by position -/

section Position

variable {b : List UInt8} {k : Nat}

theorem parseInt_drop {len : Nat} (h : k + len ≤ b.length) :
    parseInt len { buffer := b.drop k } = (field b k len, { buffer := b.drop (k + len) }) := by
  have hlen : len ≤ (b.drop k).length := by
    rw [List.length_drop]
    omega
  rw [parseInt_eq hlen, List.drop_drop]
  rfl

theorem u8_drop (h : k + 1 ≤ b.length) :
    ({ buffer := b.drop k } : NetParser).u8 =
      (UInt8.ofNat (field b k 1), { buffer := b.drop (k + 1) }) := by
  unfold u8
  rw [parseInt_drop h]
  rfl

theorem u16_drop (h : k + 2 ≤ b.length) :
    ({ buffer := b.drop k } : NetParser).u16 =
      (UInt16.ofNat (field b k 2), { buffer := b.drop (k + 2) }) := by
  unfold u16
  rw [parseInt_drop h]
  rfl

theorem u32_drop (h : k + 4 ≤ b.length) :
    ({ buffer := b.drop k } : NetParser).u32 =
      (UInt32.ofNat (field b k 4), { buffer := b.drop (k + 4) }) := by
  unfold u32
  rw [parseInt_drop h]
  rfl

theorem removePrefix_drop {n : Nat} (h : k + n ≤ b.length) :
    ({ buffer := b.drop k } : NetParser).removePrefix n = { buffer := b.drop (k + n) } := by
  have hlen : n ≤ (b.drop k).length := by
    rw [List.length_drop]
    omega
  unfold removePrefix
  rw [checkSize_of_le hlen, ← List.drop_drop]
  exact if_neg (not_not.mpr rfl)

end Position

/-! ## Reads of what was written -/

section Written

variable (rest : List UInt8)

theorem parseInt_append {len n : Nat} (h : n < 256 ^ len) :
    parseInt len { buffer := NetUnparser.unparseInt len n ++ rest } =
      (n, { buffer := rest }) := by
  have hlen : len ≤ (encode len n ++ rest).length := by
    rw [List.length_append, encode_length]
    omega
  have hread := parseInt_eq hlen
  rw [number_take_encode h, List.drop_left' (encode_length len n)] at hread
  exact hread

theorem u8_append (v : UInt8) :
    ({ buffer := NetUnparser.u8 v ++ rest } : NetParser).u8 = (v, { buffer := rest }) := by
  unfold u8 NetUnparser.u8
  rw [parseInt_append rest v.toNat_lt]
  simp

theorem u16_append (v : UInt16) :
    ({ buffer := NetUnparser.u16 v ++ rest } : NetParser).u16 = (v, { buffer := rest }) := by
  unfold u16 NetUnparser.u16
  rw [parseInt_append rest v.toNat_lt]
  simp

theorem u32_append (v : UInt32) :
    ({ buffer := NetUnparser.u32 v ++ rest } : NetParser).u32 = (v, { buffer := rest }) := by
  unfold u32 NetUnparser.u32
  rw [parseInt_append rest v.toNat_lt]
  simp

end Written

end NetParser

namespace NetUnparser

@[simp] theorem u8_length (v : UInt8) : (u8 v).length = 1 := encode_length 1 v.toNat

@[simp] theorem u16_length (v : UInt16) : (u16 v).length = 2 := encode_length 2 v.toNat

@[simp] theorem u32_length (v : UInt32) : (u32 v).length = 4 := encode_length 4 v.toNat

/-- One byte is written as it is. -/
theorem u8_eq (v : UInt8) : u8 v = [v] := by
  have h := encode_number [v]
  rwa [show number [v] = v.toNat by simp [number]] at h

/-! Any bytes in front of a string are what some value writes. -/

theorem u8_front {b : List UInt8} {n : Nat} (h : n + 1 ≤ b.length) :
    ∃ v rest, b = u8 v ++ rest ∧ n ≤ rest.length := by
  obtain ⟨v, hv, rest, rfl⟩ := exists_encode_append (Nat.le_of_add_left_le h)
  have hmod : (UInt8.ofNat v).toNat = v := UInt8.toNat_ofNat'.trans (Nat.mod_eq_of_lt hv)
  rw [List.length_append, encode_length, Nat.add_comm] at h
  exact ⟨UInt8.ofNat v, rest, by rw [u8, hmod]; rfl, Nat.le_of_add_le_add_left h⟩

theorem u16_front {b : List UInt8} {n : Nat} (h : n + 2 ≤ b.length) :
    ∃ v rest, b = u16 v ++ rest ∧ n ≤ rest.length := by
  obtain ⟨v, hv, rest, rfl⟩ := exists_encode_append (Nat.le_of_add_left_le h)
  have hmod : (UInt16.ofNat v).toNat = v := UInt16.toNat_ofNat'.trans (Nat.mod_eq_of_lt hv)
  rw [List.length_append, encode_length, Nat.add_comm] at h
  exact ⟨UInt16.ofNat v, rest, by rw [u16, hmod]; rfl, Nat.le_of_add_le_add_left h⟩

theorem u32_front {b : List UInt8} {n : Nat} (h : n + 4 ≤ b.length) :
    ∃ v rest, b = u32 v ++ rest ∧ n ≤ rest.length := by
  obtain ⟨v, hv, rest, rfl⟩ := exists_encode_append (Nat.le_of_add_left_le h)
  have hmod : (UInt32.ofNat v).toNat = v := UInt32.toNat_ofNat'.trans (Nat.mod_eq_of_lt hv)
  rw [List.length_append, encode_length, Nat.add_comm] at h
  exact ⟨UInt32.ofNat v, rest, by rw [u32, hmod]; rfl, Nat.le_of_add_le_add_left h⟩

/-! Two values write the same bytes only if they are the same. -/

theorem u8_inj {v v' : UInt8} {rest rest' : List UInt8} :
    u8 v ++ rest = u8 v' ++ rest' ↔ v = v' ∧ rest = rest' := by
  simp [u8_eq]

theorem u16_inj {v v' : UInt16} {rest rest' : List UInt8} :
    u16 v ++ rest = u16 v' ++ rest' ↔ v = v' ∧ rest = rest' := by
  constructor
  · intro h
    have hread := NetParser.u16_append rest v
    rw [h, NetParser.u16_append] at hread
    simp only [Prod.mk.injEq, NetParser.mk.injEq, and_true] at hread
    exact ⟨hread.1.symm, hread.2.symm⟩
  · rintro ⟨rfl, rfl⟩
    rfl

end NetUnparser

/-! ## Parts of a field

Shifts and masks of what a parser read, as arithmetic on the number. -/

section Parts

variable {n k : Nat}

theorem high_nibble (h : n < 256) : UInt8.ofNat n >>> 4 = UInt8.ofNat (n / 16) := by
  have hshift : n >>> ((4 : UInt8).toNat % 8) = n / 16 := Nat.shiftRight_eq_div_pow n 4
  apply UInt8.toNat_inj.mp
  rw [UInt8.toNat_shiftRight, UInt8.toNat_ofNat', UInt8.toNat_ofNat', Nat.mod_eq_of_lt h, hshift]
  omega

theorem low_nibble (h : n < 256) : UInt8.ofNat n &&& 0x0f = UInt8.ofNat (n % 16) := by
  apply UInt8.toNat_inj.mp
  rw [UInt8.toNat_and, UInt8.toNat_ofNat', UInt8.toNat_ofNat', Nat.mod_eq_of_lt h,
    Nat.mod_eq_of_lt (by omega)]
  exact Nat.and_two_pow_sub_one_eq_mod n 4

theorem low16 (h : n < 2 ^ 16) (hk : k ≤ 16) :
    UInt16.ofNat n &&& UInt16.ofNat (2 ^ k - 1) = UInt16.ofNat (n % 2 ^ k) := by
  have hle : 2 ^ k ≤ 2 ^ 16 := Nat.pow_le_pow_right (by omega) hk
  have hmod : n % 2 ^ k ≤ n := Nat.mod_le n _
  apply UInt16.toNat_inj.mp
  rw [UInt16.toNat_and, UInt16.toNat_ofNat', UInt16.toNat_ofNat', UInt16.toNat_ofNat',
    Nat.mod_eq_of_lt h, Nat.mod_eq_of_lt (by omega), Nat.mod_eq_of_lt (by omega)]
  exact Nat.and_two_pow_sub_one_eq_mod n k

/-- A flag of a byte. -/
theorem mask8 (h : n < 2 ^ 8) (hk : k < 8) :
    ((UInt8.ofNat n &&& UInt8.ofNat (2 ^ k)) != 0) = n.testBit k := by
  have hlt : 2 ^ k < 2 ^ 8 := Nat.pow_lt_pow_right (by omega) hk
  have hmask : (UInt8.ofNat n &&& UInt8.ofNat (2 ^ k)).toNat = (n.testBit k).toNat * 2 ^ k := by
    rw [UInt8.toNat_and, UInt8.toNat_ofNat', UInt8.toNat_ofNat', Nat.mod_eq_of_lt h,
      Nat.mod_eq_of_lt hlt, Nat.and_two_pow]
  rw [Bool.eq_iff_iff, bne_iff_ne, ne_eq, ← UInt8.toNat_inj, hmask]
  cases n.testBit k <;> simp

/-- A flag of a word. -/
theorem mask16 (h : n < 2 ^ 16) (hk : k < 16) :
    ((UInt16.ofNat n &&& UInt16.ofNat (2 ^ k)) != 0) = n.testBit k := by
  have hlt : 2 ^ k < 2 ^ 16 := Nat.pow_lt_pow_right (by omega) hk
  have hmask : (UInt16.ofNat n &&& UInt16.ofNat (2 ^ k)).toNat =
      (n.testBit k).toNat * 2 ^ k := by
    rw [UInt16.toNat_and, UInt16.toNat_ofNat', UInt16.toNat_ofNat', Nat.mod_eq_of_lt h,
      Nat.mod_eq_of_lt hlt, Nat.and_two_pow]
  rw [Bool.eq_iff_iff, bne_iff_ne, ne_eq, ← UInt16.toNat_inj, hmask]
  cases n.testBit k <;> simp

end Parts

/-! ## The checksum -/

namespace InternetChecksum

theorem add_append (c : InternetChecksum) (a b : List UInt8) :
    c.add (a ++ b) = (c.add a).add b := List.foldl_append

theorem addByte_high {c : InternetChecksum} (hc : c.parity = false) (b : UInt8) :
    c.addByte b = { sum := c.sum + UInt32.ofNat (b.toNat * 256), parity := true } := by
  have hb := b.toNat_lt
  have hshift : b.toNat * 2 ^ 8 % 2 ^ 16 = b.toNat * 256 % 2 ^ 32 := by omega
  have hval : (b.toUInt16 <<< 8).toUInt32 = UInt32.ofNat (b.toNat * 256) := by
    apply UInt32.toNat_inj.mp
    rw [UInt16.toNat_toUInt32, UInt16.toNat_shiftLeft, UInt8.toNat_toUInt16,
      UInt32.toNat_ofNat', Nat.shiftLeft_eq]
    exact hshift
  unfold addByte
  rw [hc, ← hval]
  rfl

theorem addByte_low {c : InternetChecksum} (hc : c.parity = true) (b : UInt8) :
    c.addByte b = { sum := c.sum + UInt32.ofNat b.toNat, parity := false } := by
  have hb := b.toNat_lt
  have hval : b.toUInt16.toUInt32 = UInt32.ofNat b.toNat := by
    apply UInt32.toNat_inj.mp
    rw [UInt16.toNat_toUInt32, UInt8.toNat_toUInt16, UInt32.toNat_ofNat']
    omega
  unfold addByte
  rw [hc, ← hval]
  rfl

/-- The sum of a string that is added from an even position. -/
theorem add_sum (c : InternetChecksum) (hc : c.parity = false) (data : List UInt8) :
    (c.add data).sum = c.sum + UInt32.ofNat (wordSum data) := by
  induction data using wordSum.induct generalizing c with
  | case1 => simp [add]
  | case2 b =>
    unfold add
    rw [List.foldl_cons, List.foldl_nil, addByte_high hc, wordSum]
  | case3 a b rest ih =>
    have hword : c.add (a :: b :: rest) = InternetChecksum.add
        { sum := c.sum + UInt32.ofNat (a.toNat * 256) + UInt32.ofNat b.toNat } rest := by
      unfold add
      rw [List.foldl_cons, List.foldl_cons, addByte_high hc, addByte_low rfl]
    rw [hword, ih _ rfl, wordSum]
    simp only [UInt32.ofNat_add, UInt32.add_assoc]

/-- The sum when it does not wrap. -/
theorem add_sum_toNat (c : UInt32) (data : List UInt8) (h : c.toNat + wordSum data < 2 ^ 32) :
    (InternetChecksum.add { sum := c } data).sum.toNat = c.toNat + wordSum data := by
  rw [add_sum _ rfl, UInt32.toNat_add, UInt32.toNat_ofNat']
  simp only
  omega

theorem carried_fold (fuel : Nat) (ret : UInt32) :
    carried 65535 (fold fuel ret).toNat = carried 65535 ret.toNat := by
  induction fuel generalizing ret with
  | zero => rfl
  | succ fuel ih =>
    unfold fold
    split
    · rw [ih, turn_toNat]
      exact carried_turn 65535 ret.toNat
    · rfl

theorem value_toNat (c : InternetChecksum) :
    c.value.toNat = 65535 - carried 65535 c.sum.toNat := by
  have hle := fold_le c.sum
  have hmax : (0xffff : UInt32).toNat = 65535 := rfl
  rw [gt_iff_lt, UInt32.lt_iff_toNat_lt, hmax] at hle
  have hsize : UInt16.size = 65536 := rfl
  unfold value
  rw [← carried_fold 2 c.sum, carried_of_le (by omega), UInt16.toNat_not, UInt32.toNat_toUInt16,
    hsize]
  omega

/-- The sum of a short string does not wrap. -/
theorem sum_lt {c : UInt32} (hc : c.toNat < 2 ^ 20) {data : List UInt8}
    (h : data.length ≤ 65535) : c.toNat + wordSum data < 2 ^ 32 := by
  have hle := wordSum_le data
  omega

/-- The value over a string that does not wrap the sum. -/
theorem value_add (c : UInt32) (data : List UInt8) (h : c.toNat + wordSum data < 2 ^ 32) :
    (InternetChecksum.add { sum := c } data).value.toNat = checksum c.toNat data := by
  rw [value_toNat, add_sum_toNat c data h]
  rfl

theorem value_eq_zero_iff (c : UInt32) (data : List UInt8)
    (h : c.toNat + wordSum data < 2 ^ 32) :
    (InternetChecksum.add { sum := c } data).value = 0 ↔ Verifies c.toNat data := by
  have hle := carried_le (m := 65535) (by omega) (c.toNat + wordSum data)
  rw [← UInt16.toNat_inj, value_add c data h]
  unfold checksum Verifies
  rw [UInt16.toNat_zero]
  omega

/-- A string whose checksum field was 0 when the value was taken that stands there. -/
theorem verifies_value {c : UInt32} {a : List UInt8} (ha : a.length % 2 = 0) {b : List UInt8}
    (h : c.toNat + wordSum (a ++ encode 2 0 ++ b) < 2 ^ 32) :
    Verifies c.toNat
      (a ++ encode 2 (add { sum := c } (a ++ encode 2 0 ++ b)).value.toNat ++ b) := by
  rw [value_add c _ h]
  exact verifies_seal c.toNat ha b

end InternetChecksum

end Sponge
