import Sponge.Lib.Bytes

/-!
# Ones' complement sums

`carried m n` adds the carries of `n` back in: it is `n` modulo `m`, with `m` and
not 0 for a multiple of `m` that is not 0 itself. One turn of the end-around
carry keeps it (`carried_turn`), so a loop of such turns ends with it
(`carried_of_le`). `wordSum` is the sum of the 16-bit words of a byte string, and
`onesSum` the same with a carry after each word (`onesSum_eq`). `Verifies c bs`
says that the sum, started from `c`, is all ones, and `verifies_seal` that the
complement of the sum makes it so.
-/

namespace Lib

/-! ## End-around carries -/

def carried (m n : Nat) : Nat := if n = 0 then 0 else (n - 1) % m + 1

@[simp] theorem carried_zero (m : Nat) : carried m 0 = 0 := if_pos rfl

theorem carried_pos {m n : Nat} (h : n ≠ 0) : carried m n = (n - 1) % m + 1 := if_neg h

theorem carried_le {m : Nat} (hm : 0 < m) (n : Nat) : carried m n ≤ m := by
  unfold carried
  split
  · exact Nat.zero_le m
  · exact Nat.mod_lt _ hm

/-- Nothing is left to carry. -/
theorem carried_of_le {m n : Nat} (h : n ≤ m) : carried m n = n := by
  unfold carried
  split
  · omega
  · rw [Nat.mod_eq_of_lt (by omega)]
    omega

theorem carried_add_mul (m n k : Nat) (h : n ≠ 0) : carried m (n + m * k) = carried m n := by
  rw [carried_pos h, carried_pos (by omega), show n + m * k - 1 = n - 1 + m * k by omega,
    Nat.add_mul_mod_self_left]

/-- One turn: the digits above the base are added to those below it. -/
theorem carried_turn (m n : Nat) : carried m (n / (m + 1) + n % (m + 1)) = carried m n := by
  rcases Nat.eq_zero_or_pos n with rfl | hpos
  · simp
  · have hdiv := Nat.div_add_mod n (m + 1)
    rw [Nat.add_mul, Nat.one_mul] at hdiv
    have hne : n / (m + 1) + n % (m + 1) ≠ 0 := by
      intro h0
      obtain ⟨hq, hr⟩ := Nat.add_eq_zero_iff.mp h0
      rw [hq, hr, Nat.mul_zero] at hdiv
      omega
    rw [← carried_add_mul m _ (n / (m + 1)) hne]
    congr 1
    omega

/-- The sum is all ones when it is a multiple of `m` that is not 0. -/
theorem carried_eq_iff {m : Nat} (hm : 0 < m) (n : Nat) :
    carried m n = m ↔ n ≠ 0 ∧ m ∣ n := by
  constructor
  · intro h
    have hne : n ≠ 0 := by
      rintro rfl
      rw [carried_zero] at h
      omega
    refine ⟨hne, ?_⟩
    rw [carried_pos hne] at h
    have hdiv := Nat.div_add_mod (n - 1) m
    refine ⟨(n - 1) / m + 1, ?_⟩
    rw [Nat.mul_add, Nat.mul_one]
    omega
  · rintro ⟨hne, k, rfl⟩
    obtain ⟨k, rfl⟩ : ∃ j, k = j + 1 := ⟨k - 1, by
      rcases k with _ | k
      · exact absurd (Nat.mul_zero m) hne
      · rfl⟩
    rw [Nat.mul_add, Nat.mul_one, Nat.add_comm, carried_add_mul m m k (by omega)]
    exact carried_of_le (Nat.le_refl m)

/-- A sum and its complement. -/
theorem carried_complement {m : Nat} (hm : 0 < m) (n : Nat) :
    carried m (n + (m - carried m n)) = m := by
  rcases Nat.eq_zero_or_pos n with rfl | hpos
  · simpa using carried_of_le (Nat.le_refl m)
  · have hne : n ≠ 0 := by omega
    have hdiv := Nat.div_add_mod (n - 1) m
    have hlt := Nat.mod_lt (n - 1) hm
    rw [carried_eq_iff hm, carried_pos hne]
    refine ⟨by omega, (n - 1) / m + 1, ?_⟩
    rw [Nat.mul_add, Nat.mul_one]
    omega

/-! ## The words of a byte string -/

/-- The sum of the 16-bit words; an odd last byte is the high one of its word. -/
def wordSum : List UInt8 → Nat
  | [] => 0
  | [b] => b.toNat * 256
  | a :: b :: rest => a.toNat * 256 + b.toNat + wordSum rest

@[simp] theorem wordSum_nil : wordSum [] = 0 := rfl

theorem wordSum_append {a : List UInt8} (h : a.length % 2 = 0) (b : List UInt8) :
    wordSum (a ++ b) = wordSum a + wordSum b := by
  induction a using wordSum.induct with
  | case1 => simp
  | case2 x => cases h
  | case3 x y rest ih =>
    have hrest : rest.length % 2 = 0 := by
      rw [List.length_cons, List.length_cons] at h
      omega
    rw [List.cons_append, List.cons_append, wordSum, wordSum, ih hrest]
    omega

theorem wordSum_le (bs : List UInt8) : wordSum bs ≤ 65535 * ((bs.length + 1) / 2) := by
  induction bs using wordSum.induct with
  | case1 => simp
  | case2 b =>
    have hb := b.toNat_lt
    rw [wordSum, List.length_singleton]
    omega
  | case3 a b rest ih =>
    have ha := a.toNat_lt
    have hb := b.toNat_lt
    rw [wordSum, List.length_cons, List.length_cons]
    omega

/-- One word. -/
theorem wordSum_encode {n : Nat} (h : n < 65536) : wordSum (encode 2 n) = n := by
  rw [encode_succ, encode_succ, encode_zero, List.nil_append, List.singleton_append, wordSum,
    wordSum_nil, UInt8.toNat_ofNat', UInt8.toNat_ofNat']
  omega

/-- The big-endian 16-bit words of a string, the last one filled up with a zero byte. -/
def words : List UInt8 → List Nat
  | [] => []
  | [b] => [b.toNat * 256]
  | a :: b :: rest => (a.toNat * 256 + b.toNat) :: words rest

theorem wordSum_eq (bs : List UInt8) : wordSum bs = (words bs).sum := by
  induction bs using wordSum.induct with
  | case1 => rfl
  | case2 b => simp [wordSum, words]
  | case3 a b rest ih => rw [wordSum, words, List.sum_cons, ih]

theorem words_le (bs : List UInt8) : ∀ w ∈ words bs, w ≤ 65535 := by
  induction bs using wordSum.induct with
  | case1 => rintro _ ⟨⟩
  | case2 b =>
    have hb := b.toNat_lt
    intro w hw
    rw [List.mem_singleton.mp hw]
    omega
  | case3 a b rest ih =>
    have ha := a.toNat_lt
    have hb := b.toNat_lt
    intro w hw
    rcases List.mem_cons.mp hw with rfl | hw
    · omega
    · exact ih w hw

/-! ## The sum with end-around carries -/

/-- The sum of two words; the bit that is carried out is added at the other end. -/
def endAround (x y : Nat) : Nat := (x + y) % 65536 + (x + y) / 65536

/-- The sum of the words of a string, from the two words of `c` on. -/
def onesSum (c : Nat) (bs : List UInt8) : Nat :=
  (words bs).foldl endAround (endAround (c / 65536) (c % 65536))

theorem endAround_eq {x y : Nat} (hx : x ≤ 65535) (hy : y ≤ 65535) :
    endAround x y = carried 65535 (x + y) := by
  have hturn := carried_turn 65535 (x + y)
  have hle : (x + y) / 65536 + (x + y) % 65536 ≤ 65535 := by omega
  rw [carried_of_le hle] at hturn
  rw [← hturn]
  exact Nat.add_comm _ _

/-- What has been carried can be carried later. -/
theorem carried_carried_add (m n k : Nat) :
    carried m (carried m n + k) = carried m (n + k) := by
  rcases Nat.eq_zero_or_pos n with rfl | hpos
  · rw [carried_zero]
  · have hdiv := Nat.div_add_mod (n - 1) m
    have hcarried := carried_pos (m := m) (Nat.ne_of_gt hpos)
    rw [← carried_add_mul m (carried m n + k) ((n - 1) / m) (by omega)]
    congr 1
    omega

theorem foldl_endAround {ws : List Nat} (hws : ∀ w ∈ ws, w ≤ 65535) (n : Nat) :
    ws.foldl endAround (carried 65535 n) = carried 65535 (n + ws.sum) := by
  induction ws generalizing n with
  | nil => simp
  | cons w ws ih =>
    have hw := hws w List.mem_cons_self
    have hn := carried_le (m := 65535) (by omega) n
    rw [List.foldl_cons, endAround_eq hn hw, carried_carried_add,
      ih (fun v hv => hws v (List.mem_cons_of_mem _ hv)), List.sum_cons, Nat.add_assoc]

/-- Carrying after each word or once is the same. -/
theorem onesSum_eq {c : Nat} (hc : c < 2 ^ 32) (bs : List UInt8) :
    onesSum c bs = carried 65535 (c + wordSum bs) := by
  unfold onesSum
  rw [endAround_eq (by omega) (by omega), carried_turn, foldl_endAround (words_le bs), wordSum_eq]

/-! ## Verification -/

/-- The sum of the words, started from `c`, is all ones. -/
def Verifies (c : Nat) (bs : List UInt8) : Prop := carried 65535 (c + wordSum bs) = 65535

instance (c : Nat) (bs : List UInt8) : Decidable (Verifies c bs) :=
  inferInstanceAs (Decidable (_ = _))

/-- What is written in a word that was 0 to make the string verify. -/
def checksum (c : Nat) (bs : List UInt8) : Nat := 65535 - carried 65535 (c + wordSum bs)

theorem checksum_lt (c : Nat) (bs : List UInt8) : checksum c bs < 65536 := by
  unfold checksum
  omega

/-- A string whose checksum word was 0 when the checksum was taken. -/
theorem verifies_seal (c : Nat) {a : List UInt8} (h : a.length % 2 = 0) (b : List UInt8) :
    Verifies c (a ++ encode 2 (checksum c (a ++ encode 2 0 ++ b)) ++ b) := by
  have hlen (n : Nat) : (a ++ encode 2 n).length % 2 = 0 := by
    rw [List.length_append, encode_length]
    omega
  have hsum (n : Nat) (hn : n < 65536) :
      wordSum (a ++ encode 2 n ++ b) = wordSum a + n + wordSum b := by
    rw [wordSum_append (hlen n), wordSum_append h, wordSum_encode hn]
  have hcomp := carried_complement (m := 65535) (by omega) (c + wordSum (a ++ encode 2 0 ++ b))
  unfold Verifies
  rw [hsum _ (checksum_lt c _)]
  unfold checksum
  rw [hsum 0 (by omega)] at hcomp ⊢
  rw [← hcomp]
  congr 1
  rw [hcomp]
  omega

end Lib
