import Mathlib.Data.List.Basic
import Mathlib.Tactic.Common

/-!
# Pieces of a sequence

Two views of data that arrives in pieces.

- `SliceAt S b d`: the list `d` is what the sequence `S` holds from position
  `b` on. Slices are cut (`take`, `drop`), glued (`append`) and, when they
  start where a prefix ends, extend it (`SliceAt.extend`).
- items that occupy an interval `[lo b, hi b)` of positions: `Separated` lists
  are in order with a gap between neighbours, and `Covered` is the set of
  positions they occupy. A separated list splits at any position
  (`Separated.exists_split`), takes a new item into a gap (`Separated.insert`),
  and a gap-free run of covered positions lies in one item
  (`Separated.run_in_head`).
-/

namespace Lib

section Slices

variable {α : Type*} {S T : List α} {b n : Nat} {d e : List α}

/-- `d` is the part of `S` that starts at position `b`. -/
def SliceAt (S : List α) (b : Nat) (d : List α) : Prop :=
  ∀ i c, d[i]? = some c → S[b + i]? = some c

@[simp] theorem sliceAt_nil (S : List α) (b : Nat) : SliceAt S b [] := by
  intro i c h; simp at h

theorem sliceAt_drop (S : List α) (b : Nat) : SliceAt S b (S.drop b) := by
  intro i c h
  rwa [List.getElem?_drop] at h

theorem SliceAt.take (h : SliceAt S b d) (n : Nat) : SliceAt S b (d.take n) := by
  intro i c hi
  rw [List.getElem?_take] at hi
  split at hi
  · exact h i c hi
  · cases hi

theorem SliceAt.drop (h : SliceAt S b d) (n : Nat) : SliceAt S (b + n) (d.drop n) := by
  intro i c hi
  rw [List.getElem?_drop] at hi
  rw [Nat.add_assoc]
  exact h (n + i) c hi

/-- Two slices glue where the first one ends. -/
theorem SliceAt.append (hd : SliceAt S b d) (he : SliceAt S (b + d.length) e) :
    SliceAt S b (d ++ e) := by
  intro i c hi
  rw [List.getElem?_append] at hi
  split at hi
  · exact hd i c hi
  · have h' := he (i - d.length) c hi
    rwa [show b + d.length + (i - d.length) = b + i by omega] at h'

/-- A slice stays one when the sequence grows at its end. -/
theorem SliceAt.mono (h : SliceAt S b d) (T : List α) : SliceAt (S ++ T) b d := by
  intro i c hi
  have h' := h i c hi
  have hlt : b + i < S.length := by
    rcases Nat.lt_or_ge (b + i) S.length with hl | hl
    · exact hl
    · rw [List.getElem?_eq_none hl] at h'; cases h'
  rw [List.getElem?_append_left hlt, h']

theorem SliceAt.length_le (h : SliceAt S b d) (hd : d ≠ []) : b + d.length ≤ S.length := by
  have hpos : 0 < d.length := List.length_pos_iff.mpr hd
  have h' := h (d.length - 1) _ (List.getElem?_eq_getElem (by omega))
  rcases Nat.lt_or_ge (b + (d.length - 1)) S.length with hl | hl
  · omega
  · rw [List.getElem?_eq_none hl] at h'; cases h'

/-- A slice lies in every prefix that is long enough. -/
theorem SliceAt.restrict (h : SliceAt S b d) (hp : T <+: S) (hl : b + d.length ≤ T.length) :
    SliceAt T b d := by
  intro i c hi
  have hlt : i < d.length := by
    by_contra hn
    rw [List.getElem?_eq_none (by omega)] at hi
    cases hi
  obtain ⟨rest, rfl⟩ := hp
  rw [← List.getElem?_append_left (by omega : b + i < T.length)]
  exact h i c hi

/-- A slice is determined by where it starts and how long it is. -/
theorem SliceAt.eq_take_drop (h : SliceAt S b d) : d = (S.drop b).take d.length := by
  apply List.ext_getElem?
  intro i
  rw [List.getElem?_take, List.getElem?_drop]
  split
  · rename_i hi
    rw [List.getElem?_eq_getElem hi]
    exact (h i _ (List.getElem?_eq_getElem hi)).symm
  · rename_i hi
    exact List.getElem?_eq_none (by omega)

theorem sliceAt_iff : SliceAt S b d ↔ (S.drop b).take d.length = d := by
  constructor
  · intro h
    exact h.eq_take_drop.symm
  · intro h
    rw [← h]
    exact (sliceAt_drop S b).take _

instance SliceAt.decidable [DecidableEq α] : Decidable (SliceAt S b d) :=
  decidable_of_iff _ sliceAt_iff.symm

theorem sliceAt_zero_iff : SliceAt S 0 d ↔ d <+: S := by
  constructor
  · intro h
    rw [h.eq_take_drop, List.drop_zero]
    exact List.take_prefix ..
  · rintro ⟨t, rfl⟩ i c hi
    have := SliceAt.mono (S := d) (b := 0) (d := d) (fun i c h => by simpa using h) t
    exact this i c hi

/-- A slice that starts where a prefix ends extends the prefix. -/
theorem SliceAt.extend (hp : d <+: S) (he : SliceAt S d.length e) : d ++ e <+: S := by
  rw [← sliceAt_zero_iff] at hp ⊢
  exact hp.append (by simpa using he)

end Slices

section Intervals

variable {β : Type*} (lo hi : β → Nat)

/-- In order, with a gap between neighbours. -/
def Separated (l : List β) : Prop := l.Pairwise fun a b => hi a < lo b

/-- Position `k` lies in one of the items. -/
def Covered (l : List β) (k : Nat) : Prop := ∃ b ∈ l, lo b ≤ k ∧ k < hi b

@[simp] theorem covered_nil (k : Nat) : ¬ Covered lo hi [] k := by simp [Covered]

@[simp] theorem covered_cons (b : β) (l : List β) (k : Nat) :
    Covered lo hi (b :: l) k ↔ (lo b ≤ k ∧ k < hi b) ∨ Covered lo hi l k := by simp [Covered]

@[simp] theorem covered_append (l m : List β) (k : Nat) :
    Covered lo hi (l ++ m) k ↔ Covered lo hi l k ∨ Covered lo hi m k := by
  simp [Covered, or_and_right, exists_or]

variable {lo hi}

/-- An item goes into the gap between two halves. -/
theorem Separated.insert {p q : List β} {m : β} (h : Separated lo hi (p ++ q))
    (hp : ∀ b ∈ p, hi b < lo m) (hq : ∀ b ∈ q, hi m < lo b) :
    Separated lo hi (p ++ m :: q) := by
  rw [Separated, List.pairwise_append] at h ⊢
  obtain ⟨h1, h2, h3⟩ := h
  refine ⟨h1, List.pairwise_cons.mpr ⟨hq, h2⟩, fun a ha b hb => ?_⟩
  rcases List.mem_cons.mp hb with rfl | hb
  · exact hp a ha
  · exact h3 a ha b hb

/-- The items that start before `x` come first. -/
theorem Separated.exists_split {l : List β} (h : Separated lo hi l) (hle : ∀ b ∈ l, lo b ≤ hi b)
    (x : Nat) : ∃ p q, l = p ++ q ∧ (∀ b ∈ p, lo b < x) ∧ ∀ b ∈ q, x ≤ lo b := by
  induction l with
  | nil => exact ⟨[], [], rfl, by simp, by simp⟩
  | cons a l ih =>
    obtain ⟨ha, hl⟩ := List.pairwise_cons.mp h
    have hla := hle a (by simp)
    rcases Nat.lt_or_ge (lo a) x with hx | hx
    · obtain ⟨p, q, rfl, hp, hq⟩ := ih hl fun b hb => hle b (by simp [hb])
      refine ⟨a :: p, q, rfl, ?_, hq⟩
      intro b hb
      rcases List.mem_cons.mp hb with rfl | hb
      · exact hx
      · exact hp b hb
    · refine ⟨[], a :: l, rfl, by simp, fun b hb => ?_⟩
      rcases List.mem_cons.mp hb with rfl | hb
      · exact hx
      · have := ha b hb; omega

/-- `takeWhile` and `dropWhile` find the split. -/
theorem takeWhile_dropWhile_of_split {p q : List β} {x : Nat} (hp : ∀ b ∈ p, lo b < x)
    (hq : ∀ b ∈ q, x ≤ lo b) :
    (p ++ q).takeWhile (fun b => decide (lo b < x)) = p ∧
      (p ++ q).dropWhile (fun b => decide (lo b < x)) = q := by
  have h1 : ∀ b ∈ p, decide (lo b < x) = true := fun b hb => by simpa using hp b hb
  rw [List.takeWhile_append_of_pos h1, List.dropWhile_append_of_pos h1]
  cases q with
  | nil => simp
  | cons b q =>
    have hb : decide (lo b < x) = false := by simpa using hq b (by simp)
    simp [hb]

/-- A gap-free run of covered positions that starts with the first item ends in it. -/
theorem Separated.run_in_head {b : β} {l : List β} (h : Separated lo hi (b :: l)) {n : Nat}
    (hn : ∀ k, lo b ≤ k → k ≤ n → Covered lo hi (b :: l) k) (hb : lo b ≤ hi b) : n < hi b := by
  rcases Nat.lt_or_ge n (hi b) with hlt | hge
  · exact hlt
  · obtain ⟨a, ha, h1, h2⟩ := hn (hi b) hb hge
    rcases List.mem_cons.mp ha with rfl | ha
    · omega
    · have := (List.pairwise_cons.mp h).1 a ha; omega

end Intervals

end Lib
