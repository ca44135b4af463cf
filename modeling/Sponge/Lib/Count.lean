import Mathlib.Data.Set.Card
import Sponge.Lib.Pieces

/-!
# How many positions are occupied

Items that are kept apart share no position, so the positions they occupy are as
many as their lengths add up to (`Separated.ncard_covered`), and at most the width
of a window that they all lie in (`Separated.sum_le`).
-/

namespace Lib

variable {β : Type*} {lo hi : β → Nat}

/-- The positions of the items, one item after the other. -/
def positions (lo hi : β → Nat) (l : List β) : List Nat :=
  l.flatMap fun b => List.range' (lo b) (hi b - lo b)

theorem mem_positions {l : List β} {k : Nat} : k ∈ positions lo hi l ↔ Covered lo hi l k := by
  unfold positions Covered
  rw [List.mem_flatMap]
  refine exists_congr fun b => and_congr_right fun _ => ?_
  rw [List.mem_range'_1]
  omega

theorem length_positions (l : List β) :
    (positions lo hi l).length = (l.map fun b => hi b - lo b).sum := by
  unfold positions
  rw [List.length_flatMap]
  simp only [List.length_range']

theorem Separated.nodup_positions {l : List β} (h : Separated lo hi l) :
    (positions lo hi l).Nodup := by
  unfold positions
  rw [List.nodup_flatMap]
  refine ⟨fun b _ => List.nodup_range', h.imp ?_⟩
  intro a b hab k ha hb
  rw [List.mem_range'_1] at ha hb
  omega

theorem setOf_covered (l : List β) :
    {k | Covered lo hi l k} = ↑(positions lo hi l).toFinset := by
  ext k
  rw [List.coe_toFinset]
  exact mem_positions.symm

theorem finite_covered (l : List β) : {k | Covered lo hi l k}.Finite := by
  rw [setOf_covered]
  exact Finset.finite_toSet _

/-- Each position is counted once. -/
theorem Separated.ncard_covered {l : List β} (h : Separated lo hi l) :
    {k | Covered lo hi l k}.ncard = (l.map fun b => hi b - lo b).sum := by
  rw [setOf_covered, Set.ncard_coe_finset, List.toFinset_card_of_nodup h.nodup_positions,
    length_positions]

/-- The items fit in a window that holds all their positions. -/
theorem Separated.sum_le {l : List β} (h : Separated lo hi l) {m n : Nat}
    (hw : ∀ k, Covered lo hi l k → m ≤ k ∧ k < m + n) :
    (l.map fun b => hi b - lo b).sum ≤ n := by
  have hsub : positions lo hi l ⊆ List.range' m n := by
    intro k hk
    rw [List.mem_range'_1]
    exact hw k (mem_positions.mp hk)
  have hle := (h.nodup_positions.subperm hsub).length_le
  rwa [length_positions, List.length_range'] at hle

end Lib
