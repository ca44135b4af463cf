import Sponge.Lib.Count
import Sponge.Reassembler.Merge

/-!
# The merge phase over iterators

The two loops of `push_substring` with the iterator they move through the ordered
set: a position, with the number of blocks as the end. `deref` has no value at the
end, and a loop that is out of turns has none either, so that a value says that the
phase has come to its end without a bad access. It is the one `storeBlock` computes,
on any list of blocks (`mergePhase_eq`).

On blocks that are kept apart, `mergePhase_preserves` says what the phase leaves
once its element is inserted.
-/

namespace Sponge

open Lib BlockNode

/-- `*iter`. -/
def deref (blocks : List BlockNode) (iter : Nat) : Option BlockNode := blocks[iter]?

/-- The iterator that `std::set::lower_bound` returns. -/
def lowerBoundIter (blocks : List BlockNode) (elm : BlockNode) : Nat :=
  (lowerBound blocks elm).1.length

/-- The first loop. `sum` adds up what `merge_block` returns; the iterator goes on to the
second one. -/
def mergeNextLoop : Nat → BlockNode → List BlockNode → Nat → Nat →
    Option (BlockNode × List BlockNode × Nat × Nat)
  | 0, _, _, _, _ => none
  | fuel + 1, elm, blocks, iter, sum =>
    if iter = blocks.length then some (elm, blocks, iter, sum)
    else do
      let block ← deref blocks iter
      let merged := mergeBlock elm block
      if merged.2 ≥ 0 then
        let blocks := blocks.eraseIdx iter
        mergeNextLoop fuel merged.1 blocks (lowerBoundIter blocks merged.1)
          (sum + merged.2.toNat)
      else some (elm, blocks, iter, sum)

/-- The second loop, from the iterator that has been moved back. -/
def mergePrevLoop : Nat → BlockNode → List BlockNode → Nat → Nat →
    Option (BlockNode × List BlockNode × Nat)
  | 0, _, _, _, _ => none
  | fuel + 1, elm, blocks, iter, sum => do
    let block ← deref blocks iter
    let merged := mergeBlock elm block
    if merged.2 ≥ 0 then
      let blocks := blocks.eraseIdx iter
      let iter := lowerBoundIter blocks merged.1
      if iter = 0 then some (merged.1, blocks, sum + merged.2.toNat)
      else mergePrevLoop fuel merged.1 blocks (iter - 1) (sum + merged.2.toNat)
    else some (elm, blocks, sum)

/-- Both loops, with `fuel` turns for each. -/
def mergePhase (fuel : Nat) (blocks : List BlockNode) (elm : BlockNode) :
    Option (BlockNode × List BlockNode × Nat) := do
  let (elm, blocks, iter, sum) ← mergeNextLoop fuel elm blocks (lowerBoundIter blocks elm) 0
  if iter = 0 then some (elm, blocks, sum) else mergePrevLoop fuel elm blocks (iter - 1) sum

/-! ## The loops come to their end -/

section
variable {blocks pre post : List BlockNode} {e b : BlockNode}

theorem lowerBound_eq (h : lowerBound blocks e = (pre, post)) : blocks = pre ++ post := by
  obtain ⟨rfl, rfl⟩ := Prod.mk.inj h
  exact List.takeWhile_append_dropWhile.symm

theorem lowerBoundIter_eq (h : lowerBound blocks e = (pre, post)) :
    lowerBoundIter blocks e = pre.length := by
  rw [lowerBoundIter, h]

theorem deref_append (pre post : List BlockNode) (b : BlockNode) :
    deref (pre ++ b :: post) pre.length = some b := by
  simp [deref]

theorem eraseIdx_append (pre post : List BlockNode) (b : BlockNode) :
    (pre ++ b :: post).eraseIdx pre.length = pre ++ post := by
  rw [List.eraseIdx_append_of_length_le (Nat.le_refl _), Nat.sub_self, List.eraseIdx_cons_zero]

theorem length_erased (pre post : List BlockNode) (b : BlockNode) :
    (pre ++ b :: post).length = (pre ++ post).length + 1 := by
  rw [List.length_append, List.length_append, List.length_cons]
  omega

/-- A turn of the first loop whose iterator is not the end. -/
theorem mergeNextLoop_turn {next : BlockNode} (h : lowerBound blocks e = (pre, next :: post))
    (fuel sum : Nat) : mergeNextLoop (fuel + 1) e blocks (lowerBoundIter blocks e) sum =
      if (mergeBlock e next).2 ≥ 0 then
        mergeNextLoop fuel (mergeBlock e next).1 (pre ++ post)
          (lowerBoundIter (pre ++ post) (mergeBlock e next).1) (sum + (mergeBlock e next).2.toNat)
      else some (e, blocks, lowerBoundIter blocks e, sum) := by
  have hiter := lowerBoundIter_eq h
  have hblocks := lowerBound_eq h
  have hin : ¬ lowerBoundIter blocks e = blocks.length := by
    rw [hiter, hblocks, List.length_append, List.length_cons]
    omega
  have hderef : deref blocks (lowerBoundIter blocks e) = some next := by
    rw [hiter, hblocks, deref_append]
  have herase : blocks.eraseIdx (lowerBoundIter blocks e) = pre ++ post := by
    rw [hiter, hblocks, eraseIdx_append]
  rw [mergeNextLoop, if_neg hin, hderef, Option.bind_eq_bind, Option.bind_some]
  simp only [herase]

/-- A turn of the second loop, with the test in front of it passed. -/
theorem mergePrevLoop_turn {prev : BlockNode} (h : lowerBound blocks e = (pre ++ [prev], post))
    (fuel sum : Nat) :
    (if lowerBoundIter blocks e = 0 then some (e, blocks, sum)
      else mergePrevLoop (fuel + 1) e blocks (lowerBoundIter blocks e - 1) sum) =
      if (mergeBlock e prev).2 ≥ 0 then
        (if lowerBoundIter (pre ++ post) (mergeBlock e prev).1 = 0 then
          some ((mergeBlock e prev).1, pre ++ post, sum + (mergeBlock e prev).2.toNat)
        else mergePrevLoop fuel (mergeBlock e prev).1 (pre ++ post)
          (lowerBoundIter (pre ++ post) (mergeBlock e prev).1 - 1)
          (sum + (mergeBlock e prev).2.toNat))
      else some (e, blocks, sum) := by
  have hiter : lowerBoundIter blocks e = pre.length + 1 := by
    rw [lowerBoundIter_eq h, List.length_append, List.length_singleton]
  have hcons : blocks = pre ++ prev :: post := by
    rw [lowerBound_eq h, List.append_assoc, List.singleton_append]
  have hderef : deref blocks pre.length = some prev := by
    rw [hcons, deref_append]
  have herase : blocks.eraseIdx pre.length = pre ++ post := by
    rw [hcons, eraseIdx_append]
  rw [hiter, if_neg (Nat.succ_ne_zero _), Nat.add_sub_cancel, mergePrevLoop, hderef,
    Option.bind_eq_bind, Option.bind_some]
  simp only [herase]

/-- The first loop gets to where `mergeNext` does, and adds up what that subtracts. -/
theorem mergeNextLoop_eq :
    ∀ (k : Nat) (e : BlockNode) (blocks : List BlockNode), blocks.length ≤ k →
      ∃ m rest n, rest.length ≤ blocks.length ∧
        (∀ un, mergeNext k e blocks un = (m, rest, un - n)) ∧
        ∀ fuel sum, k ≤ fuel → mergeNextLoop (fuel + 1) e blocks (lowerBoundIter blocks e) sum =
          some (m, rest, lowerBoundIter rest m, sum + n)
  | 0, e, blocks, hk => by
    have hnil : blocks = [] := List.length_eq_zero_iff.mp (by omega)
    subst hnil
    exact ⟨e, [], 0, Nat.le_refl _, fun un => rfl, fun fuel sum _ => if_pos rfl⟩
  | k + 1, e, blocks, hk => by
    rcases hlb : lowerBound blocks e with ⟨pre, post⟩
    have hblocks := lowerBound_eq hlb
    cases post with
    | nil =>
      -- the iterator is the end, which is not dereferenced
      have hend : lowerBoundIter blocks e = blocks.length := by
        rw [lowerBoundIter_eq hlb, hblocks, List.append_nil]
      refine ⟨e, blocks, 0, Nat.le_refl _, fun un => ?_, fun fuel sum _ => if_pos hend⟩
      simp only [mergeNext, hlb, Nat.sub_zero]
    | cons next post =>
      have hlen := length_erased pre post next
      rw [← hblocks] at hlen
      by_cases hm : (mergeBlock e next).2 ≥ 0
      · obtain ⟨m, rest, n, hrest, hnext, hloop⟩ :=
          mergeNextLoop_eq k (mergeBlock e next).1 (pre ++ post) (by omega)
        refine ⟨m, rest, (mergeBlock e next).2.toNat + n, by omega, fun un => ?_,
          fun fuel sum hfuel => ?_⟩
        · simp only [mergeNext, hlb]
          rw [if_pos hm, hnext, Nat.sub_sub]
        · obtain ⟨fuel, rfl⟩ : ∃ f, fuel = f + 1 := ⟨fuel - 1, by omega⟩
          rw [mergeNextLoop_turn hlb, if_pos hm, hloop fuel _ (by omega), Nat.add_assoc]
      · refine ⟨e, blocks, 0, Nat.le_refl _, fun un => ?_, fun fuel sum _ => ?_⟩
        · simp only [mergeNext, hlb]
          rw [if_neg hm, Nat.sub_zero]
        · rw [mergeNextLoop_turn hlb, if_neg hm, Nat.add_zero]

/-- The second loop, with the test in front of it, gets to where `mergePrev` does. -/
theorem mergePrevLoop_eq :
    ∀ (k : Nat) (e : BlockNode) (blocks : List BlockNode), blocks.length ≤ k →
      ∃ m rest n, (∀ un, mergePrev k e blocks un = (m, rest, un - n)) ∧
        ∀ fuel sum, k ≤ fuel →
          (if lowerBoundIter blocks e = 0 then some (e, blocks, sum)
            else mergePrevLoop (fuel + 1) e blocks (lowerBoundIter blocks e - 1) sum) =
            some (m, rest, sum + n)
  | 0, e, blocks, hk => by
    have hnil : blocks = [] := List.length_eq_zero_iff.mp (by omega)
    subst hnil
    exact ⟨e, [], 0, fun un => rfl, fun fuel sum _ => if_pos rfl⟩
  | k + 1, e, blocks, hk => by
    rcases hlb : lowerBound blocks e with ⟨pre, post⟩
    rcases List.eq_nil_or_concat pre with rfl | ⟨pre, prev, rfl⟩
    · -- the iterator is the beginning, and is not moved back
      refine ⟨e, blocks, 0, fun un => ?_, fun fuel sum _ => if_pos (lowerBoundIter_eq hlb)⟩
      simp only [mergePrev, hlb, List.getLast?_nil, Nat.sub_zero]
    · rw [List.concat_eq_append] at hlb
      have hlast : (pre ++ [prev]).getLast? = some prev := List.getLast?_concat
      have hlen := length_erased pre post prev
      rw [← List.singleton_append, ← List.append_assoc, ← lowerBound_eq hlb] at hlen
      by_cases hm : (mergeBlock e prev).2 ≥ 0
      · obtain ⟨m, rest, n, hprev, hloop⟩ :=
          mergePrevLoop_eq k (mergeBlock e prev).1 (pre ++ post) (by omega)
        refine ⟨m, rest, (mergeBlock e prev).2.toNat + n, fun un => ?_, fun fuel sum hfuel => ?_⟩
        · simp only [mergePrev, hlb, hlast]
          rw [if_pos hm, List.dropLast_concat, hprev, Nat.sub_sub]
        · obtain ⟨fuel, rfl⟩ : ∃ f, fuel = f + 1 := ⟨fuel - 1, by omega⟩
          rw [mergePrevLoop_turn hlb, if_pos hm, hloop fuel _ (by omega), Nat.add_assoc]
      · refine ⟨e, blocks, 0, fun un => ?_, fun fuel sum _ => ?_⟩
        · simp only [mergePrev, hlb, hlast]
          rw [if_neg hm, Nat.sub_zero]
        · rw [mergePrevLoop_turn hlb, if_neg hm, Nat.add_zero]

/-- The phase comes to its end on any blocks, with what `storeBlock` computes. -/
theorem mergePhase_eq (blocks : List BlockNode) (e : BlockNode) :
    ∃ m rest n, (∀ fuel, blocks.length < fuel → mergePhase fuel blocks e = some (m, rest, n)) ∧
      ∀ r : StreamReassembler, r.blocks = blocks → r.storeBlock e = { r with
        blocks := insertBlock rest m, unassembledByte := r.unassembledByte + e.length - n } := by
  obtain ⟨m1, rest1, n1, hrest, hnext, hloop1⟩ :=
    mergeNextLoop_eq blocks.length e blocks (Nat.le_refl _)
  obtain ⟨m, rest, n2, hprev, hloop2⟩ := mergePrevLoop_eq rest1.length m1 rest1 (Nat.le_refl _)
  refine ⟨m, rest, n1 + n2, fun fuel hfuel => ?_, fun r hr => ?_⟩
  · obtain ⟨fuel, rfl⟩ : ∃ f, fuel = f + 1 := ⟨fuel - 1, by omega⟩
    rw [mergePhase, hloop1 fuel 0 (by omega), Option.bind_eq_bind, Option.bind_some]
    simp only
    rw [hloop2 fuel _ (by omega), Nat.zero_add]
  · simp only [StreamReassembler.storeBlock, hr, hnext, hprev, Nat.sub_sub]

end

/-! ## What the phase leaves -/

/-- The blocks are in order with a gap between neighbours, each as long as its data, and hold
what `S` does. -/
structure BlocksOf (S : List UInt8) (blocks : List BlockNode) : Prop where
  gapped : Gapped blocks
  wf : ∀ b ∈ blocks, b.WF
  slice : ∀ b ∈ blocks, b.SliceOf S

section
variable {S : List UInt8} {blocks bs p q : List BlockNode} {e m b : BlockNode} {n k : Nat}

/-- Every index that is held has the byte of `S`. -/
theorem BlocksOf.byte (h : BlocksOf S blocks) (hb : b ∈ blocks) (hk : b.Covers k) :
    b.data[k - b.begin]? = S[k]? := by
  have hlt : k - b.begin < b.data.length := by
    rw [← (h.wf b hb).length_eq]
    have := hk.1
    have := hk.2
    unfold stop at this
    omega
  have hS := h.slice b hb (k - b.begin) _ (List.getElem?_eq_getElem hlt)
  rw [List.getElem?_eq_getElem hlt, ← hS, Nat.add_sub_cancel' hk.1]

theorem covers_iff_holds : b.Covers k ↔ Holds [b] k := by
  simp only [holds_cons, holds_nil, or_false]

theorem Gapped.ncard_holds (h : Gapped blocks) : {k | Holds blocks k}.ncard = totalLength blocks :=
  h.ncard_covered.trans (stop_sub_begin blocks)

theorem ncard_covers (b : BlockNode) : {k | b.Covers k}.ncard = b.length := by
  have hone : Gapped [b] := List.pairwise_singleton ..
  simp only [covers_iff_holds]
  rw [hone.ncard_holds, totalLength_cons, totalLength_nil, Nat.add_zero]

/-- The overlap that is counted is that of the element with the blocks it absorbs. -/
theorem Absorbed.overlap (h : Absorbed e bs m n) (hg : Gapped bs) :
    n = {k | e.Covers k ∧ Holds bs k}.ncard := by
  have hunion : {k | m.Covers k} = {k | e.Covers k} ∪ {k | Holds bs k} := Set.ext h.covers
  have hfin : {k | e.Covers k}.Finite := by
    simp only [covers_iff_holds]
    exact finite_covered [e]
  have hsum := Set.ncard_union_add_ncard_inter {k | e.Covers k} {k | Holds bs k} hfin
    (finite_covered bs)
  rw [← hunion, ncard_covers, ncard_covers, hg.ncard_holds] at hsum
  have hcount := h.count
  change n = ({k | e.Covers k} ∩ {k | Holds bs k}).ncard
  omega

/-- The element shares no index with the blocks that it does not absorb. -/
theorem Absorbed.holds_split (h : Absorbed e bs m n) (hg : Gapped (p ++ m :: q))
    (hk : e.Covers k) : Holds (p ++ bs ++ q) k ↔ Holds bs k := by
  have hm : m.Covers k := (h.covers k).mpr (.inl hk)
  obtain ⟨-, hmq, hpm⟩ := List.pairwise_append.mp hg
  have hp : ¬ Holds p k := by
    rintro ⟨b, hb, -, hlt⟩
    have := hpm b hb m List.mem_cons_self
    have := hm.1
    omega
  have hq : ¬ Holds q k := by
    rintro ⟨b, hb, hle, -⟩
    have := (List.pairwise_cons.mp hmq).1 b hb
    have := hm.2
    omega
  rw [holds_append, holds_append, or_iff_left hq, or_iff_right hp]

theorem BlocksOf.stored (h : BlocksOf S (p ++ bs ++ q)) (ha : Absorbed e bs m n)
    (hg : Gapped (p ++ m :: q)) (hs : e.SliceOf S) : BlocksOf S (p ++ m :: q) := by
  refine ⟨hg, fun b hb => ?_, fun b hb => ?_⟩
  · rcases eq_or_mem_of_replaced hb with rfl | hb
    · exact ha.wf
    · exact h.wf b hb
  · rcases eq_or_mem_of_replaced hb with rfl | hb
    · exact ha.slice S hs fun c hc => h.slice c (by simp [hc])
    · exact h.slice b hb

/-- **The merge phase keeps the blocks in order.** On blocks of one string `S` that are kept
apart, and an element of `S`, the two loops come to their end without a bad access. Inserting
what they leave restores the invariant, with the right byte at every index; the indices held are
the old ones and those of the element; and `merge_block` has returned, in sum, how many of the
element's were held before. -/
theorem mergePhase_preserves (h : BlocksOf S blocks) (he : e.WF) (hs : e.SliceOf S) :
    ∃ m rest n, (∀ fuel, blocks.length < fuel → mergePhase fuel blocks e = some (m, rest, n)) ∧
      BlocksOf S (insertBlock rest m) ∧
      (∀ b ∈ insertBlock rest m, ∀ k, b.Covers k → b.data[k - b.begin]? = S[k]?) ∧
      (∀ k, Holds (insertBlock rest m) k ↔ Holds blocks k ∨ e.Covers k) ∧
      n = {k | e.Covers k ∧ Holds blocks k}.ncard := by
  obtain ⟨m, rest, n, hphase, hstore⟩ := mergePhase_eq blocks e
  obtain ⟨p, bs, q, m', n', rfl, habs, hgap, -, hspec⟩ := storeBlock_spec he h.wf h.gapped
  -- both say what `storeBlock` does, here with a count that takes either sum
  obtain ⟨r, hr, hun⟩ : ∃ r : StreamReassembler,
      r.blocks = p ++ bs ++ q ∧ r.unassembledByte = n + n' :=
    ⟨{ blocks := p ++ bs ++ q, unassembledByte := n + n', output := { capacity := 0 }
       capacity := 0 }, rfl, rfl⟩
  have heq := (hstore r hr).symm.trans (hspec r hr)
  have hblocks : insertBlock rest m = p ++ m' :: q := congrArg StreamReassembler.blocks heq
  have hcount : r.unassembledByte + e.length - n = r.unassembledByte + e.length - n' :=
    congrArg StreamReassembler.unassembledByte heq
  have hn : n = n' := by omega
  have hnew : BlocksOf S (insertBlock rest m) := by
    rw [hblocks]
    exact h.stored habs hgap hs
  refine ⟨m, rest, n, hphase, hnew, fun b hb k => hnew.byte hb, fun k => ?_, ?_⟩
  · rw [hblocks]
    simp only [holds_append, holds_cons, habs.covers]
    grind
  · rw [hn, habs.overlap (List.pairwise_append.mp (List.pairwise_append.mp h.gapped).1).2.1]
    congr 1
    ext k
    exact and_congr_right fun hk => (habs.holds_split hgap hk).symm

/-- Three blocks, and an element between the first two that touches both. -/
def threeBlocks : List BlockNode := [⟨0, 2, [7, 8]⟩, ⟨3, 2, [1, 2]⟩, ⟨8, 1, [6]⟩]

def bridge : BlockNode := ⟨1, 3, [8, 9, 1]⟩

theorem mergePhase_preserves_bridge :
    ∃ m rest n, (∀ fuel, 3 < fuel → mergePhase fuel threeBlocks bridge = some (m, rest, n)) ∧
      BlocksOf [7, 8, 9, 1, 2, 3, 4, 5, 6] (insertBlock rest m) ∧
      (∀ b ∈ insertBlock rest m, ∀ k, b.Covers k →
        b.data[k - b.begin]? = [7, 8, 9, 1, 2, 3, 4, 5, 6][k]?) ∧
      (∀ k, Holds (insertBlock rest m) k ↔ Holds threeBlocks k ∨ bridge.Covers k) ∧
      n = {k | bridge.Covers k ∧ Holds threeBlocks k}.ncard := by
  have hblocks : BlocksOf [7, 8, 9, 1, 2, 3, 4, 5, 6] threeBlocks := by
    refine ⟨by simp [Separated, threeBlocks, stop], ?_, ?_⟩ <;>
      simp only [threeBlocks, List.forall_mem_cons]
    · exact ⟨⟨rfl⟩, ⟨rfl⟩, ⟨rfl⟩, by simp⟩
    · unfold SliceOf
      exact ⟨by decide, by decide, by decide, by simp⟩
  exact mergePhase_preserves hblocks ⟨rfl⟩ (by unfold SliceOf; decide)

example : mergePhase 4 threeBlocks bridge =
    some (⟨0, 5, [7, 8, 9, 1, 2]⟩, [⟨8, 1, [6]⟩], 2) := by decide

end

end Sponge
