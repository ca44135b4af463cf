import Sponge.Reassembler.Model
import Sponge.Lib.Pieces

/-!
# The merge phase

What `mergeBlock` and the two merge loops of `pushSubstring` compute on an
ordered set of blocks with gaps between neighbours:

- `mergeBlock_apart`, `mergeBlock_touch`: one call;
- `Absorbed e bs m n`: `m` is `e` with the blocks `bs` merged in, `n` bytes of
  overlap in all; it composes (`Absorbed.trans`);
- `mergeNext_spec`, `mergePrev_spec`: each loop absorbs a run of neighbours and
  stops at a gap;
- `storeBlock_spec`: the blocks after storing an element.
-/

namespace Sponge

open Lib

namespace BlockNode

/-- One past the last index of the block. -/
def stop (b : BlockNode) : Nat := b.begin + b.length

structure WF (b : BlockNode) : Prop where
  length_eq : b.length = b.data.length

def Covers (b : BlockNode) (k : Nat) : Prop := b.begin ≤ k ∧ k < b.stop

/-- The block is a slice of the stream `S`. -/
def SliceOf (S : List UInt8) (b : BlockNode) : Prop := SliceAt S b.begin b.data

theorem begin_le_stop (b : BlockNode) : b.begin ≤ b.stop := Nat.le_add_right ..

end BlockNode

open BlockNode

/-- Ordered, disjoint, and no two blocks touch. -/
abbrev Gapped (blocks : List BlockNode) : Prop := Separated BlockNode.begin stop blocks

/-- Index `k` is held by one of the blocks. -/
abbrev Holds (blocks : List BlockNode) (k : Nat) : Prop := Covered BlockNode.begin stop blocks k

@[simp] theorem holds_nil (k : Nat) : ¬ Holds [] k := covered_nil _ _ k

@[simp] theorem holds_cons (b : BlockNode) (l : List BlockNode) (k : Nat) :
    Holds (b :: l) k ↔ b.Covers k ∨ Holds l k := covered_cons _ _ b l k

@[simp] theorem holds_append (l m : List BlockNode) (k : Nat) :
    Holds (l ++ m) k ↔ Holds l k ∨ Holds m k := covered_append _ _ l m k

def totalLength (blocks : List BlockNode) : Nat := (blocks.map BlockNode.length).sum

@[simp] theorem totalLength_nil : totalLength [] = 0 := rfl

@[simp] theorem totalLength_cons (b : BlockNode) (l : List BlockNode) :
    totalLength (b :: l) = b.length + totalLength l := by simp [totalLength]

@[simp] theorem totalLength_append (l m : List BlockNode) :
    totalLength (l ++ m) = totalLength l + totalLength m := by simp [totalLength]

theorem stop_sub_begin (blocks : List BlockNode) :
    (blocks.map fun b => b.stop - b.begin).sum = totalLength blocks := by
  unfold totalLength
  congr 1
  exact List.map_congr_left fun b _ => Nat.add_sub_cancel_left ..

theorem totalLength_eq_zero {blocks : List BlockNode} (h : ∀ b ∈ blocks, b.length = 0) :
    totalLength blocks = 0 := by
  rw [totalLength, List.sum_eq_zero_iff_forall_eq_nat]
  intro n hn
  obtain ⟨b, hb, rfl⟩ := List.mem_map.mp hn
  exact h b hb

/-- Blocks of no length hold nothing. -/
theorem not_holds_of_totalLength_zero {blocks : List BlockNode} (h : totalLength blocks = 0)
    (k : Nat) : ¬ Holds blocks k := by
  rintro ⟨b, hb, h1, h2⟩
  rw [totalLength, List.sum_eq_zero_iff_forall_eq_nat] at h
  have hlen := h b.length (List.mem_map_of_mem hb)
  unfold stop at h2
  omega

/-! ## One merge -/

/-- `m` is `e` with the blocks `bs` merged in; `n` counts the overlap. -/
structure Absorbed (e : BlockNode) (bs : List BlockNode) (m : BlockNode) (n : Nat) : Prop where
  wf : m.WF
  covers : ∀ k, m.Covers k ↔ e.Covers k ∨ Holds bs k
  count : m.length + n = e.length + totalLength bs
  slice : ∀ S, e.SliceOf S → (∀ b ∈ bs, b.SliceOf S) → m.SliceOf S

theorem Absorbed.refl {e : BlockNode} (h : e.WF) : Absorbed e [] e 0 :=
  ⟨h, by simp, by simp, fun _ he _ => he⟩

theorem Absorbed.trans {e m m' : BlockNode} {bs cs : List BlockNode} {n n' : Nat}
    (h : Absorbed e bs m n) (h' : Absorbed m cs m' n') : Absorbed e (bs ++ cs) m' (n + n') where
  wf := h'.wf
  covers k := by rw [h'.covers, h.covers, holds_append, or_assoc]
  count := by
    have := h.count; have := h'.count
    rw [totalLength_append]; omega
  slice S he hb := by
    simp only [List.mem_append] at hb
    exact h'.slice S (h.slice S he fun b hm => hb b (.inl hm)) fun b hm => hb b (.inr hm)

theorem Absorbed.comm {e m : BlockNode} {bs cs : List BlockNode} {n : Nat}
    (h : Absorbed e (bs ++ cs) m n) : Absorbed e (cs ++ bs) m n where
  wf := h.wf
  covers k := by rw [h.covers, holds_append, holds_append, or_comm (a := Holds bs k)]
  count := by
    have := h.count
    rw [totalLength_append] at this ⊢; omega
  slice S he hb := h.slice S he fun b hm => hb b (by
    simp only [List.mem_append] at hm ⊢; exact hm.symm)

theorem mergeBlock_apart {e b : BlockNode} (h : e.stop < b.begin ∨ b.stop < e.begin) :
    mergeBlock e b = (e, -1) := by
  have := e.begin_le_stop
  have := b.begin_le_stop
  unfold stop at *
  unfold mergeBlock mergeOrdered
  rcases h with h | h
  · rw [if_neg (show ¬ e.begin > b.begin by omega), if_pos h]
  · rw [if_pos (show e.begin > b.begin by omega), if_pos h]

/-- `mergeOrdered` on blocks that touch. -/
theorem mergeOrdered_touch {x y : BlockNode} (e : BlockNode) (hx : x.WF) (hy : y.WF)
    (hxy : x.begin ≤ y.begin) (ht : y.begin ≤ x.stop) :
    ∃ m n, mergeOrdered e x y = (m, ((n : Nat) : Int)) ∧ Absorbed x [y] m n ∧
      m.begin = x.begin ∧ m.stop = max x.stop y.stop := by
  have hlx := hx.length_eq
  have hly := hy.length_eq
  unfold stop at *
  unfold mergeOrdered
  rw [if_neg (show ¬ x.begin + x.length < y.begin by omega)]
  by_cases hc : x.begin + x.length ≥ y.begin + y.length
  · rw [if_pos hc]
    refine ⟨x, y.length, rfl, ⟨hx, fun k => ?_, by simp, fun S h _ => h⟩, rfl, ?_⟩
    · simp only [holds_cons, holds_nil, or_false]
      unfold BlockNode.Covers stop
      omega
    · omega
  · rw [if_neg hc]
    refine ⟨_, _, rfl, ⟨⟨rfl⟩, fun k => ?_, ?_, fun S h1 h2 => ?_⟩, rfl, ?_⟩
    · simp only [holds_cons, holds_nil, or_false]
      unfold BlockNode.Covers stop
      simp only [List.length_append, List.length_drop]
      omega
    · simp only [totalLength_cons, totalLength_nil, List.length_append, List.length_drop]
      omega
    · apply SliceAt.append h1
      have hd := SliceAt.drop (h2 y (by simp)) (x.begin + x.length - y.begin)
      rwa [show y.begin + (x.begin + x.length - y.begin) = x.begin + x.data.length by omega] at hd
    · simp only [List.length_append, List.length_drop]
      omega

theorem mergeBlock_touch {e b : BlockNode} (he : e.WF) (hb : b.WF) (h1 : b.begin ≤ e.stop)
    (h2 : e.begin ≤ b.stop) :
    ∃ m n, mergeBlock e b = (m, ((n : Nat) : Int)) ∧ Absorbed e [b] m n ∧
      m.begin = min e.begin b.begin ∧ m.stop = max e.stop b.stop := by
  unfold mergeBlock
  by_cases h : e.begin > b.begin
  · rw [if_pos h]
    obtain ⟨m, n, hm, ha, hbeg, hstop⟩ := mergeOrdered_touch e hb he (by omega) h2
    refine ⟨m, n, hm, ⟨ha.wf, fun k => ?_, ?_, fun S hs hbs => ?_⟩, by omega, by omega⟩
    · rw [ha.covers]
      simp only [holds_cons, holds_nil, or_false]
      exact or_comm
    · have := ha.count
      simp only [totalLength_cons, totalLength_nil] at this ⊢
      omega
    · exact ha.slice S (hbs b (by simp)) (by simpa using hs)
  · rw [if_neg h]
    obtain ⟨m, n, hm, ha, hbeg, hstop⟩ := mergeOrdered_touch e he hb (by omega) h1
    exact ⟨m, n, hm, ha, by omega, hstop⟩

/-! ## The merge loops -/

theorem lowerBound_split {p q : List BlockNode} {e : BlockNode}
    (hp : ∀ b ∈ p, b.begin < e.begin) (hq : ∀ b ∈ q, e.begin ≤ b.begin) :
    lowerBound (p ++ q) e = (p, q) := by
  obtain ⟨h1, h2⟩ := takeWhile_dropWhile_of_split hp hq
  simp only [lowerBound, h1, h2]

/-- The first loop absorbs a run of blocks that starts at the lower bound and
ends at a gap. -/
theorem mergeNext_spec {p : List BlockNode} :
    ∀ (fuel : Nat) (e : BlockNode) (q : List BlockNode), q.length ≤ fuel → e.WF →
      (∀ b ∈ q, b.WF) → Gapped (p ++ q) → (∀ b ∈ p, b.begin < e.begin) →
      (∀ b ∈ q, e.begin ≤ b.begin) →
      ∃ m bs q' n, q = bs ++ q' ∧ (∀ un, mergeNext fuel e (p ++ q) un = (m, p ++ q', un - n)) ∧
        Absorbed e bs m n ∧ m.begin = e.begin ∧ ∀ b ∈ q', m.stop < b.begin
  | 0, e, q, hf, he, _, _, _, _ => by
    have hq : q = [] := List.length_eq_zero_iff.mp (by omega)
    subst hq
    exact ⟨e, [], [], 0, rfl, fun _ => rfl, Absorbed.refl he, rfl, by simp⟩
  | fuel + 1, e, q, hf, he, hw, hg, hp, hq => by
    have hlb := lowerBound_split hp hq
    cases q with
    | nil =>
      refine ⟨e, [], [], 0, rfl, fun un => ?_, Absorbed.refl he, rfl, by simp⟩
      simp only [mergeNext, hlb, Nat.sub_zero]
    | cons b q =>
      have hb := hw b (by simp)
      have hbeg := hq b (by simp)
      obtain ⟨hg1, hg2, hg3⟩ := List.pairwise_append.mp hg
      obtain ⟨hgb, hgq⟩ := List.pairwise_cons.mp hg2
      by_cases ht : b.begin ≤ e.stop
      · -- the block touches: it is erased and the search goes on with the larger element
        obtain ⟨m, n, hm, ha, hmb, hms⟩ := mergeBlock_touch he hb ht (by
          have := b.begin_le_stop; omega)
        have hmb' : m.begin = e.begin := by omega
        have hg' : Gapped (p ++ q) := List.pairwise_append.mpr
          ⟨hg1, hgq, fun a ha c hc => hg3 a ha c (List.mem_cons_of_mem _ hc)⟩
        obtain ⟨m', bs, q', n', rfl, hrun, ha', hb', hgap⟩ := mergeNext_spec fuel m q
          (by simpa using hf) ha.wf
          (fun c hc => hw c (List.mem_cons_of_mem _ hc)) hg'
          (fun c hc => by rw [hmb']; exact hp c hc)
          (fun c hc => by rw [hmb']; exact hq c (List.mem_cons_of_mem _ hc))
        refine ⟨m', b :: bs, q', n + n', rfl, fun un => ?_, ha.trans ha', by omega, hgap⟩
        simp only [mergeNext, hlb, hm]
        rw [if_pos (by omega), Int.toNat_natCast, hrun, Nat.sub_sub]
      · -- a gap: the loop ends
        refine ⟨e, [], b :: q, 0, rfl, fun un => ?_, Absorbed.refl he, rfl, ?_⟩
        · have hm := mergeBlock_apart (e := e) (b := b) (.inl (by omega))
          simp only [mergeNext, hlb, hm]
          rw [if_neg (by omega), Nat.sub_zero]
        · intro c hc
          rcases List.mem_cons.mp hc with rfl | hc
          · omega
          · have := hgb c hc; have := b.begin_le_stop; omega

/-- The second loop absorbs a run of blocks that ends before the lower bound and
starts at a gap. -/
theorem mergePrev_spec {q : List BlockNode} :
    ∀ (fuel : Nat) (e : BlockNode) (p : List BlockNode), p.length ≤ fuel → e.WF →
      (∀ b ∈ p, b.WF) → Gapped (p ++ q) → (∀ b ∈ p, b.begin < e.begin) →
      (∀ b ∈ q, e.stop < b.begin) →
      ∃ m bs p' n, p = p' ++ bs ∧ (∀ un, mergePrev fuel e (p ++ q) un = (m, p' ++ q, un - n)) ∧
        Absorbed e bs m n ∧ m.begin ≤ e.begin ∧ (∀ b ∈ p', b.stop < m.begin) ∧
        (∀ b ∈ q, m.stop < b.begin) ∧ (m.begin = e.begin ∨ ∃ b ∈ bs, b.begin = m.begin)
  | 0, e, p, hf, he, _, _, _, hq => by
    have hp : p = [] := List.length_eq_zero_iff.mp (by omega)
    subst hp
    exact ⟨e, [], [], 0, rfl, fun _ => rfl, Absorbed.refl he, Nat.le_refl _, by simp, hq, .inl rfl⟩
  | fuel + 1, e, p, hf, he, hw, hg, hp, hq => by
    have hlb := lowerBound_split hp fun b hb => by
      have := hq b hb; have := e.begin_le_stop; omega
    rcases List.eq_nil_or_concat p with rfl | ⟨p, b, rfl⟩
    · refine ⟨e, [], [], 0, rfl, fun un => ?_, Absorbed.refl he, Nat.le_refl _, by simp, hq,
        .inl rfl⟩
      simp only [mergePrev, hlb, List.getLast?_nil, Nat.sub_zero]
    · rw [List.concat_eq_append] at *
      have hb := hw b (by simp)
      have hbeg := hp b (by simp)
      obtain ⟨hg1, hg2, hg3⟩ := List.pairwise_append.mp hg
      obtain ⟨hgp, -, hgb⟩ := List.pairwise_append.mp hg1
      by_cases ht : e.begin ≤ b.stop
      · -- the block touches: it is erased and the search goes on with the larger element
        obtain ⟨m, n, hm, ha, hmb, hms⟩ := mergeBlock_touch he hb (by
          have := e.begin_le_stop; omega) ht
        have hmb' : m.begin = b.begin := by omega
        have hg' : Gapped (p ++ q) := List.pairwise_append.mpr
          ⟨hgp, hg2, fun a ha c hc => hg3 a (by simp [ha]) c hc⟩
        obtain ⟨m', bs, p', n', rfl, hrun, ha', hb', hgap, hgq, hfst⟩ :=
          mergePrev_spec fuel m p (by simpa using hf) ha.wf
            (fun c hc => hw c (by simp [hc])) hg'
            (fun c hc => by
              have := hgb c hc b (by simp); have := c.begin_le_stop; omega)
            (fun c hc => by
              have := hq c hc; have := hg3 b (by simp) c hc; omega)
        refine ⟨m', bs ++ [b], p', n + n', by simp, fun un => ?_, (ha.trans ha').comm, by omega,
          hgap, hgq, .inr ?_⟩
        · simp only [mergePrev, hlb, List.getLast?_append, List.getLast?_singleton,
            Option.some_or, hm]
          rw [if_pos (by omega), Int.toNat_natCast, List.dropLast_concat, hrun, Nat.sub_sub]
        · rcases hfst with h | ⟨c, hc, hcm⟩
          · exact ⟨b, by simp, by omega⟩
          · exact ⟨c, by simp [hc], hcm⟩
      · -- a gap: the loop ends
        refine ⟨e, [], p ++ [b], 0, by simp, fun un => ?_, Absorbed.refl he, Nat.le_refl _, ?_, hq,
          .inl rfl⟩
        · have hm := mergeBlock_apart (e := e) (b := b) (.inr (by omega))
          simp only [mergePrev, hlb, List.getLast?_append, List.getLast?_singleton,
            Option.some_or, hm]
          rw [if_neg (by omega), Nat.sub_zero]
        · intro c hc
          rcases List.mem_append.mp hc with hc | hc
          · have := hgb c hc b (by simp); have := b.begin_le_stop; omega
          · simp only [List.mem_singleton] at hc
            subst hc; omega

theorem insertBlock_split {p q : List BlockNode} {e : BlockNode}
    (hp : ∀ b ∈ p, b.begin < e.begin) (hq : ∀ b ∈ q, e.begin < b.begin) :
    insertBlock (p ++ q) e = p ++ e :: q := by
  have hlb := lowerBound_split hp fun b hb => Nat.le_of_lt (hq b hb)
  simp only [insertBlock, hlb]
  cases q with
  | nil => rfl
  | cons b q =>
    have hb := hq b (by simp)
    simp only
    rw [if_neg (by omega)]

/-- A block that is there after the run `bs` is replaced by `m` is `m`, or was there before. -/
theorem eq_or_mem_of_replaced {p bs q : List BlockNode} {m b : BlockNode}
    (hb : b ∈ p ++ m :: q) : b = m ∨ b ∈ p ++ bs ++ q := by
  simp only [List.mem_append, List.mem_cons] at hb ⊢
  rcases hb with hb | hb | hb
  · exact .inr (.inl (.inl hb))
  · exact .inl hb
  · exact .inr (.inr hb)

/-- Storing an element replaces the run of blocks it touches by their union. -/
theorem storeBlock_spec {blocks : List BlockNode} {e : BlockNode} (he : e.WF)
    (hw : ∀ b ∈ blocks, b.WF) (hg : Gapped blocks) :
    ∃ p bs q m n, blocks = p ++ bs ++ q ∧ Absorbed e bs m n ∧ Gapped (p ++ m :: q) ∧
      (m.begin = e.begin ∨ ∃ b ∈ bs, b.begin = m.begin) ∧
      ∀ r : StreamReassembler, r.blocks = blocks → r.storeBlock e = { r with
        blocks := p ++ m :: q, unassembledByte := r.unassembledByte + e.length - n } := by
  obtain ⟨p, q, hpq, hp, hq⟩ := hg.exists_split (fun b _ => b.begin_le_stop) e.begin
  rw [hpq] at hg hw
  obtain ⟨m1, bs1, q', n1, rfl, hrun1, ha1, hb1, hgap1⟩ := mergeNext_spec
    blocks.length e q (by rw [hpq, List.length_append]; omega) he
    (fun b hb => hw b (List.mem_append_right p hb)) hg hp hq
  have hg1 : Gapped (p ++ q') := by
    obtain ⟨h1, h2, h3⟩ := List.pairwise_append.mp hg
    exact List.pairwise_append.mpr ⟨h1, (List.pairwise_append.mp h2).2.1,
      fun a ha c hc => h3 a ha c (List.mem_append_right _ hc)⟩
  obtain ⟨m, bs2, p', n2, rfl, hrun2, ha2, hb2, hgap2, hgapq, hfst⟩ := mergePrev_spec
    (p ++ q').length m1 p (by rw [List.length_append]; omega) ha1.wf
    (fun b hb => hw b (List.mem_append_left _ hb)) hg1
    (fun b hb => by rw [hb1]; exact hp b hb) hgap1
  have hg2 : Gapped (p' ++ q') := by
    obtain ⟨h1, h2, h3⟩ := List.pairwise_append.mp hg1
    exact List.pairwise_append.mpr ⟨(List.pairwise_append.mp h1).1, h2,
      fun a ha c hc => h3 a (List.mem_append_left _ ha) c hc⟩
  refine ⟨p', bs2 ++ bs1, q', m, n1 + n2, by simp [hpq], (ha1.trans ha2).comm,
    hg2.insert hgap2 hgapq, ?_, fun r hr => ?_⟩
  · rcases hfst with h | ⟨b, hb, hbm⟩
    · exact .inl (by omega)
    · exact .inr ⟨b, List.mem_append_left _ hb, hbm⟩
  · have hins : insertBlock (p' ++ q') m = p' ++ m :: q' :=
      insertBlock_split
        (fun b hb => by have := hgap2 b hb; have := b.begin_le_stop; omega)
        (fun b hb => by have := hgapq b hb; have := m.begin_le_stop; omega)
    simp only [StreamReassembler.storeBlock]
    rw [hpq] at hrun1
    rw [hr, hpq]
    simp only [hrun1, hrun2, hins, Nat.sub_sub]

end Sponge
