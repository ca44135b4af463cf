import Sponge.Lib.Count
import Sponge.Lib.Run
import Sponge.Reassembler.Push

/-!
# How much the reassembler holds

Two accounts of the stored blocks, over runs of pushes of any data with reads in
between. `Counted`: `unassembledBytes` is what the blocks hold, which is so as
long as no push overruns the room of the output (`always_counted_iff`).
`Bounded`: what is buffered and what is stored fit the capacity. The code only
looks at where a substring starts, so this is so as long as no push from beyond
the head reaches past the window (`always_bounded_iff`).
-/

namespace Sponge

open Lib

namespace StreamReassembler

/-- A push of any data, or `n` bytes read or popped from the output. -/
inductive Input where
  | push (data : List UInt8) (index : Nat) (eof : Bool)
  | read (n : Nat)
  deriving DecidableEq, Repr

def accept (r : StreamReassembler) : Input → StreamReassembler
  | .push data index eof => r.pushSubstring data index eof
  | .read n => r.readOut n

/-- The bytes of the stored blocks. -/
def storedBytes (r : StreamReassembler) : Nat := (r.blocks.map fun b => b.data.length).sum

/-- Each index that is stored counts once, and nothing else does. -/
structure Counted (r : StreamReassembler) : Prop where
  stored : r.unassembledBytes = r.storedBytes
  indices : r.unassembledBytes = {k | Holds r.blocks k}.ncard
  empty : r.empty = true ↔ ∀ b ∈ r.blocks, b.data = []

/-- The bytes that wait fit the capacity, and none is stored beyond the window of the reader. -/
structure Bounded (r : StreamReassembler) : Prop where
  total : r.output.bufferSize + r.storedBytes ≤ r.capacity
  inside : ∀ k, Holds r.blocks k → k < r.output.bytesRead + r.capacity

/-- The push does not overrun the room of the output. -/
def FitsRoom (r : StreamReassembler) : Input → Prop
  | .push data index _ => ¬ r.Overruns index data.length
  | .read _ => True

instance (r : StreamReassembler) : ∀ input, Decidable (r.FitsRoom input)
  | .push data index _ => inferInstanceAs (Decidable (¬ r.Overruns index data.length))
  | .read _ => isTrue trivial

/-- The substring is let in, leaves a gap behind the head, and ends beyond the window. -/
def Overreaches (r : StreamReassembler) (index len : Nat) : Prop :=
  r.headIndex < index ∧ index < r.headIndex + r.capacity ∧ 0 < len ∧
    r.output.bytesRead + r.capacity < index + len

instance (r : StreamReassembler) (index len : Nat) : Decidable (r.Overreaches index len) :=
  inferInstanceAs (Decidable (_ ∧ _))

def FitsWindow (r : StreamReassembler) : Input → Prop
  | .push data index _ => ¬ r.Overreaches index data.length
  | .read _ => True

instance (r : StreamReassembler) : ∀ input, Decidable (r.FitsWindow input)
  | .push data index _ => inferInstanceAs (Decidable (¬ r.Overreaches index data.length))
  | .read _ => isTrue trivial

section
variable {r : StreamReassembler} {data : List UInt8} {index : Nat} {eof : Bool} {input : Input}

theorem Inv.accept (h : r.Inv) (input : Input) : (r.accept input).Inv := by
  cases input with
  | push data index eof => exact h.push data index eof
  | read n => exact h.readOut n

theorem Inv.storedBytes_eq (h : r.Inv) : r.storedBytes = totalLength r.blocks := by
  unfold storedBytes totalLength
  congr 1
  exact List.map_congr_left fun b hb => (h.wf b hb).length_eq.symm

/-! ## The count -/

/-- The counter is right when nothing has leaked. -/
theorem counted_iff (h : r.Inv) : r.Counted ↔ r.leaked = 0 := by
  have hle := h.count
  unfold leaked
  constructor
  · intro hc
    have hstored := hc.stored
    rw [h.storedBytes_eq, unassembledBytes] at hstored
    omega
  · intro hl
    have heq : r.unassembledByte = totalLength r.blocks := by omega
    refine ⟨heq.trans h.storedBytes_eq.symm, ?_, ?_⟩
    · rw [h.gapped.ncard_covered, stop_sub_begin]
      exact heq
    · rw [empty_iff, heq, totalLength, List.sum_eq_zero_iff_forall_eq_nat]
      simp only [List.forall_mem_map]
      refine forall₂_congr fun b hb => ?_
      rw [(h.wf b hb).length_eq, List.length_eq_zero_iff]

theorem counted_accept_iff (h : r.Inv) (hc : r.Counted) :
    (r.accept input).Counted ↔ r.FitsRoom input := by
  have hl := (counted_iff h).mp hc
  rw [counted_iff (h.accept input)]
  cases input with
  | push data index eof =>
    obtain ⟨w, hp, -⟩ := pushSubstring_spec h data index eof
    have hover := hp.overrun
    rwa [hl] at hover
  | read n => exact iff_of_true hl trivial

/-! ## The bound -/

/-- Within the window of the reader there is room for what is stored. -/
theorem bounded_iff (h : r.Inv) :
    r.Bounded ↔ ∀ k, Holds r.blocks k → k < r.output.bytesRead + r.capacity := by
  refine ⟨Bounded.inside, fun hin => ⟨?_, hin⟩⟩
  have hcount := h.stream.count
  have hfits := h.stream.fits
  have hwritten := h.written
  have hcap := h.cap
  have hsum := h.gapped.sum_le (m := r.headIndex)
    (n := r.output.bytesRead + r.capacity - r.headIndex) fun k hk => by
      obtain ⟨b, hb, hle, -⟩ := id hk
      have habove := h.above b hb
      have hlt := hin k hk
      omega
  rw [stop_sub_begin, ← h.storedBytes_eq] at hsum
  unfold ByteStream.bufferSize ByteStream.bytesRead at *
  omega

/-- A substring behind a gap is stored as it is. -/
theorem holds_push_iff (h : r.Inv) (hi : r.headIndex < index) (k : Nat) :
    Holds (r.pushSubstring data index eof).blocks k ↔
      Holds r.blocks k ∨ r.Offers index data.length k := by
  obtain ⟨w, hp, -⟩ := pushSubstring_spec h data index eof
  have hw : w = [] := by
    by_contra hne
    have hle := (hp.covers hne).1
    omega
  have hhead : (r.pushSubstring data index eof).headIndex = r.headIndex := by
    rw [hp.head, hw]
    rfl
  have hno : ¬ r.Overruns index data.length := by
    intro hover
    rcases hover 0 (Nat.zero_le _) with ⟨b, hb, hle, -⟩ | ⟨-, hle, -⟩
    · have habove := h.above b hb
      omega
    · omega
  have hreceived := hp.received (hp.overrun.mpr hno) k
  have hbelow : ∀ k, Holds (r.pushSubstring data index eof).blocks k → r.headIndex < k := by
    rintro k ⟨b, hb, hle, -⟩
    have habove := hp.above b hb
    omega
  have hbelow' : ∀ k, Holds r.blocks k → r.headIndex < k := by
    rintro k ⟨b, hb, hle, -⟩
    have habove := h.above b hb
    omega
  unfold Received at hreceived
  rw [hhead] at hreceived
  constructor
  · intro hk
    have hlt := hbelow k hk
    rcases hreceived.mp (.inr hk) with (hk' | hk') | hk'
    · omega
    · exact .inl hk'
    · exact .inr hk'
  · intro hk
    have hlt : r.headIndex < k := by
      rcases hk with hk | ⟨-, hle, -⟩
      · exact hbelow' k hk
      · omega
    rcases hreceived.mpr (hk.imp_left .inr) with hk' | hk'
    · omega
    · exact hk'

theorem bounded_push_iff (h : r.Inv) (hb : r.Bounded) :
    (r.pushSubstring data index eof).Bounded ↔ ¬ r.Overreaches index data.length := by
  obtain ⟨w, hp, -⟩ := pushSubstring_spec h data index eof
  have hread : (r.pushSubstring data index eof).output.bytesRead = r.output.bytesRead := hp.readden
  rw [bounded_iff (h.push data index eof), hread, hp.capacity]
  rcases Nat.lt_or_ge r.headIndex index with hi | hi
  · simp only [holds_push_iff h hi]
    constructor
    · -- the last byte of the substring is beyond the window
      rintro hall ⟨-, hlt, hlen, hend⟩
      have hlast := hall (index + data.length - 1) (.inr ⟨hlt, by omega, by omega⟩)
      omega
    · rintro hno k (hk | ⟨hlt, hle, hk⟩)
      · exact hb.inside k hk
      · by_contra hge
        exact hno ⟨hi, hlt, by omega, by omega⟩
  · refine iff_of_true (fun k hk => hb.inside k (holds_pushSubstring h eof hi hk)) ?_
    rintro ⟨hlt, -⟩
    omega

theorem bounded_accept_iff (h : r.Inv) (hb : r.Bounded) :
    (r.accept input).Bounded ↔ r.FitsWindow input := by
  cases input with
  | push data index eof => exact bounded_push_iff h hb
  | read n =>
    refine iff_of_true ?_ trivial
    rw [bounded_iff (h.accept (.read n))]
    intro k hk
    have hlt := hb.inside k hk
    show k < r.output.readden + _ + r.capacity
    unfold ByteStream.bytesRead at hlt
    omega

end

/-! ## Whole runs -/

section
variable {r : StreamReassembler} {capacity : Nat}

/-- **The count of unassembled bytes** is exact in every state of a run exactly when no push
overruns the room of the output. -/
theorem always_counted_iff (h : mk? capacity = some r) (inputs : List Input) :
    Always accept Counted r inputs ↔ Along accept FitsRoom r inputs := by
  obtain ⟨hinv, -, -, hr⟩ := inv_mk h
  have htrue : Along accept (fun _ _ => True) r inputs := along_of_forall fun _ _ => trivial
  exact always_iff_along htrue hinv ((counted_iff hinv).mpr (by rw [hr]; rfl))
    (fun _ input hi _ => hi.accept input) fun _ _ hi hc _ => counted_accept_iff hi hc

/-- Overlaps on both sides of a gap that is closed last, with a read in between. -/
theorem counted_overlaps : ∃ r, mk? 8 = some r ∧ Always accept Counted r
    [.push [99, 100] 2 false, .push [100, 101, 102] 3 true, .push [97] 0 false, .read 1,
      .push [98, 99] 1 false] :=
  ⟨_, rfl, (always_counted_iff (show mk? 8 = some _ from rfl) _).mpr (by decide)⟩

/-- Of three bytes two fit. The third is not stored, but stays counted. -/
theorem overrun_miscounted : ∃ r, mk? 2 = some r ∧
    (r.accept (.push [97, 98, 99] 0 false)).unassembledBytes = 1 ∧
    (r.accept (.push [97, 98, 99] 0 false)).blocks = [] ∧
    ¬ Always accept Counted r [.push [97, 98, 99] 0 false] := by
  refine ⟨_, rfl, by decide, by decide, fun h => ?_⟩
  have hstored := h.2.stored
  revert hstored
  decide

/-- **The memory bound** holds in every state of a run exactly when no push overreaches. -/
theorem always_bounded_iff (h : mk? capacity = some r) (inputs : List Input) :
    Always accept Bounded r inputs ↔ Along accept FitsWindow r inputs := by
  obtain ⟨hinv, -, -, hr⟩ := inv_mk h
  have htrue : Along accept (fun _ _ => True) r inputs := along_of_forall fun _ _ => trivial
  have hempty : r.Bounded := by
    rw [bounded_iff hinv, hr]
    rintro k ⟨b, hb, -⟩
    cases hb
  exact always_iff_along htrue hinv hempty (fun _ input hi _ => hi.accept input)
    fun _ _ hi hb _ => bounded_accept_iff hi hb

/-- A substring up to the end of the window, and one that overruns the room at the head. -/
theorem bounded_window : ∃ r, mk? 4 = some r ∧ Always accept Bounded r
    [.push [98, 99, 100] 1 false, .push [97, 98, 99, 100, 101] 0 false, .read 2,
      .push [102] 5 false] :=
  ⟨_, rfl, (always_bounded_iff (show mk? 4 = some _ from rfl) _).mpr (by decide)⟩

/-- Three bytes are stored in a reassembler for two. -/
theorem stored_beyond_capacity : ∃ r, mk? 2 = some r ∧
    (r.accept (.push [98, 99, 100] 1 false)).storedBytes = 3 ∧
    ¬ Always accept Bounded r [.push [98, 99, 100] 1 false] := by
  refine ⟨_, rfl, by decide, fun h => ?_⟩
  have htotal := h.2.total
  revert htotal
  decide

end

end StreamReassembler

end Sponge
