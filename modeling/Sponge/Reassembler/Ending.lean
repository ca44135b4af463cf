import Sponge.Reassembler.Slices

/-!
# When the output ends

The eof flag says that the end has been announced, not where it is: the output is
ended as soon as nothing is counted. The end is announced without its bytes by the
empty substring at `|S|`; then the output ends short when what has come is a
prefix of `S` (`EndsShort`). In a run of pushes of one stream the output ends with
all of the stream written exactly when no push does this (`always_whole_iff`).
-/

namespace Sponge

open Lib

namespace StreamReassembler

/-- The output has not ended before all of `S` is written. -/
def Whole (S : List UInt8) (r : StreamReassembler) : Prop :=
  r.output.inputEnded = true → r.output.bytesWritten = S.length

instance (S : List UInt8) (r : StreamReassembler) : Decidable (r.Whole S) :=
  inferInstanceAs (Decidable (_ → _))

/-- What has come, with a push of `len` bytes at `index`, are the indices below `n`; they fit the
room of the output, and nothing has leaked. -/
def ComesTo (S : List UInt8) (r : StreamReassembler) (index len n : Nat) : Prop :=
  r.leaked = 0 ∧ r.headIndex ≤ n ∧ n ≤ r.headIndex + r.output.remainingCapacity ∧
    ∀ k < S.length, r.headIndex ≤ k → (Holds r.blocks k ∨ r.Offers index len k ↔ k < n)

instance (S : List UInt8) (r : StreamReassembler) (index len n : Nat) :
    Decidable (r.ComesTo S index len n) := inferInstanceAs (Decidable (_ ∧ _))

/-- A push that is let in when the end is announced, or announces it, and leaves a proper prefix
of `S` and nothing else. -/
def EndsShort (S : List UInt8) (r : StreamReassembler) : Op → Prop
  | .push i j => i < r.headIndex + r.capacity ∧ (r.eofFlag = true ∨ j = S.length) ∧
      ∃ n < S.length, r.ComesTo S i (j - i) n
  | .read _ => False

instance (S : List UInt8) (r : StreamReassembler) : ∀ op, Decidable (r.EndsShort S op)
  | .push i j => inferInstanceAs (Decidable (_ ∧ _ ∧ ∃ n < S.length, r.ComesTo S i (j - i) n))
  | .read _ => isFalse not_false

section
variable {S : List UInt8} {r : StreamReassembler} {i j n : Nat} {eof : Bool}

theorem endsShort_push : r.EndsShort S (.push i j) ↔
    i < r.headIndex + r.capacity ∧ (r.eofFlag = true ∨ j = S.length) ∧
      ∃ n < S.length, r.ComesTo S i (j - i) n := Iff.rfl

/-- What is stored lies in the stream. -/
theorem Fed.holds_lt (hf : r.Fed S) (hwf : ∀ b ∈ r.blocks, b.WF) {k : Nat}
    (hk : Holds r.blocks k) : k < S.length := by
  obtain ⟨b, hb, hle, hlt⟩ := hk
  have hlen := (hwf b hb).length_eq
  unfold BlockNode.stop at hlt
  have hin := SliceAt.length_le (hf.blocks b hb) (List.length_pos_iff.mp (by omega))
  omega

/-- A push that leaves nothing but a prefix is written as far as the prefix goes. -/
theorem ComesTo.pushed {w : List UInt8} {r' : StreamReassembler}
    (hp : Pushed r (slice S i j) i r' w) (hf : r'.Fed S) (hj : j ≤ S.length)
    (hn : n < S.length) (hc : r.ComesTo S i (j - i) n) :
    r'.empty = true ∧ r'.headIndex = n := by
  obtain ⟨hl, hhead, hroom, hall⟩ := hc
  have hlen : (slice S i j).length = j - i := slice_length hj
  have hov := hp.overrun
  have hrec := hp.received
  rw [hlen] at hov hrec
  have hno : ¬ r.Overruns i (j - i) := by
    intro hover
    -- index `n` has not come
    have hcome := hover (n - r.headIndex) (by omega)
    rw [show r.headIndex + (n - r.headIndex) = n by omega] at hcome
    exact Nat.lt_irrefl n ((hall n hn hhead).mp hcome)
  have hleak := hov.mpr hno
  have hreceived : ∀ k < S.length, r'.Received k ↔ k < n := by
    intro k hk
    rw [hrec hleak]
    unfold Received
    rcases Nat.lt_or_ge k r.headIndex with hlt | hge
    · exact iff_of_true (.inl (.inl hlt)) (by omega)
    · rw [← hall k hk hge, or_assoc]
      exact or_iff_right (Nat.not_lt.mpr hge)
  have hhead' : n ≤ r'.headIndex := by
    by_contra hlt
    have hnot : ¬ r'.Received r'.headIndex := by
      rintro (hk | ⟨b, hb, hle, -⟩)
      · omega
      · have habove := hp.above b hb
        omega
    exact hnot ((hreceived _ (by omega)).mpr (by omega))
  have hle' : r'.headIndex ≤ n := by
    by_contra hgt
    have hin := (hreceived n hn).mp (.inl (by omega))
    omega
  have hnone : ∀ k, ¬ Holds r'.blocks k := by
    intro k hk
    have hlt := (hreceived k (hf.holds_lt hp.wf hk)).mp (.inr hk)
    obtain ⟨b, hb, hle, -⟩ := hk
    have habove := hp.above b hb
    omega
  exact ⟨(empty_iff_holds hp.count).mpr ⟨hleak.trans hl, hnone⟩, by omega⟩

/-- What is counted comes to nothing short of the end exactly when a proper prefix has come. -/
theorem empty_push_iff (i : Nat) (eof : Bool) (h : r.Inv) (hf : r.Fed S) (hj : j ≤ S.length) :
    (r.pushSubstring (slice S i j) i eof).empty = true ∧
        (r.pushSubstring (slice S i j) i eof).headIndex < S.length ↔
      ∃ n < S.length, r.ComesTo S i (j - i) n := by
  obtain ⟨w, hp, -⟩ := pushSubstring_spec h (slice S i j) i eof
  have hlen : (slice S i j).length = j - i := slice_length hj
  have hov := hp.overrun
  have hrec := hp.received
  rw [hlen] at hov hrec
  constructor
  · rintro ⟨he, hlt⟩
    obtain ⟨hl', hnone⟩ := (empty_iff_holds hp.count).mp he
    have hle := hp.leak
    have hroom := hp.length_le
    have hhead := hp.head
    refine ⟨_, hlt, by omega, by omega, by omega, fun k _ hk => ?_⟩
    have hreceived := hrec (by omega) k
    unfold Received at hreceived
    rw [or_assoc, or_iff_right (Nat.not_lt.mpr hk), or_iff_left (hnone k)] at hreceived
    exact hreceived.symm
  · rintro ⟨n, hn, hc⟩
    obtain ⟨he, hhead⟩ := hc.pushed hp (hp.fed hf fun _ _ => sliceAt_slice S i j) hj hn
    exact ⟨he, by omega⟩

theorem whole_step_iff (h : r.Inv) (hf : r.Fed S) (hw : r.Whole S) {op : Op}
    (hv : op.Within S) : (r.step S op).Whole S ↔ ¬ r.EndsShort S op := by
  have hwritten : r.output.bytesWritten = r.headIndex := h.written
  have hwritten' : (r.step S op).output.bytesWritten = (r.step S op).headIndex :=
    (inv_step h op).written
  have hle' := (fed_step hf h op).head
  cases op with
  | read n => exact iff_of_true hw not_false
  | push i j =>
    obtain ⟨w, hp, hj⟩ := pushSubstring_spec h (slice S i j) i (j == S.length)
    have hhead := hp.head
    have hempty := empty_push_iff i (j == S.length) h hf hv.2
    unfold Whole at hw ⊢
    rw [hwritten']
    rw [step] at hle' ⊢
    by_cases hend : r.output.inputEnd = true
    · -- all is written, and there is no more to come
      have hall : r.headIndex = S.length := hwritten ▸ hw hend
      refine iff_of_true (fun _ => by omega) ?_
      rintro ⟨-, -, n, hn, -, hle, -⟩
      omega
    · rw [Bool.not_eq_true] at hend
      rw [ByteStream.inputEnded, hj.inputEnd, hj.eofFlag, hend]
      simp only [Bool.false_or, Bool.and_eq_true, decide_eq_true_eq, Bool.or_eq_true,
        beq_iff_eq]
      rw [endsShort_push, ← hempty]
      constructor
      · rintro hall ⟨hin, heof, he, hlt⟩
        have hfull := hall ⟨hin, heof.imp_right fun hj => ⟨hin, hj⟩, he⟩
        omega
      · rintro hno ⟨hin, heof, he⟩
        by_contra hne
        exact hno ⟨hin, heof.imp_right And.right, he, by omega⟩

/-- **The end of the output.** In every state of a run of pushes of `S` the output has not ended
before all of `S` is written, exactly when no push ends it short. -/
theorem always_whole_iff {capacity : Nat} (h : mk? capacity = some r) (S : List UInt8)
    (ops : List Op) (hv : ∀ op ∈ ops, op.Within S) :
    Always (step S) (Whole S) r ops ↔ Along (step S) (fun r op => ¬ r.EndsShort S op) r ops := by
  obtain ⟨hinv, -, -, hr⟩ := inv_mk h
  have htrue : Along (step S) (fun _ _ => True) r ops := along_of_forall fun _ _ => trivial
  have hopen : r.Whole S := by
    intro hend
    rw [hr] at hend
    cases hend
  exact always_iff_along (I := fun r => r.Inv ∧ r.Fed S) (htrue.and_forall hv)
    ⟨hinv, fed_mk h⟩ hopen
    (fun _ op hi _ => ⟨inv_step hi.1 op, fed_step hi.2 hi.1 op⟩)
    fun _ _ hi hw hg => whole_step_iff hi.1 hi.2 hw hg.2

/-- The end is announced ahead of a gap, without bytes, and by a push that overruns the room. -/
theorem whole_announced : ∃ r, mk? 3 = some r ∧ Always (step [97, 98, 99]) (Whole [97, 98, 99]) r
    [.push 1 2, .push 2 3, .push 3 3, .push 0 1, .read 3, .push 3 3] :=
  ⟨_, rfl, (always_whole_iff (show mk? 3 = some _ from rfl) _ _ (by decide)).mpr (by decide)⟩

/-- The empty substring at the end of "a" comes first, and ends the output with nothing written. -/
theorem ended_short : ∃ r, mk? 8 = some r ∧
    (r.step [97] (.push 1 1)).output.inputEnded = true ∧
    (r.step [97] (.push 1 1)).output.bytesWritten = 0 ∧
    ¬ Always (step [97]) (Whole [97]) r [.push 1 1] :=
  ⟨_, rfl, by decide, by decide, by decide⟩

end

end StreamReassembler

end Sponge
