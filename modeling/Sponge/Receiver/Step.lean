import Sponge.Receiver.Model
import Sponge.Reassembler.Push

/-!
# What one segment does to the receiver

`Inv` ties the FIN bookkeeping to the reassembler: the stream has ended exactly
when the FIN has been counted, and it is counted exactly when it has been seen
and no byte is counted as unassembled. `Takes` says that a segment reaches the
reassembler. A segment that does not changes nothing (`segmentReceived_idle`);
for one that does, `Taken` is the whole effect.
-/

namespace Sponge

open Lib StreamReassembler

namespace TCPReceiver

structure Inv (r : TCPReceiver) : Prop where
  re : r.reassembler.Inv
  cap : r.reassembler.capacity = r.capacity
  capMax : r.capacity ≤ maxCapacity
  listen : r.syn = false → r.fin = false ∧ r.reassembler.headIndex = 0
  eof : r.reassembler.eofFlag = true → r.fin = true
  counted : r.finNotCount = !(r.fin && r.reassembler.empty)
  ended : r.streamOut.inputEnd = !r.finNotCount

theorem inv_mk {capacity : Nat} {r : TCPReceiver} (h : mk? capacity = some r) :
    r.Inv ∧ r.capacity = capacity ∧ r.syn = false ∧ r.streamOut.buffer = [] ∧
      r.reassembler.blocks = [] ∧ r.reassembler.unassembledByte = 0 := by
  simp only [mk?, Option.map_eq_some_iff] at h
  obtain ⟨re, hre, rfl⟩ := h
  obtain ⟨hi, hc, hm, rfl⟩ := StreamReassembler.inv_mk hre
  exact ⟨⟨hi, hc, hm, fun _ => ⟨rfl, rfl⟩, fun h => by simp at h, rfl, rfl⟩, rfl, rfl, rfl, rfl,
    rfl⟩

/-- The receiver passes the payload of the segment to the reassembler. -/
def Takes (r : TCPReceiver) (seg : TCPSegment) : Prop :=
  (seg.header.syn = true ∧ r.syn = false) ∨
    (seg.header.syn = false ∧ r.syn = true ∧ (r.fin = false ∨ r.reassembler.empty = false))

instance (r : TCPReceiver) (seg : TCPSegment) : Decidable (r.Takes seg) :=
  inferInstanceAs (Decidable (_ ∨ _))

section
variable {r : TCPReceiver} {seg : TCPSegment}

@[simp] theorem acceptSyn_capacity (r : TCPReceiver) (seg : TCPSegment) :
    (r.acceptSyn seg).capacity = r.capacity := by
  unfold acceptSyn
  split <;> rfl

@[simp] theorem assemble_capacity (r : TCPReceiver) (seg : TCPSegment) :
    (r.assemble seg).capacity = r.capacity := by
  unfold assemble
  split
  · simp only
    split <;> rfl
  · rfl

@[simp] theorem acceptFin_capacity (r : TCPReceiver) (seg : TCPSegment) :
    (r.acceptFin seg).capacity = r.capacity := by
  unfold acceptFin
  split <;> rfl

@[simp] theorem finish_capacity (r : TCPReceiver) : r.finish.capacity = r.capacity := by
  unfold finish
  split
  · simp only
    split <;> rfl
  · rfl

/-- No segment changes the capacity. -/
theorem segmentReceived_capacity (r : TCPReceiver) (seg : TCPSegment) :
    (r.segmentReceived seg).capacity = r.capacity := by
  unfold segmentReceived
  split
  · rfl
  · simp

theorem setEnded_eq {r : TCPReceiver} (h : r.streamOut.inputEnd = true) :
    { r with reassembler := { r.reassembler with output := r.reassembler.output.endInput } } =
      r := by
  cases r with
  | mk a b c d e re f =>
    cases re with
    | mk g h i j o k =>
      cases o with
      | mk l m n p q s =>
        simp only [streamOut] at h
        subst h
        rfl

theorem finish_ended {r : TCPReceiver} (hc : r.finNotCount = false)
    (he : r.streamOut.inputEnd = true) : r.finish = r := by
  unfold finish
  split
  · have hr : (if r.finNotCount then { r with ackno := r.ackno.add 1, finNotCount := false }
        else r) = r := if_neg (by simp [hc])
    simp only [hr]
    exact setEnded_eq he
  · rfl

/-- A segment that does not reach the reassembler changes nothing. -/
theorem segmentReceived_idle (h : r.Inv) (ht : ¬ r.Takes seg) : r.segmentReceived seg = r := by
  unfold Takes at ht
  push Not at ht
  unfold segmentReceived
  by_cases hs : seg.header.syn = true
  · have : r.syn = true := by
      by_contra hn
      exact ht.1 hs (by simpa using hn)
    simp [hs, this]
  · simp only [Bool.not_eq_true] at hs
    rw [if_neg (by simp [hs])]
    have hacc : r.acceptSyn seg = r := by simp [acceptSyn, hs]
    rw [hacc]
    cases hsyn : r.syn with
    | false =>
      -- still listening: nothing is recorded, not even a FIN
      have hfin := (h.listen hsyn).1
      simp [assemble, acceptFin, finish, hsyn, hfin]
    | true =>
      -- the stream has ended
      obtain ⟨hf, he⟩ := ht.2 hs hsyn
      simp only [ne_eq, Bool.not_eq_false] at hf he
      have hc : r.finNotCount = false := by rw [h.counted]; simp [hf, he]
      have hend : r.streamOut.inputEnd = true := by rw [h.ended, hc]; rfl
      have h1 : r.assemble seg = r := by simp [assemble, hf, he]
      have h2 : r.acceptFin seg = r := by
        unfold acceptFin
        split
        · cases r; simp_all
        · rfl
      rw [h1, h2]
      exact finish_ended hc hend

/-- The index of a segment without SYN is one less than the number its seqno stands for. -/
theorem wrap_segmentIndex (h : seg.header.syn = false) :
    wrap (r.segmentIndex seg + 1) r.isn = seg.header.seqno := by
  have hu := unwrap_lt seg.header.seqno r.isn r.streamOut.bytesWritten
  have hw := wrap_unwrap seg.header.seqno r.isn r.streamOut.bytesWritten
  simp only [segmentIndex, h, Bool.false_eq_true, if_false]
  generalize unwrap seg.header.seqno r.isn r.streamOut.bytesWritten = u at hu hw
  rw [← hw, wrap_eq_wrap, sub64]
  omega

/-- A seqno near what is written is read as the index it was made from. -/
theorem segmentIndex_of_near {i : Nat} (h : seg.header.syn = false)
    (hseq : seg.header.seqno = wrap (i + 1) r.isn) (hw : r.streamOut.written < 2 ^ 63)
    (h1 : r.streamOut.written ≤ i + 1 + 2 ^ 31) (h2 : i + 1 < r.streamOut.written + 2 ^ 31) :
    r.segmentIndex seg = i := by
  have hu : unwrap seg.header.seqno r.isn r.streamOut.bytesWritten = i + 1 := by
    rw [hseq]
    exact unwrap_wrap_near r.isn (by simp only [ByteStream.bytesWritten]; omega) h1 h2
  simp only [segmentIndex, h, Bool.false_eq_true, if_false, hu]
  rw [sub64_of_le (by omega) (by omega)]
  omega

/-- The effect of a segment that reaches the reassembler; `w` is what is written. -/
structure Taken (r : TCPReceiver) (seg : TCPSegment) (r' : TCPReceiver) (w : List UInt8) :
    Prop where
  pushed : Pushed r.reassembler seg.payload (r.segmentIndex seg) r'.reassembler w
  syn : r'.syn = true
  fin : r'.fin = (r.fin || seg.header.fin)
  isn : r'.isn = if seg.header.syn then seg.header.seqno else r.isn
  capacity : r'.capacity = r.capacity
  counted : r'.finNotCount = !(r'.fin && r'.reassembler.empty)
  eofFlag : r'.reassembler.eofFlag = (r.reassembler.eofFlag ||
    (decide (r.segmentIndex seg < r.reassembler.headIndex + r.reassembler.capacity) &&
      seg.header.fin))
  ended : r'.streamOut.inputEnd = !r'.finNotCount
  ackno : r'.ackno =
    let base := if seg.header.syn then seg.header.seqno.add 1 else r.ackno
    let data := if r.ackno = seg.header.seqno ∨ seg.header.syn = true then
      base.add (UInt32.ofNat w.length) else base
    if r'.finNotCount then data else data.add 1

theorem Inv.fin_of_eof {b eof : Bool} (h : r.Inv)
    (he : (r.reassembler.eofFlag || (b && eof)) = true) : (r.fin || eof) = true := by
  simp only [Bool.or_eq_true, Bool.and_eq_true] at he ⊢
  rcases he with he | he
  · exact .inl (h.eof he)
  · exact .inr he.2

theorem Taken.eof {r' : TCPReceiver} {w : List UInt8} (h : r.Inv) (ht : Taken r seg r' w)
    (he : r'.reassembler.eofFlag = true) : r'.fin = true := by
  rw [ht.eofFlag] at he
  rw [ht.fin]
  exact h.fin_of_eof he

/-- `finish` on a receiver whose FIN is not counted yet. -/
theorem finish_open (hc : r.finNotCount = true) :
    r.finish = { r with
      ackno := if r.fin && r.reassembler.empty then r.ackno.add 1 else r.ackno
      finNotCount := !(r.fin && r.reassembler.empty)
      reassembler := if r.fin && r.reassembler.empty then
        { r.reassembler with output := r.reassembler.output.endInput } else r.reassembler } := by
  unfold finish
  cases h : r.fin && r.reassembler.empty
  · cases r; simp_all
  · simp [hc]

/-- A segment that reaches the reassembler finds the FIN not counted yet. -/
theorem Takes.uncounted (h : r.Inv) (ht : r.Takes seg) : r.finNotCount = true := by
  rw [h.counted]
  rcases ht with ⟨-, hs⟩ | ⟨-, -, hf | he⟩
  · simp [(h.listen hs).1]
  · simp [hf]
  · simp [he]

theorem Takes.open (h : r.Inv) (ht : r.Takes seg) : r.streamOut.inputEnd = false := by
  rw [h.ended, ht.uncounted h]
  rfl

/-- The receiver behind the SYN branch, for a segment that reaches the reassembler. -/
structure Opened (r : TCPReceiver) (seg : TCPSegment) (r1 : TCPReceiver) : Prop where
  takes : r1.fin = false ∨ (r1.fin = true ∧ r1.reassembler.empty = false)
  reassembler : r1.reassembler = r.reassembler
  syn : r1.syn = true
  fin : r1.fin = r.fin
  isn : r1.isn = if seg.header.syn then seg.header.seqno else r.isn
  capacity : r1.capacity = r.capacity
  finNotCount : r1.finNotCount = true
  ackno : r1.ackno = if seg.header.syn then seg.header.seqno.add 1 else r.ackno
  index : r1.segmentIndex seg = r.segmentIndex seg

theorem acceptSyn_opened (h : r.Inv) (ht : r.Takes seg) : Opened r seg (r.acceptSyn seg) := by
  have hopen := ht.uncounted h
  rcases ht with ⟨hs, hl⟩ | ⟨hs, hl, hf⟩
  · have heq : r.acceptSyn seg =
        { r with syn := true, ackno := seg.header.seqno.add 1, isn := seg.header.seqno } :=
      if_pos hs
    rw [heq]
    exact ⟨.inl (h.listen hl).1, rfl, rfl, rfl, by rw [if_pos hs], rfl, hopen, by rw [if_pos hs],
      by simp [segmentIndex, hs]⟩
  · have heq : r.acceptSyn seg = r := if_neg (by simp [hs])
    rw [heq]
    refine ⟨?_, rfl, hl, rfl, by simp [hs], rfl, hopen, by simp [hs], rfl⟩
    cases hfv : r.fin with
    | false => exact .inl rfl
    | true =>
      rcases hf with hf | hf
      · rw [hfv] at hf
        cases hf
      · exact .inr ⟨rfl, hf⟩

/-- The push and the FIN flag behind the SYN branch. -/
theorem Opened.assembled {r1 : TCPReceiver} {re : StreamReassembler} {w : List UInt8}
    (ho : Opened r seg r1)
    (hre : re = r.reassembler.pushSubstring seg.payload (r.segmentIndex seg) seg.header.fin)
    (hp : Pushed r.reassembler seg.payload (r.segmentIndex seg) re w) :
    (r1.assemble seg).acceptFin seg = { r1 with
      reassembler := re
      ackno := if r.ackno = seg.header.seqno ∨ seg.header.syn = true then
        r1.ackno.add (UInt32.ofNat w.length) else r1.ackno
      fin := r1.fin || seg.header.fin } := by
  have hcond : (r1.ackno = seg.header.seqno ∨ seg.header.syn = true) ↔
      (r.ackno = seg.header.seqno ∨ seg.header.syn = true) := by
    rw [ho.ackno]
    cases hs : seg.header.syn <;> simp
  have hdiff : re.output.bytesWritten - r1.streamOut.bytesWritten = w.length := by
    simp only [ByteStream.bytesWritten, streamOut, ho.reassembler, hp.written]
    omega
  unfold assemble
  rw [if_pos ⟨ho.takes, ho.syn⟩]
  simp only [ho.index, hcond, ho.reassembler, ← hre, hdiff]
  unfold acceptFin
  cases hf : seg.header.fin <;> split <;> simp [ho.syn]

/-- A push behind which FIN has not come, or bytes are counted, leaves the stream open. -/
theorem Inv.stays_open {re : StreamReassembler} (h : r.Inv) (hopen : r.streamOut.inputEnd = false)
    (hj : Judged r.reassembler (r.segmentIndex seg) seg.header.fin re)
    (hfe : ((r.fin || seg.header.fin) && re.empty) = false) : re.output.inputEnd = false := by
  have hout : r.reassembler.output.inputEnd = false := hopen
  rw [hj.inputEnd, hout, Bool.false_or]
  rcases (Bool.and_eq_false_iff).mp hfe with hf | he
  · cases hev : re.eofFlag with
    | false => simp
    | true =>
      rw [hj.eofFlag] at hev
      rw [h.fin_of_eof hev] at hf
      cases hf
  · simp [he]

theorem segmentReceived_taken (h : r.Inv) (ht : r.Takes seg) :
    ∃ w, Taken r seg (r.segmentReceived seg) w := by
  obtain ⟨w, hp, hj⟩ := pushSubstring_spec h.re seg.payload (r.segmentIndex seg) seg.header.fin
  obtain ⟨re, hre⟩ : ∃ re, re =
    r.reassembler.pushSubstring seg.payload (r.segmentIndex seg) seg.header.fin := ⟨_, rfl⟩
  rw [← hre] at hp hj
  have ho := acceptSyn_opened h ht
  have hnew : ¬ (seg.header.syn && r.syn) = true := by
    rcases ht with ⟨-, hl⟩ | ⟨hs, -, -⟩
    · simp [hl]
    · simp [hs]
  refine ⟨w, ?_⟩
  unfold segmentReceived
  rw [if_neg hnew, ho.assembled hre hp, finish_open (by exact ho.finNotCount)]
  simp only [ho.fin]
  -- FIN is counted here, or nothing ends
  cases hfe : (r.fin || seg.header.fin) && re.empty with
  | true =>
    exact {
      pushed := hp.endInput
      syn := ho.syn
      fin := rfl
      isn := ho.isn
      capacity := ho.capacity
      counted := congrArg (!·) hfe.symm
      eofFlag := hj.eofFlag
      ended := rfl
      ackno := by simp only [ho.ackno, Bool.not_true, if_true, Bool.false_eq_true, if_false] }
  | false =>
    exact {
      pushed := hp
      syn := ho.syn
      fin := rfl
      isn := ho.isn
      capacity := ho.capacity
      counted := congrArg (!·) hfe.symm
      eofFlag := hj.eofFlag
      ended := h.stays_open (ht.open h) hj hfe
      ackno := by simp only [ho.ackno, Bool.not_false, if_true, Bool.false_eq_true, if_false] }

theorem Taken.inv {r' : TCPReceiver} {w : List UInt8} (h : r.Inv) (ht : Taken r seg r' w) :
    r'.Inv where
  re := {
    wf := ht.pushed.wf
    gapped := ht.pushed.gapped
    above := ht.pushed.above
    count := ht.pushed.count
    stream := ht.pushed.stream
    written := by rw [ht.pushed.written, ht.pushed.head, h.re.written]
    cap := by rw [ht.pushed.outCapacity, ht.pushed.capacity, h.re.cap]
    ended := fun he hu => by
      have hf : r'.fin = true := ht.eof h he
      have hend := ht.ended
      rw [ht.counted, hf, (empty_iff _).mpr hu] at hend
      exact hend }
  cap := by rw [ht.pushed.capacity, ht.capacity, h.cap]
  capMax := by rw [ht.capacity]; exact h.capMax
  listen hs := by rw [ht.syn] at hs; cases hs
  eof := ht.eof h
  counted := ht.counted
  ended := ht.ended

/-- A segment keeps the invariant. -/
theorem Inv.segmentReceived (h : r.Inv) (seg : TCPSegment) : (r.segmentReceived seg).Inv := by
  by_cases ht : r.Takes seg
  · obtain ⟨w, hw⟩ := segmentReceived_taken h ht
    exact hw.inv h
  · rw [segmentReceived_idle h ht]
    exact h

/-- A segment leaves the error flag alone. -/
theorem segmentReceived_error (h : r.Inv) (seg : TCPSegment) :
    (r.segmentReceived seg).streamOut.error = r.streamOut.error := by
  by_cases ht : r.Takes seg
  · obtain ⟨w, hw⟩ := segmentReceived_taken h ht
    exact hw.pushed.error
  · rw [segmentReceived_idle h ht]

/-- The FIN of a segment that brings no byte is counted: SYN has been seen, no FIN is counted
yet and no byte is waiting for others. -/
def CountsFin (r : TCPReceiver) : Prop :=
  r.syn = true ∧ r.finNotCount = true ∧ r.reassembler.empty = true

instance (r : TCPReceiver) : Decidable r.CountsFin := inferInstanceAs (Decidable (_ ∧ _ ∧ _))

/-- A receiver without an ackno stays without one behind a segment that brings neither SYN nor a
byte, unless it counts the FIN. -/
theorem acknoOut_lone (h : r.Inv) (hs : seg.header.syn = false) (hp : seg.payload = [])
    (hnone : r.acknoOut = none) : (r.segmentReceived seg).acknoOut = none ↔
      (seg.header.fin = true → ¬ r.CountsFin) := by
  by_cases ht : r.Takes seg
  · obtain ⟨w, hw⟩ := segmentReceived_taken h ht
    obtain ⟨-, hsyn, hopen⟩ : seg.header.syn = false ∧ r.syn = true ∧
        (r.fin = false ∨ r.reassembler.empty = false) :=
      ht.resolve_left fun hl => by rw [hs] at hl; cases hl.1
    have hzero : r.ackno = ⟨0⟩ := by simpa [acknoOut, hsyn] using hnone
    have hpush := hw.pushed
    rw [hp] at hpush
    obtain ⟨rfl, hempty⟩ := hpush.of_nil h.re
    have hackno : (r.segmentReceived seg).ackno =
        if (r.segmentReceived seg).finNotCount then ⟨0⟩ else ⟨1⟩ := by
      have hadd : (⟨0⟩ : WrappingInt32).add (UInt32.ofNat 0) = ⟨0⟩ := rfl
      rw [hw.ackno, hs, hzero]
      simp only [Bool.false_eq_true, if_false, List.length_nil, hadd, ite_self]
      rfl
    have hcounted := hw.counted
    rw [hw.fin, hempty] at hcounted
    unfold acknoOut
    rw [hackno, hw.syn, hcounted]
    unfold CountsFin
    rw [ht.uncounted h, hsyn]
    cases hfin : seg.header.fin with
    | false =>
      -- an earlier FIN is still waiting for bytes
      rcases hopen with hopen | hopen <;> simp [hopen]
    | true => cases hall : r.reassembler.empty <;> simp
  · rw [segmentReceived_idle h ht]
    refine iff_of_true hnone fun _ hc => ht (.inr ⟨hs, hc.1, ?_⟩)
    have hcounted := h.counted
    rw [hc.2.1, hc.2.2] at hcounted
    exact .inl (by simpa using hcounted)

/-- Reading keeps the invariant. -/
theorem Inv.readOut (h : r.Inv) (n : Nat) : (r.readOut n).Inv where
  re := h.re.readOut n
  cap := h.cap
  capMax := h.capMax
  listen := h.listen
  eof := h.eof
  counted := h.counted
  ended := h.ended

end

end TCPReceiver

end Sponge
