import Sponge.Receiver.Ackno

/-!
# Segments outside the window

A segment none of whose sequence numbers lies in the window should pass without
a trace. Two things happen to it all the same. FIN is recorded wherever it
stands, and ends the stream when nothing waits in the reassembler; and an ackno
that has fallen behind lets the byte at the head in although it is beyond the
window. `outside_unchanged_iff` says that nothing else can go wrong.
-/

namespace Sponge

open Lib StreamReassembler

namespace TCPReceiver

/-- The segment's first sequence number, nearest to what is written. -/
def seqnoAt (r : TCPReceiver) (seg : TCPSegment) : Nat :=
  unwrap seg.header.seqno r.isn r.streamOut.bytesWritten

/-- The ackno, nearest to what is written. -/
def acknoAt (r : TCPReceiver) : Nat := unwrap r.ackno r.isn r.streamOut.bytesWritten

/-- No sequence number of the segment lies in the window. -/
def Outside (r : TCPReceiver) (seg : TCPSegment) : Prop :=
  ∀ i, i < seg.lengthInSequenceSpace →
    ¬ (r.acknoAt ≤ r.seqnoAt seg + i ∧ r.seqnoAt seg + i < r.acknoAt + max r.windowSize 1)

instance (r : TCPReceiver) (seg : TCPSegment) : Decidable (r.Outside seg) :=
  inferInstanceAs (Decidable (∀ i, i < seg.lengthInSequenceSpace → _))

/-- The ackno, the contents of the stream and its end are the same. -/
def Unchanged (r r' : TCPReceiver) : Prop :=
  r'.acknoOut = r.acknoOut ∧ r'.streamOut.buffer = r.streamOut.buffer ∧
    r'.streamOut.inputEnded = r.streamOut.inputEnded

instance (r r' : TCPReceiver) : Decidable (Unchanged r r') :=
  inferInstanceAs (Decidable (_ ∧ _))

/-- The payload holds the next byte to be written, and there is room for it. -/
def CarriesNext (r : TCPReceiver) (seg : TCPSegment) : Prop :=
  r.segmentIndex seg ≤ r.streamOut.bytesWritten ∧
    r.streamOut.bytesWritten < r.segmentIndex seg + seg.payload.length ∧
    0 < r.streamOut.remainingCapacity

instance (r : TCPReceiver) (seg : TCPSegment) : Decidable (r.CarriesNext seg) :=
  inferInstanceAs (Decidable (_ ∧ _))

/-- The reassembler takes a byte of the payload in. -/
def Stores (r : TCPReceiver) (seg : TCPSegment) : Prop :=
  seg.payload ≠ [] ∧ r.streamOut.bytesWritten < r.segmentIndex seg + seg.payload.length ∧
    r.segmentIndex seg < r.streamOut.bytesWritten + r.reassembler.capacity

instance (r : TCPReceiver) (seg : TCPSegment) : Decidable (r.Stores seg) :=
  inferInstanceAs (Decidable (_ ∧ _))

/-- The segment does not carry the next byte past an ackno that is behind, and does not bring FIN
while nothing is unassembled. -/
def PassesBy (r : TCPReceiver) (seg : TCPSegment) : Prop :=
  (r.acknoAt = r.streamOut.bytesWritten + 1 ∨ ¬ r.CarriesNext seg) ∧
    (seg.header.fin = true → r.reassembler.empty = false ∨ r.Stores seg)

instance (r : TCPReceiver) (seg : TCPSegment) : Decidable (r.PassesBy seg) :=
  inferInstanceAs (Decidable (_ ∧ _))

section
variable {r : TCPReceiver} {seg : TCPSegment} {w : List UInt8}

theorem finish_reassembler (r : TCPReceiver) : r.finish.reassembler = r.reassembler ∨
    r.finish.reassembler = { r.reassembler with output := r.reassembler.output.endInput } := by
  unfold finish
  split
  · right
    split <;> rfl
  · exact .inl rfl

/-- What the reassembler becomes, up to the end of the output. -/
theorem segmentReceived_reassembler (hs : seg.header.syn = false) (ht : r.Takes seg) :
    (r.segmentReceived seg).reassembler =
        r.reassembler.pushSubstring seg.payload (r.segmentIndex seg) seg.header.fin ∨
      (r.segmentReceived seg).reassembler =
        { r.reassembler.pushSubstring seg.payload (r.segmentIndex seg) seg.header.fin with
          output := (r.reassembler.pushSubstring seg.payload (r.segmentIndex seg)
            seg.header.fin).output.endInput } := by
  obtain ⟨-, hsyn, hf⟩ : seg.header.syn = false ∧ r.syn = true ∧
      (r.fin = false ∨ r.reassembler.empty = false) := by
    refine ht.resolve_left ?_
    rw [hs]
    rintro ⟨⟨⟩, -⟩
  have htake : (r.fin = false ∨ (r.fin = true ∧ r.reassembler.empty = false)) ∧ r.syn = true := by
    refine ⟨?_, hsyn⟩
    cases hfin : r.fin with
    | false => exact .inl rfl
    | true => exact .inr ⟨rfl, hf.resolve_left (by rw [hfin]; rintro ⟨⟩)⟩
  have hpush : ((r.assemble seg).acceptFin seg).reassembler =
      r.reassembler.pushSubstring seg.payload (r.segmentIndex seg) seg.header.fin := by
    unfold acceptFin assemble
    rw [if_pos htake]
    simp only
    split <;> split <;> rfl
  unfold segmentReceived acceptSyn
  rw [if_neg (by simp [hs]), if_neg (by simp [hs]), ← hpush]
  exact finish_reassembler _

/-- Nothing else than the segment's bytes is written by a segment. -/
theorem Taken.carries (h : r.Inv) (hw : Taken r seg (r.segmentReceived seg) w) (hne : w ≠ []) :
    r.CarriesNext seg := by
  obtain ⟨hle, hlt⟩ := hw.pushed.covers hne
  rw [← h.re.written] at hle hlt
  exact ⟨hle, hlt, Nat.lt_of_lt_of_le (List.length_pos_iff.mpr hne) hw.pushed.length_le⟩

/-- The next byte is written when it comes. -/
theorem CarriesNext.written (h : r.Inv) (hs : seg.header.syn = false) (ht : r.Takes seg)
    (hc : r.CarriesNext seg) :
    r.streamOut.written < (r.segmentReceived seg).streamOut.written := by
  obtain ⟨hle, hlt, hroom⟩ := hc
  simp only [streamOut, ByteStream.bytesWritten, h.re.written] at hle hlt
  have hpush := pushSubstring_writes h.re seg.header.fin hle hlt hroom
  unfold streamOut
  rcases segmentReceived_reassembler hs ht with heq | heq
  · rw [heq]
    exact hpush
  · rw [heq]
    exact hpush

/-- A payload that is taken in and not written waits in the reassembler. -/
theorem Taken.waits (h : r.Inv) (hw : Taken r seg (r.segmentReceived seg) []) (hs : r.Stores seg)
    (hc : ¬ r.CarriesNext seg) : (r.segmentReceived seg).reassembler.empty = false := by
  have hp := hw.pushed
  obtain ⟨hne, hlt, hin⟩ := hs
  have hpos := List.length_pos_iff.mpr hne
  unfold CarriesNext at hc
  simp only [streamOut, ByteStream.bytesWritten, h.re.written] at hlt hin hc
  rw [Bool.eq_false_iff, Ne, empty_iff_holds hp.count]
  rintro ⟨hzero, hnone⟩
  rcases Nat.lt_or_ge r.reassembler.headIndex (r.segmentIndex seg) with hgt | hle
  · -- stored behind a gap
    have hno : ¬ r.reassembler.Overruns (r.segmentIndex seg) seg.payload.length := by
      intro ho
      rcases ho 0 (Nat.zero_le _) with ⟨b, hb, hbeg, -⟩ | ⟨-, hoff, -⟩
      · have := h.re.above b hb
        omega
      · omega
    have hrec := (hp.received (hp.overrun.mpr hno) (r.segmentIndex seg)).mpr
      (.inr ⟨hin, Nat.le_refl _, by omega⟩)
    rcases hrec with hrec | hrec
    · rw [hp.head, List.length_nil] at hrec
      omega
    · exact hnone _ hrec
  · -- dropped for want of room, and still counted
    have hroom : r.reassembler.output.remainingCapacity = 0 := by
      by_contra hr
      exact hc ⟨hle, hlt, Nat.pos_of_ne_zero hr⟩
    have hov : r.reassembler.Overruns (r.segmentIndex seg) seg.payload.length := by
      intro i hi
      exact .inr ⟨hin, by omega, by omega⟩
    have hleak := hp.leak
    exact hp.overrun.mp (by omega) hov

/-- A payload of which nothing is taken in does not change what waits. -/
theorem Taken.empty_eq (h : r.Inv) (hw : Taken r seg (r.segmentReceived seg) [])
    (hn : ¬ r.Stores seg) :
    (r.segmentReceived seg).reassembler.empty = r.reassembler.empty := by
  have hp := hw.pushed
  have hhead : (r.segmentReceived seg).reassembler.headIndex = r.reassembler.headIndex := hp.head
  have hno : ∀ k, r.reassembler.headIndex ≤ k →
      ¬ r.reassembler.Offers (r.segmentIndex seg) seg.payload.length k := by
    rintro k hk ⟨h1, h2, h3⟩
    refine hn ⟨?_, ?_⟩
    · rintro hnil
      rw [hnil, List.length_nil] at h3
      omega
    · simp only [streamOut, ByteStream.bytesWritten, h.re.written]
      omega
  have hleak : (r.segmentReceived seg).reassembler.leaked = r.reassembler.leaked := by
    refine hp.overrun.mpr fun ho => ?_
    rcases ho 0 (Nat.zero_le _) with ⟨b, hb, hbeg, -⟩ | hoff
    · have := h.re.above b hb
      omega
    · exact hno _ (Nat.le_add_right ..) hoff
  have hholds : ∀ k, Holds (r.segmentReceived seg).reassembler.blocks k ↔
      Holds r.reassembler.blocks k := by
    intro k
    rcases Nat.lt_or_ge k r.reassembler.headIndex with hlt | hge
    · refine iff_of_false ?_ ?_
      · rintro ⟨b, hb, hbeg, -⟩
        have := hp.above b hb
        omega
      · rintro ⟨b, hb, hbeg, -⟩
        have := h.re.above b hb
        omega
    · have hrec := hp.received hleak k
      unfold Received at hrec
      rw [hhead] at hrec
      have hk : ¬ k < r.reassembler.headIndex := Nat.not_lt.mpr hge
      simpa only [hk, false_or, hno k hge, or_false] using hrec
  rw [Bool.eq_iff_iff, empty_iff_holds hp.count, empty_iff_holds h.re.count, hleak]
  simp only [hholds]

/-- The receiver is unchanged exactly when nothing is written and the stream goes on. -/
theorem Taken.unchanged_iff (hs : seg.header.syn = false) (hsyn : r.syn = true)
    (hopen : r.streamOut.inputEnd = false) (hw : Taken r seg (r.segmentReceived seg) w) :
    Unchanged r (r.segmentReceived seg) ↔
      w = [] ∧ (r.segmentReceived seg).streamOut.inputEnd = false := by
  unfold Unchanged ByteStream.inputEnded
  rw [hopen]
  have hbuf : (r.segmentReceived seg).streamOut.buffer = r.streamOut.buffer ++ w :=
    hw.pushed.buffer
  constructor
  · rintro ⟨-, hb, he⟩
    refine ⟨?_, he⟩
    rw [hbuf] at hb
    simpa using hb
  · rintro ⟨rfl, he⟩
    refine ⟨?_, by rw [hbuf, List.append_nil], he⟩
    have hn : (r.segmentReceived seg).finNotCount = true := by
      have := hw.ended
      rw [he] at this
      simpa using this.symm
    have hack : (r.segmentReceived seg).ackno = r.ackno := by
      have hadd : r.ackno.add 0 = r.ackno := by
        rw [WrappingInt32.add, UInt32.add_zero]
      rw [hw.ackno, hs, hn]
      simp [hadd]
    unfold acknoOut
    rw [hack, hw.syn, hsyn]

/-- Without a lag, the next byte lies in the window. -/
theorem Outside.not_carriesNext (hs : seg.header.syn = false) (ho : r.Outside seg)
    (hack : r.acknoAt = r.streamOut.bytesWritten + 1) : ¬ r.CarriesNext seg := by
  rintro ⟨hle, hlt, -⟩
  have hlen : seg.payload.length ≤ seg.lengthInSequenceSpace := by
    unfold TCPSegment.lengthInSequenceSpace
    omega
  have hidx : r.segmentIndex seg = sub64 (r.seqnoAt seg) 1 := by
    unfold segmentIndex
    rw [if_neg (by simp [hs])]
    rfl
  have hlt64 : r.seqnoAt seg < 2 ^ 64 := unwrap_lt _ _ _
  have hack64 : r.acknoAt < 2 ^ 64 := unwrap_lt _ _ _
  have hsub : r.segmentIndex seg + 1 = r.seqnoAt seg := by
    rw [hidx] at hle ⊢
    unfold sub64 at hle ⊢
    omega
  -- the ackno is the number of the next byte
  refine ho (r.acknoAt - r.seqnoAt seg) (by omega) ⟨by omega, ?_⟩
  have := Nat.le_max_right r.windowSize 1
  omega

theorem passesBy_iff (h : r.Inv) (hsyn : r.syn = true) (hopen : r.streamOut.inputEnd = false)
    (hs : seg.header.syn = false) (ho : r.Outside seg) :
    Unchanged r (r.segmentReceived seg) ↔ r.PassesBy seg := by
  have hwait : (r.fin && r.reassembler.empty) = false := by
    have hended := h.ended
    rw [hopen, h.counted] at hended
    simpa using hended.symm
  have ht : r.Takes seg := by
    refine .inr ⟨hs, hsyn, ?_⟩
    simpa using (Bool.and_eq_false_iff).mp hwait
  obtain ⟨w, hw⟩ := segmentReceived_taken h ht
  rw [hw.unchanged_iff hs hsyn hopen]
  have hend : (r.segmentReceived seg).streamOut.inputEnd =
      ((r.fin || seg.header.fin) && (r.segmentReceived seg).reassembler.empty) := by
    rw [hw.ended, hw.counted, hw.fin, Bool.not_not]
  by_cases hc : r.CarriesNext seg
  · -- the byte is written, and the ackno must have been behind
    refine iff_of_false ?_ ?_
    · rintro ⟨rfl, -⟩
      have hlt := hc.written h hs ht
      have := hw.pushed.written
      simp only [streamOut, List.length_nil] at hlt this
      omega
    · rintro ⟨hack | hno, -⟩
      · exact ho.not_carriesNext hs hack hc
      · exact hno hc
  · have hnil : w = [] := by
      by_contra hne
      exact hc (hw.carries h hne)
    subst hnil
    unfold PassesBy
    by_cases hst : r.Stores seg
    · have hne := hw.waits h hst hc
      simp [hend, hne, hc, hst]
    · have hsame := hw.empty_eq h hst
      rw [hend, hsame]
      cases hfin : seg.header.fin <;> cases hemp : r.reassembler.empty <;>
        simp_all

end

/-- **Segments outside the window.** In a reachable state with SYN received and the stream open, a
segment without SYN and with no sequence number in the window leaves the ackno, the contents of
the stream and its end alone exactly when it passes by. -/
theorem outside_unchanged_iff {capacity : Nat} {r0 : TCPReceiver} (h : mk? capacity = some r0)
    (ops : List Op) (seg : TCPSegment) (hsyn : (run step r0 ops).syn = true)
    (hopen : (run step r0 ops).streamOut.inputEnded = false) (hs : seg.header.syn = false)
    (ho : (run step r0 ops).Outside seg) :
    Unchanged (run step r0 ops) ((run step r0 ops).segmentReceived seg) ↔
      (run step r0 ops).PassesBy seg :=
  passesBy_iff (run_inv (inv_mk h).1 (fun _ op hi => hi.step op) ops) hsyn hopen hs ho

/-- An old segment again, and one beyond the window. -/
theorem outside_unchanged : ∃ r, mk? 4 = some r ∧
    Unchanged (run step r (overlapOps.take 2)) ((run step r (overlapOps.take 2)).segmentReceived
      { header := { seqno := ⟨8⟩ }, payload := [97] }) ∧
    Unchanged (run step r (overlapOps.take 2)) ((run step r (overlapOps.take 2)).segmentReceived
      { header := { seqno := ⟨12⟩, fin := true }, payload := [99] }) :=
  ⟨_, rfl,
    (outside_unchanged_iff (show mk? 4 = some _ from rfl) _ _ (by decide) (by decide) rfl
      (by decide)).mpr (by decide),
    (outside_unchanged_iff (show mk? 4 = some _ from rfl) _ _ (by decide) (by decide) rfl
      (by decide)).mpr (by decide)⟩

/-- A FIN that stands before the ackno ends the stream; and past an ackno that is behind, a byte
beyond the window is written. -/
theorem outside_changes : ∃ r, mk? 4 = some r ∧
    ((run step r (overlapOps.take 2)).syn = true ∧
      (run step r (overlapOps.take 2)).streamOut.inputEnded = false ∧
      (run step r (overlapOps.take 2)).Outside { header := { seqno := ⟨8⟩, fin := true } } ∧
      ((run step r (overlapOps.take 2)).segmentReceived
        { header := { seqno := ⟨8⟩, fin := true } }).streamOut.inputEnded = true) ∧
    (run step r overlapOps).syn = true ∧
      (run step r overlapOps).streamOut.inputEnded = false ∧
      (run step r overlapOps).Outside { header := { seqno := ⟨11⟩ }, payload := [100] } ∧
      ¬ Unchanged (run step r overlapOps) ((run step r overlapOps).segmentReceived
        { header := { seqno := ⟨11⟩ }, payload := [100] }) :=
  ⟨_, rfl, by decide, by decide, by decide, by decide, by decide⟩

end TCPReceiver

end Sponge
