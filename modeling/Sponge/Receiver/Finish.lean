import Sponge.Receiver.Ackno
import Sponge.Reassembler.Slices

/-!
# The acknowledged FIN

A receiver is fed SYN and segments `S[i..j)` of a stream `S`, the last ones
(`j = |S|`) with FIN. When a FIN segment has been let in and all of `S` is
written, the stream has ended and the FIN is acknowledged, provided that no
arrival was misread, straddled the ackno or overran the room (`Clean`).
-/

namespace Sponge

open Lib StreamReassembler

namespace TCPReceiver

/-- What arrives at a receiver of the stream `S`. -/
inductive Arrival where
  | syn
  | piece (i j : Nat)
  | read (n : Nat)
  deriving DecidableEq, Repr

/-- The segment that carries `S[i..j)`. -/
def pieceSegment (S : List UInt8) (isn : WrappingInt32) (i j : Nat) : TCPSegment :=
  { header := { seqno := wrap (i + 1) isn, fin := j == S.length }, payload := slice S i j }

def Arrival.op (S : List UInt8) (isn : WrappingInt32) : Arrival → Op
  | .syn => .segment { header := { seqno := isn, syn := true } }
  | .piece i j => .segment (pieceSegment S isn i j)
  | .read n => .read n

def Arrival.Within (S : List UInt8) : Arrival → Prop
  | .piece i j => i ≤ j ∧ j ≤ S.length
  | _ => True

instance (S : List UInt8) : ∀ a : Arrival, Decidable (a.Within S)
  | .piece i j => inferInstanceAs (Decidable (i ≤ j ∧ j ≤ S.length))
  | .syn => isTrue trivial
  | .read _ => isTrue trivial

def arrive (S : List UInt8) (isn : WrappingInt32) (r : TCPReceiver) (a : Arrival) : TCPReceiver :=
  r.step (a.op S isn)

/-- The arrival, if it is taken, is near enough to be read as what it is, does not straddle
the ackno and does not overrun the room. -/
def Clean (S : List UInt8) (isn : WrappingInt32) (r : TCPReceiver) : Arrival → Prop
  | .piece i j => r.Takes (pieceSegment S isn i j) →
      (r.streamOut.bytesWritten ≤ i + 1 + 2 ^ 31 ∧ i + 1 < r.streamOut.bytesWritten + 2 ^ 31) ∧
        ¬ r.Straddles (pieceSegment S isn i j) ∧ ¬ r.reassembler.Overruns i (j - i)
  | _ => True

instance (S : List UInt8) (isn : WrappingInt32) (r : TCPReceiver) :
    ∀ a, Decidable (r.Clean S isn a)
  | .piece _ _ => inferInstanceAs (Decidable (_ → _ ∧ _))
  | .syn => isTrue trivial
  | .read _ => isTrue trivial

/-- The receiver of `S` after clean arrivals. -/
structure Following (S : List UInt8) (isn : WrappingInt32) (capacity : Nat) (r : TCPReceiver) :
    Prop where
  inv : r.Inv
  counted : r.Counted
  isn : r.syn = true → r.isn = isn
  fed : r.reassembler.Fed S
  sound : r.streamOut.inputEnd = true ∨ r.reassembler.leaked = 0
  capacity : r.reassembler.capacity = capacity

section
variable {S : List UInt8} {isn : WrappingInt32} {capacity : Nat} {r : TCPReceiver} {i j : Nat}

theorem following_mk (h : mk? capacity = some r) : r.Following S isn capacity := by
  obtain ⟨hi, hc, hs, -, hb, hu⟩ := inv_mk h
  refine ⟨hi, counted_mk h, ?_, ⟨by simp [hb], ?_⟩, .inr ?_, ?_⟩
  · intro h'
    rw [hs] at h'
    cases h'
  · rw [(hi.listen hs).2]
    exact Nat.zero_le _
  · rw [leaked, hb, hu]
    rfl
  · rw [hi.cap, hc]

theorem Following.written_le (h : r.Following S isn capacity) :
    r.streamOut.written ≤ S.length := by
  rw [streamOut, h.inv.re.written]
  exact h.fed.head

/-- A taken segment whose payload is a slice of `S` at the index it is read at. -/
theorem Following.taken {seg : TCPSegment} {r' : TCPReceiver} {w : List UInt8}
    (h : r.Following S isn capacity) (ht : r.Takes seg) (hw : Taken r seg r' w)
    (hc : r'.Counted) (hisn : r'.isn = isn)
    (hd : SliceAt S (r.segmentIndex seg) seg.payload)
    (hov : ¬ r.reassembler.Overruns (r.segmentIndex seg) seg.payload.length) :
    r'.Following S isn capacity where
  inv := hw.inv h.inv
  counted := hc
  isn _ := hisn
  fed := hw.pushed.fed h.fed fun _ _ => hd
  sound := by
    rcases h.sound with hs | hs
    · rw [ht.open h.inv] at hs
      cases hs
    · refine .inr ?_
      rw [hw.pushed.overrun.mpr hov]
      exact hs
  capacity := by rw [hw.pushed.capacity, h.capacity]

theorem Following.index (h : r.Following S isn capacity) (hS : S.length < 2 ^ 63)
    (ht : r.Takes (pieceSegment S isn i j)) (hcl : r.Clean S isn (.piece i j)) :
    r.segmentIndex (pieceSegment S isn i j) = i := by
  obtain ⟨⟨h1, h2⟩, -⟩ := hcl ht
  have hsyn : r.syn = true := by
    rcases ht with ⟨hs, -⟩ | ⟨-, hs, -⟩
    · cases hs
    · exact hs
  have hle := h.written_le
  exact segmentIndex_of_near rfl (by rw [h.isn hsyn]; rfl) (by omega) h1 h2

theorem Following.arrive {a : Arrival} (h : r.Following S isn capacity) (hS : S.length < 2 ^ 63)
    (hv : a.Within S) (hcl : r.Clean S isn a) : (r.arrive S isn a).Following S isn capacity := by
  cases a with
  | read n => exact ⟨h.inv.readOut n, h.counted, h.isn, ⟨h.fed.blocks, h.fed.head⟩, h.sound,
      h.capacity⟩
  | syn =>
    by_cases ht : r.Takes { header := { seqno := isn, syn := true } }
    · obtain ⟨w, hw⟩ := segmentReceived_taken h.inv ht
      refine h.taken ht hw ?_ hw.isn (sliceAt_nil S _) ?_
      · exact h.counted.segmentReceived h.inv fun hst => by cases hst.2.1
      · intro hov
        rcases hov 0 (Nat.zero_le _) with ⟨b, hb, hle, -⟩ | ⟨-, h1, h2⟩
        · have := h.inv.re.above b hb
          omega
        · simp only [segmentIndex, if_true, List.length_nil] at h2
          omega
    · have hid : r.arrive S isn .syn = r := segmentReceived_idle h.inv ht
      rw [hid]
      exact h
  | piece i j =>
    by_cases ht : r.Takes (pieceSegment S isn i j)
    · obtain ⟨w, hw⟩ := segmentReceived_taken h.inv ht
      have hidx := h.index hS ht hcl
      obtain ⟨-, hst, hov⟩ := hcl ht
      have hsyn : r.syn = true := by
        rcases ht with ⟨hs, -⟩ | ⟨-, hs, -⟩
        · cases hs
        · exact hs
      refine h.taken ht hw (h.counted.segmentReceived h.inv hst) ?_ ?_ ?_
      · exact hw.isn.trans (h.isn hsyn)
      · rw [hidx]
        exact sliceAt_slice S i j
      · rw [hidx]
        have hlen : (pieceSegment S isn i j).payload.length = j - i := slice_length hv.2
        rwa [hlen]
    · have hid : r.arrive S isn (.piece i j) = r := segmentReceived_idle h.inv ht
      rw [hid]
      exact h

/-- The stream has ended, or its end has been let in. -/
def EofSeen (r : TCPReceiver) : Prop :=
  r.syn = true ∧ (r.streamOut.inputEnd = true ∨ r.reassembler.eofFlag = true)

theorem EofSeen.segmentReceived {seg : TCPSegment} (h : r.EofSeen) (hi : r.Inv) :
    (r.segmentReceived seg).EofSeen := by
  by_cases ht : r.Takes seg
  · obtain ⟨w, hw⟩ := segmentReceived_taken hi ht
    refine ⟨hw.syn, .inr ?_⟩
    rcases h.2 with he | he
    · rw [ht.open hi] at he
      cases he
    · rw [hw.eofFlag, he, Bool.true_or]
  · rw [segmentReceived_idle hi ht]
    exact h

theorem EofSeen.arrive (h : r.EofSeen) (hi : r.Inv) (a : Arrival) :
    (r.arrive S isn a).EofSeen := by
  cases a with
  | syn => exact h.segmentReceived hi
  | piece i j => exact h.segmentReceived hi
  | read n => exact h

/-- A FIN segment that is let in. -/
theorem Following.eofSeen (h : r.Following S isn capacity) (hS : S.length < 2 ^ 63)
    (hsyn : r.syn = true) (hin : i < r.reassembler.headIndex + capacity)
    (hcl : r.Clean S isn (.piece i S.length)) :
    (r.arrive S isn (.piece i S.length)).EofSeen := by
  by_cases ht : r.Takes (pieceSegment S isn i S.length)
  · obtain ⟨w, hw⟩ := segmentReceived_taken h.inv ht
    have hidx := h.index hS ht hcl
    refine ⟨hw.syn, .inr ?_⟩
    have heof := hw.eofFlag
    rw [hidx, h.capacity, decide_eq_true hin] at heof
    rw [TCPReceiver.arrive, Arrival.op, TCPReceiver.step, heof]
    simp [pieceSegment]
  · have hid : r.arrive S isn (.piece i S.length) = r := segmentReceived_idle h.inv ht
    rw [hid]
    refine ⟨hsyn, .inl ?_⟩
    -- it is turned away only because the stream has ended
    unfold Takes at ht
    push Not at ht
    obtain ⟨hf, he⟩ := ht.2 rfl hsyn
    simp only [ne_eq, Bool.not_eq_false] at hf he
    rw [h.inv.ended, h.inv.counted, hf, he]
    rfl

theorem Following.ended (h : r.Following S isn capacity) (he : r.EofSeen)
    (hall : r.streamOut.bytesWritten = S.length) : r.streamOut.inputEnd = true := by
  rcases he.2 with hend | heof
  · exact hend
  · rcases h.sound with hend | hl
    · exact hend
    · refine h.inv.re.ended heof (h.fed.unassembled_zero h.inv.re hl ?_)
      rw [← h.inv.re.written]
      exact hall

end

/-- **The end of the stream is not missed.** A reassembler that has been pushed the end and
has written all of `S` reports the end exactly when no push on the open stream overran the
room; a receiver after clean arrivals has acknowledged the FIN. -/
theorem end_reported (capacity : Nat) (S : List UInt8) (hS : S.length < 2 ^ 63) :
    (∀ (re : StreamReassembler) (pre post : List StreamReassembler.Op) (i : Nat),
      StreamReassembler.mk? capacity = some re →
      let ops := pre ++ .push i S.length :: post
      (∀ op ∈ ops, op.Within S) →
      i < (run (StreamReassembler.step S) re pre).headIndex + capacity →
      (run (StreamReassembler.step S) re ops).output.bytesWritten = S.length →
      ((run (StreamReassembler.step S) re ops).output.inputEnded = true ↔
        Along (StreamReassembler.step S) NoOverrun re ops)) ∧
    (∀ (isn : WrappingInt32) (r : TCPReceiver) (pre post : List Arrival) (i : Nat),
      mk? capacity = some r →
      let as := pre ++ .piece i S.length :: post
      (∀ a ∈ as, a.Within S) → Along (arrive S isn) (Clean S isn) r as →
      wrap (S.length + 2) isn ≠ ⟨0⟩ →
      (run (arrive S isn) r pre).syn = true →
      i < (run (arrive S isn) r pre).reassembler.headIndex + capacity →
      (run (arrive S isn) r as).streamOut.bytesWritten = S.length →
      (run (arrive S isn) r as).streamOut.inputEnded = true ∧
        (run (arrive S isn) r as).acknoOut = some (wrap (S.length + 2) isn)) := by
  constructor
  · intro re pre post i h0 ops hv hin hall
    exact inputEnd_iff h0 hv hin hall
  intro isn r pre post i h0 as hv hcl hne hsyn hin hall
  have hcl' : Along (arrive S isn) (fun r a => r.Clean S isn a ∧ a.Within S) r as :=
    hcl.and_forall hv
  have hstep : ∀ (r : TCPReceiver) (a : Arrival), r.Following S isn capacity →
      r.Clean S isn a ∧ a.Within S → (r.arrive S isn a).Following S isn capacity :=
    fun r a h hg => h.arrive hS hg.2 hg.1
  have hfin := hcl'.inv (following_mk h0) hstep
  obtain ⟨hcpre, hcpost⟩ := along_append.mp hcl'
  have hpre := hcpre.inv (following_mk h0) hstep
  have hseen : (run (arrive S isn) r as).EofSeen := by
    rw [run_append, run_cons]
    exact (hcpost.2.inv (I := fun r : TCPReceiver => r.Following S isn capacity ∧ r.EofSeen)
      ⟨hstep _ _ hpre hcpost.1, hpre.eofSeen hS hsyn hin hcpost.1.1⟩
      fun r a h hg => ⟨hstep r a h.1 hg, h.2.arrive h.1.inv a⟩).2
  have hend := hfin.ended hseen hall
  refine ⟨hend, ?_⟩
  have hack : (run (arrive S isn) r as).ackno = wrap (S.length + 2) isn := by
    rw [hfin.counted hseen.1, hfin.isn hseen.1, nextExpected, hall, ByteStream.inputEnded, hend,
      if_pos rfl, Nat.add_comm 1, Nat.add_assoc]
  rw [acknoOut, if_neg, hack]
  rw [hack]
  simp [hne, hseen.1]

theorem end_reported_abc : ∃ re r, StreamReassembler.mk? 4 = some re ∧ mk? 4 = some r ∧
    (run (StreamReassembler.step [97, 98, 99]) re [.push 0 2, .push 1 3]).output.inputEnded = true ∧
    (run (arrive [97, 98, 99] ⟨7⟩) r [.syn, .piece 1 3, .piece 0 1]).acknoOut = some ⟨12⟩ := by
  refine ⟨_, _, rfl, rfl, ?_, ?_⟩
  · exact ((end_reported 4 [97, 98, 99] (by decide)).1 _ [.push 0 2] [] 1 rfl
      (by decide) (by decide) (by decide)).mpr (by decide)
  · exact ((end_reported 4 [97, 98, 99] (by decide)).2 ⟨7⟩ _ [.syn]
      [.piece 0 1] 1 rfl (by decide) (by decide) (by decide) (by decide) (by decide)
      (by decide)).2

/-- Two bytes of room for a push of three with the end: the third is dropped and stays counted,
and when it is pushed again and written the end is not reported. -/
theorem end_missed_after_truncation : ∃ re, StreamReassembler.mk? 2 = some re ∧
    let ops : List StreamReassembler.Op := [.push 0 3, .read 2, .push 2 3]
    (∀ op ∈ ops, op.Within [97, 98, 99]) ∧
      0 < re.headIndex + 2 ∧
      (run (StreamReassembler.step [97, 98, 99]) re ops).output.bytesWritten = 3 ∧
      (run (StreamReassembler.step [97, 98, 99]) re ops).output.inputEnded = false :=
  ⟨_, rfl, by decide, by decide, by decide, by decide⟩

end TCPReceiver

end Sponge
