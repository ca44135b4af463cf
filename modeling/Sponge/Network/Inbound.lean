import Sponge.Network.Outbound
import Sponge.Reassembler.Slices
import Sponge.Receiver.Ackno

/-!
# What an endpoint hears

`Hears W ended isn reads r`: the receiver `r` of a peer that writes `W` holds
only parts of `W`, and what it has written, of which `reads` has been read, is
a prefix of `W`. A segment is `Genuine` when it is the body of one that carries
its part of `W` and lies near what is written; such a segment is read at its
place in `W`, or not at all (`Genuine.slice`).
-/

namespace Sponge

open Lib TCPConnection StreamReassembler

/-- The invariant of a receiver whose peer writes `W`. -/
structure Hears (W : List UInt8) (ended : Bool) (isn : WrappingInt32) (reads : List UInt8)
    (r : TCPReceiver) : Prop where
  inv : r.Inv
  isn_eq : r.syn = true → r.isn = isn
  fed : r.reassembler.Fed W
  stream : reads ++ r.streamOut.buffer <+: W
  length : (reads ++ r.streamOut.buffer).length = r.streamOut.written
  fin : r.fin = true → ended = true

/-- The segment comes from the peer and lies near `written`. -/
def Genuine (W : List UInt8) (ended : Bool) (isn : WrappingInt32) (written : Nat)
    (seg : TCPSegment) : Prop :=
  seg.lengthInSequenceSpace = 0 ∨ ∃ n seg', Carries W ended isn n seg' ∧ SameBody seg' seg ∧
    n ≤ written + 2 ^ 31 ∧ written ≤ n + 2 ^ 31

section
variable {W d reads : List UInt8} {ended ended' : Bool} {isn : WrappingInt32} {written : Nat}
  {seg : TCPSegment} {r r' : TCPReceiver} {w : List UInt8}

theorem lengthInSequenceSpace_zero (h : seg.lengthInSequenceSpace = 0) :
    seg.payload = [] ∧ seg.header.syn = false ∧ seg.header.fin = false := by
  rw [TCPSegment.lengthInSequenceSpace] at h
  refine ⟨List.length_eq_zero_iff.mp (by omega), ?_, ?_⟩
  · cases hs : seg.header.syn
    · rfl
    · rw [hs] at h; simp at h
  · cases hs : seg.header.fin
    · rfl
    · rw [hs] at h; simp at h

/-- A genuine segment with SYN is SYN alone, with the peer's initial sequence number. -/
theorem Genuine.syn (h : Genuine W ended isn written seg) (hs : seg.header.syn = true) :
    seg.payload = [] ∧ seg.header.fin = false ∧ seg.header.seqno = isn := by
  rcases h with h | ⟨n, seg', hc, ⟨h1, h2, h3, h4⟩, -⟩
  · rw [(lengthInSequenceSpace_zero h).2.1] at hs
    cases hs
  · have hn : n = 0 := hc.syn_iff.mp (h3.trans hs)
    rw [← h1, ← h2, ← h4, hc.syn hn]
    exact ⟨rfl, rfl, wrap_zero isn⟩

theorem Genuine.fin (h : Genuine W ended isn written seg) (hf : seg.header.fin = true) :
    ended = true := by
  rcases h with h | ⟨n, seg', hc, ⟨h1, h2, h3, h4⟩, -⟩
  · rw [(lengthInSequenceSpace_zero h).2.2] at hf
    cases hf
  · exact (hc.fin (h4.trans hf)).1

/-- A genuine segment is read at its place in the stream, or lies outside of what the
reassembler looks at. -/
theorem Genuine.slice (h : Hears W ended isn reads r) (hW : W.length < 2 ^ 63)
    (hg : Genuine W ended isn r.streamOut.written seg) (ht : r.Takes seg)
    (hin : r.segmentIndex seg < r.reassembler.headIndex + r.reassembler.capacity)
    (hpast : r.reassembler.headIndex < r.segmentIndex seg + seg.payload.length) :
    SliceAt W (r.segmentIndex seg) seg.payload := by
  rcases hg with hg | ⟨n, seg', hc, ⟨h1, h2, h3, h4⟩, hn1, hn2⟩
  · rw [(lengthInSequenceSpace_zero hg).1]
    exact sliceAt_nil W _
  · rcases ht with ⟨hs, -⟩ | ⟨hs, hsyn, -⟩
    · rw [← h1, hc.syn (hc.syn_iff.mp (h3.trans hs))]
      exact sliceAt_nil W _
    · have hn : n ≠ 0 := by
        intro hn
        rw [hc.syn_iff.mpr hn, hs] at h3
        cases h3
      have hseq : seg.header.seqno = wrap n r.isn := by
        rw [← h2, hc.seqno, h.isn_eq hsyn]
      have hhead := h.inv.re.written
      have hle := h.fed.head
      have hcap := h.inv.cap
      have hmax := h.inv.capMax
      have hsize := hc.size
      rw [h1] at hsize
      simp only [TCPConfig.MAX_PAYLOAD_SIZE, maxCapacity, TCPReceiver.streamOut] at *
      rcases Nat.lt_or_ge n (r.reassembler.output.written + 2 ^ 31) with hlt | hge
      · have hidx : r.segmentIndex seg = n - 1 :=
          r.segmentIndex_of_near hs (by rw [hseq]; congr; omega)
            (by rw [TCPReceiver.streamOut]; omega) (by rw [TCPReceiver.streamOut]; omega)
            (by rw [TCPReceiver.streamOut]; omega)
        rw [hidx, ← h1]
        exact hc.slice hn
      · -- half the ring away: read as itself, or as a number far below the head
        have hidx : r.segmentIndex seg = sub64 (unwrap seg.header.seqno r.isn
            r.reassembler.output.written) 1 := by
          simp [TCPReceiver.segmentIndex, hs, TCPReceiver.streamOut, ByteStream.bytesWritten]
        have hu := unwrap_wrap_tie (p := n) (c := r.reassembler.output.written) r.isn (by omega)
          (by omega)
        rw [← hseq] at hu
        rcases hu with hu | hu
        · rw [hu, sub64_of_le (by omega) (by omega)] at hidx
          rw [hidx, ← h1]
          exact hc.slice hn
        · exfalso
          rw [hidx] at hin hpast
          unfold sub64 at hin hpast
          omega

theorem Hears.taken (h : Hears W ended isn reads r) (hW : W.length < 2 ^ 63)
    (hg : Genuine W ended isn r.streamOut.written seg) (ht : r.Takes seg)
    (hw : TCPReceiver.Taken r seg r' w) : Hears W ended isn reads r' := by
  have hslice := hg.slice h hW ht
  have hpre : SliceAt W r.reassembler.headIndex w := (hw.pushed.slices W h.fed.blocks hslice).1
  have hlen := h.length
  have hhead := h.inv.re.written
  have hbuf : r'.streamOut.buffer = r.streamOut.buffer ++ w := hw.pushed.buffer
  exact {
    inv := hw.inv h.inv
    isn_eq := fun _ => by
      rw [hw.isn]
      rcases ht with ⟨hs, -⟩ | ⟨hs, hsyn, -⟩
      · rw [hs, if_pos rfl]
        exact (hg.syn hs).2.2
      · rw [hs, if_neg Bool.false_ne_true]
        exact h.isn_eq hsyn
    fed := hw.pushed.fed h.fed hslice
    stream := by
      rw [hbuf, ← List.append_assoc]
      apply SliceAt.extend h.stream
      rw [hlen, TCPReceiver.streamOut, hhead]
      exact hpre
    length := by
      have hwr : r'.streamOut.written = r.streamOut.written + w.length := hw.pushed.written
      rw [hbuf, ← List.append_assoc, List.length_append, hlen, hwr]
    fin := fun hf => by
      rw [hw.fin, Bool.or_eq_true] at hf
      rcases hf with hf | hf
      · exact h.fin hf
      · exact hg.fin hf }

theorem Hears.segmentReceived (h : Hears W ended isn reads r) (hW : W.length < 2 ^ 63)
    (hg : Genuine W ended isn r.streamOut.written seg) :
    Hears W ended isn reads (r.segmentReceived seg) := by
  by_cases ht : r.Takes seg
  · obtain ⟨w, hw⟩ := TCPReceiver.segmentReceived_taken h.inv ht
    exact h.taken hW hg ht hw
  · rw [TCPReceiver.segmentReceived_idle h.inv ht]
    exact h

theorem Hears.readOut (h : Hears W ended isn reads r) (n : Nat) :
    Hears W ended isn (reads ++ (r.streamOut.read n).1) (r.readOut n) := by
  have hall : (reads ++ (r.streamOut.read n).1) ++ (r.readOut n).streamOut.buffer =
      reads ++ r.streamOut.buffer := by
    rw [ByteStream.read_eq, List.append_assoc]
    simp [TCPReceiver.readOut, TCPReceiver.streamOut, StreamReassembler.readOut]
  exact {
    inv := h.inv.readOut n
    isn_eq := h.isn_eq
    fed := ⟨h.fed.blocks, h.fed.head⟩
    stream := by rw [hall]; exact h.stream
    length := by rw [hall]; exact h.length
    fin := h.fin }

theorem failed_inv (h : r.Inv) : (failed r).Inv where
  re := ⟨h.re.wf, h.re.gapped, h.re.above, h.re.count, h.re.stream.setError, h.re.written, h.re.cap,
    h.re.ended⟩
  cap := h.cap
  capMax := h.capMax
  listen := h.listen
  eof := h.eof
  counted := h.counted
  ended := h.ended

theorem Hears.failed (h : Hears W ended isn reads r) : Hears W ended isn reads (failed r) :=
  ⟨failed_inv h.inv, h.isn_eq, ⟨h.fed.blocks, h.fed.head⟩, h.stream, h.length, h.fin⟩

/-- The peer's stream may grow and end. -/
theorem Hears.grow (h : Hears W ended isn reads r) (he : ended = true → ended' = true) :
    Hears (W ++ d) ended' isn reads r where
  inv := h.inv
  isn_eq := h.isn_eq
  fed := ⟨fun b hb => (h.fed.blocks b hb).mono d, by
    have := h.fed.head
    rw [List.length_append]
    omega⟩
  stream := h.stream.trans (List.prefix_append ..)
  length := h.length
  fin hf := he (h.fin hf)

theorem hears_mk {capacity : Nat} (h : TCPReceiver.mk? capacity = some r) :
    Hears [] ended isn [] r := by
  obtain ⟨hi, -, hs, hbuf, hb, -⟩ := TCPReceiver.inv_mk h
  have hlisten := hi.listen hs
  refine ⟨hi, ?_, ⟨by simp [hb], ?_⟩, by rw [hbuf]; exact List.prefix_refl _, ?_, ?_⟩
  · intro h'
    rw [hs] at h'
    cases h'
  · rw [hlisten.2]
    exact Nat.zero_le _
  · rw [hbuf, TCPReceiver.streamOut, hi.re.written, hlisten.2]
    rfl
  · intro h'
    rw [hlisten.1] at h'
    cases h'

end

end Sponge
