import Sponge.Sender.Window

/-!
# The window is filled

`Turns win s segs t` is a run of the loop that sends `segs` and stops at one of its
exits. Every state has one (`fillLoop_turns`), and giving the loop more turns changes
nothing (`fillLoop_stable`). What a segment carries depends on those sent before it:
they have taken sequence numbers from the window (`roomAfter`) and bytes from the
stream (`Turns.carries`), and those bytes are their payloads (`Turns.payloads`).
-/

namespace Sponge

namespace TCPSender

/-- The sequence numbers past the ackno, as the loop computes them. -/
def unacked (s : TCPSender) : Nat := sub64 s.nextSeqno s.receiveAck

/-- What the loop computes as the part of the window that is left behind `before`. -/
def roomAfter (s : TCPSender) (win : Nat) (before : List TCPSegment) : Nat :=
  sub64 win (sub64 (s.nextSeqno + seqLength before) s.receiveAck)

def payloadLength (segs : List TCPSegment) : Nat := (segs.map (·.payload.length)).sum

@[simp] theorem payloadLength_nil : payloadLength [] = 0 := rfl

@[simp] theorem payloadLength_cons (seg : TCPSegment) (segs : List TCPSegment) :
    payloadLength (seg :: segs) = seg.payload.length + payloadLength segs := by
  simp [payloadLength]

/-- The loop sends `segs` and stops. -/
inductive Turns (win : Nat) : TCPSender → List TCPSegment → TCPSender → Prop
  | done {s} : Done win s → Turns win s [] s
  | turn {s seg t segs u} : Turn win s seg t → Turns win t segs u → Turns win s (seg :: segs) u

section
variable {s t u : TCPSender} {win : Nat} {seg : TCPSegment} {segs : List TCPSegment}

theorem fillLoop_turns (hwin : 0 < win) :
    ∀ (fuel : Nat) {s : TCPSender}, s.turnsLeft < fuel → ∃ segs, Turns win s segs
      (fillLoop win fuel s)
  | 0, _, h => absurd h (Nat.not_lt_zero _)
  | fuel + 1, s, h => by
    rcases fillLoop_turn hwin fuel s with ⟨hd, heq⟩ | ⟨seg, t, ht, heq⟩
    · rw [heq]
      exact ⟨[], .done hd⟩
    · have hleft := ht.turnsLeft_lt
      obtain ⟨segs, hrun⟩ := fillLoop_turns hwin fuel (s := t) (by omega)
      rw [heq]
      exact ⟨seg :: segs, .turn ht hrun⟩

/-- More turns than the loop needs change nothing. -/
theorem fillLoop_stable (hwin : 0 < win) :
    ∀ (fuel : Nat) {s : TCPSender} {more : Nat}, s.turnsLeft < fuel → fuel ≤ more →
      fillLoop win more s = fillLoop win fuel s
  | 0, _, _, h, _ => absurd h (Nat.not_lt_zero _)
  | fuel + 1, s, more, h, hmore => by
    obtain ⟨more, rfl⟩ : ∃ k, more = k + 1 := ⟨more - 1, by omega⟩
    rcases fillLoop_step hwin s with ⟨-, heq⟩ | ⟨seg, t, ht, heq⟩
    · rw [heq, heq]
    · have hleft := ht.turnsLeft_lt
      rw [heq, heq]
      exact fillLoop_stable hwin fuel (by omega) (by omega)

theorem Turns.done_end (h : Turns win s segs t) : Done win t := by
  induction h with
  | done hd => exact hd
  | turn _ _ ih => exact ih

/-- Behind FIN nothing is sent. -/
theorem Turns.unfinished (h : Turns win s segs t) (hne : segs ≠ []) : s.fin = false := by
  cases h with
  | done _ => exact absurd rfl hne
  | turn ht _ => exact ht.unfinished

theorem Turns.segmentsOut (h : Turns win s segs t) : t.segmentsOut = s.segmentsOut ++ segs := by
  induction h with
  | done _ => exact (List.append_nil _).symm
  | turn ht _ ih => rw [ih, ht.sent.segmentsOut, List.append_assoc, List.singleton_append]

theorem Turns.segmentsInFlight (h : Turns win s segs t) :
    t.segmentsInFlight = s.segmentsInFlight ++ segs := by
  induction h with
  | done _ => exact (List.append_nil _).symm
  | turn ht _ ih =>
    rw [ih, ht.sent.segmentsInFlight, List.append_assoc, List.singleton_append]

theorem Turns.nextSeqno (h : Turns win s segs t) : t.nextSeqno = s.nextSeqno + seqLength segs := by
  induction h with
  | done _ => rfl
  | turn ht _ ih => rw [ih, ht.sent.nextSeqno, seqLength_cons, Nat.add_assoc]

/-- The bytes that leave the buffer are the payloads, in the order they are sent. -/
theorem Turns.payloads (h : Turns win s segs t) :
    s.stream.buffer = segs.flatMap (·.payload) ++ t.stream.buffer := by
  induction h with
  | done _ => rfl
  | @turn s seg t segs u ht _ ih =>
    have hrest : t.stream.buffer =
        s.stream.buffer.drop (min (s.remain win) TCPConfig.MAX_PAYLOAD_SIZE) := by
      rw [ht.stream, ByteStream.popOutput_buffer]
    rw [List.flatMap_cons, List.append_assoc, ← ih, ht.payload, hrest, List.take_append_drop]

/-- Who finds FIN sent behind the loop has sent it before, or finds it in a segment of the loop. -/
theorem Turns.fin_sent (h : Turns win s segs t) (hfin : t.fin = true) :
    s.fin = true ∨ ∃ seg ∈ segs, seg.header.fin = true := by
  induction h with
  | done _ => exact .inl hfin
  | turn ht _ ih =>
    right
    rcases ih hfin with hlast | ⟨seg, hm, hseg⟩
    · exact ⟨_, List.mem_cons_self, ht.fin ▸ hlast⟩
    · exact ⟨seg, List.mem_cons_of_mem _ hm, hseg⟩

theorem Turn.roomAfter (h : Turn win s seg t) (before : List TCPSegment) :
    t.roomAfter win before = s.roomAfter win (seg :: before) := by
  rw [TCPSender.roomAfter, TCPSender.roomAfter, h.sent.nextSeqno, h.sent.receiveAck, seqLength_cons,
    Nat.add_assoc]

/-- A segment takes all the room, all that a segment may carry, or all that is buffered. -/
theorem Turns.carries (h : Turns win s segs u) :
    ∀ before seg after, segs = before ++ seg :: after → seg.payload.length =
      min (min (s.roomAfter win before) TCPConfig.MAX_PAYLOAD_SIZE)
        (s.stream.bufferSize - payloadLength before) := by
  induction h with
  | done _ =>
    intro before seg after heq
    simp at heq
  | @turn s seg t segs u ht _ ih =>
    intro before seg' after heq
    cases before with
    | nil =>
      obtain ⟨rfl, -⟩ := List.cons.inj heq
      exact ht.payload_length
    | cons seg' before =>
      obtain ⟨rfl, rfl⟩ := List.cons.inj heq
      have hbuffered : t.stream.bufferSize = s.stream.bufferSize - seg.payload.length :=
        ht.buffer_length
      rw [ih before _ after rfl, ht.roomAfter, hbuffered, payloadLength_cons, Nat.sub_sub]

/-- A turn that does not send FIN stays in the window. -/
theorem Turn.unacked (h : Turn win s seg t) (hwin : win < 2 ^ 64) (hle : s.unacked ≤ win)
    (hfin : seg.header.fin = false) :
    t.unacked = s.unacked + seg.lengthInSequenceSpace ∧ t.unacked ≤ win := by
  have hlen : seg.lengthInSequenceSpace ≤ s.remain win := by
    rw [h.length_eq, h.payload_length, hfin, if_neg Bool.false_ne_true]
    omega
  have hroom : s.remain win = win - s.unacked := sub64_of_le hle (by omega)
  have heq : t.unacked = s.unacked + seg.lengthInSequenceSpace := by
    rw [TCPSender.unacked, h.sent.nextSeqno, h.sent.receiveAck]
    apply sub64_add
    change s.unacked + _ < _
    omega
  exact ⟨heq, by omega⟩

/-- What is not yet acked and the room behind it make up the window, before every segment. -/
theorem Turns.room (h : Turns win s segs u) (hwin : win < 2 ^ 64) (hle : s.unacked ≤ win) :
    ∀ before seg after, segs = before ++ seg :: after →
      s.unacked + seqLength before + s.roomAfter win before = win := by
  induction h with
  | done _ =>
    intro before seg after heq
    simp at heq
  | @turn s seg t segs u ht hrun ih =>
    intro before seg' after heq
    cases before with
    | nil =>
      have hroom : s.roomAfter win [] = win - s.unacked := sub64_of_le hle (by omega)
      rw [seqLength_nil, hroom]
      omega
    | cons seg' before =>
      obtain ⟨rfl, rfl⟩ := List.cons.inj heq
      have hfin : seg.header.fin = false := by
        rw [← ht.fin]
        exact hrun.unfinished (by simp)
      obtain ⟨heq, hle'⟩ := ht.unacked hwin hle hfin
      have hnext := ih hle' before _ after rfl
      rw [ht.roomAfter, heq] at hnext
      rw [seqLength_cons, ← Nat.add_assoc]
      exact hnext

end

/-- **`fillWindow` stops, with the window filled.** The loop needs no more turns than there are
bytes buffered, and two. It sends `segs`, which take the next sequence numbers and the next bytes
of the stream; each carries as much as a segment may, the room that is left and the stream allow.
If it starts inside the window, that room is what the window leaves of it, and the loop ends with
FIN sent, before or in one of `segs`, with nothing more to send, or with the window full. -/
theorem fillWindow_fills (s : TCPSender) (hs : s.syn = true) :
    (∀ fuel, s.stream.bufferSize + 2 ≤ fuel →
      fillLoop s.window fuel { s with windowIsZero := s.windowSize == 0 } = s.fillWindow) ∧
    ∃ segs, s.fillWindow.segmentsOut = s.segmentsOut ++ segs ∧
      s.fillWindow.segmentsInFlight = s.segmentsInFlight ++ segs ∧
      s.fillWindow.nextSeqno = s.nextSeqno + seqLength segs ∧
      s.stream.buffer = segs.flatMap (·.payload) ++ s.fillWindow.stream.buffer ∧
      (∀ before seg after, segs = before ++ seg :: after → seg.payload.length =
        min (min (s.roomAfter s.window before) TCPConfig.MAX_PAYLOAD_SIZE)
          (s.stream.bufferSize - payloadLength before)) ∧
      (s.unacked ≤ max s.windowSize.toNat 1 →
        (∀ before seg after, segs = before ++ seg :: after →
          s.unacked + seqLength before + s.roomAfter s.window before =
            max s.windowSize.toNat 1) ∧
        (s.fillWindow.fin = true ∧ (s.fin = true ∨ ∃ seg ∈ segs, seg.header.fin = true) ∨
          (s.fillWindow.stream.bufferEmpty = true ∧ s.fillWindow.stream.inputEnded = false) ∨
          s.fillWindow.unacked = max s.windowSize.toNat 1)) := by
  have hwin := s.window_pos
  have hlt := s.window_lt
  have hfill := fillWindow_eq hs
  have hturns := s.turnsLeft_lt (s.windowSize == 0)
  obtain ⟨segs, hrun⟩ := fillLoop_turns hwin _ hturns
  rw [← hfill] at hrun
  rw [← window_eq]
  refine ⟨fun fuel hfuel => ?_, segs, hrun.segmentsOut, hrun.segmentsInFlight, hrun.nextSeqno,
    hrun.payloads, hrun.carries, fun hle => ⟨hrun.room hlt hle, ?_⟩⟩
  · rw [fillLoop_stable hwin _ hturns hfuel, hfill]
  · rcases hrun.done_end with hroom | hfin | ⟨hempty, hopen⟩
    · have hle : s.fillWindow.unacked < 2 ^ 64 := sub64_lt _ _
      exact .inr (.inr ((sub64_eq_zero_iff hlt hle).mp hroom).symm)
    · exact .inl ⟨hfin, hrun.fin_sent hfin⟩
    · exact .inr (.inl ⟨(ByteStream.bufferEmpty_iff _).mpr hempty, hopen⟩)

/-- Three bytes of the window are outstanding, and more is buffered than the rest takes. -/
def sevenWindow : TCPSender where
  syn := true
  nextSeqno := 4
  receiveAck := 1
  bytesInFlight := 3
  segmentsInFlight := [{ header := { seqno := ⟨1⟩ }, payload := [0, 1, 2] }]
  windowSize := 7
  isn := ⟨0⟩
  initialRetransmissionTimeout := 1000
  stream := { capacity := 10, written := 9, readden := 3, buffer := [3, 4, 5, 6, 7, 8] }

/-- One segment goes out, with the four bytes that the window has left. -/
theorem fillWindow_fills_seven : sevenWindow.unacked ≤ 7 ∧ ∃ segs,
    sevenWindow.fillWindow.segmentsOut = segs ∧
    segs.map (·.payload) = [[3, 4, 5, 6]] ∧
    sevenWindow.fillWindow.nextSeqno = 4 + seqLength segs ∧
    [3, 4, 5, 6, 7, 8] = segs.flatMap (·.payload) ++ sevenWindow.fillWindow.stream.buffer ∧
    (sevenWindow.fillWindow.fin = true ∧ (∃ seg ∈ segs, seg.header.fin = true) ∨
      (sevenWindow.fillWindow.stream.bufferEmpty = true ∧
        sevenWindow.fillWindow.stream.inputEnded = false) ∨
      sevenWindow.fillWindow.unacked = 7) := by
  obtain ⟨-, segs, hout, -, hnext, hbuffer, -, hfull⟩ := fillWindow_fills sevenWindow rfl
  refine ⟨by decide, segs, hout, ?_, hnext, hbuffer, ?_⟩
  · have hsegs : segs = sevenWindow.fillWindow.segmentsOut := hout.symm
    rw [hsegs]
    decide
  · rcases (hfull (by decide)).2 with ⟨hfin, hsent⟩ | hrest
    · exact .inl ⟨hfin, hsent.resolve_left (by decide)⟩
    · exact .inr hrest

end TCPSender

end Sponge
