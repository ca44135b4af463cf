import Sponge.Sender.Model

/-!
# What the sender's operations do

`Sent s seg t` is the effect of sending the new segment `seg`; SYN and each turn
of the loop (`Turn`) have it. The rules `fillLoop_inv` and `fillWindow_inv`
reduce a statement about `fillWindow` to one turn, and `fillLoop_done` says at
which of its exits the loop has stopped. `popAcked_spec` is the pop loop, and
`ackReceived_cases` the ways an ack can go.
-/

namespace Sponge

namespace TCPSender

/-! ## Sending -/

/-- The new segment `seg` is queued and sent. -/
structure Sent (s : TCPSender) (seg : TCPSegment) (t : TCPSender) : Prop where
  seqno : seg.header.seqno = wrap s.nextSeqno s.isn
  nonempty : 0 < seg.lengthInSequenceSpace
  nextSeqno : t.nextSeqno = s.nextSeqno + seg.lengthInSequenceSpace
  bytesInFlight : t.bytesInFlight = s.bytesInFlight + seg.lengthInSequenceSpace
  segmentsInFlight : t.segmentsInFlight = s.segmentsInFlight ++ [seg]
  segmentsOut : t.segmentsOut = s.segmentsOut ++ [seg]
  isn : t.isn = s.isn
  receiveAck : t.receiveAck = s.receiveAck
  checkpoint : t.checkpoint = s.checkpoint
  windowSize : t.windowSize = s.windowSize

/-- The segment with SYN. -/
def synSegment (s : TCPSender) : TCPSegment :=
  { header := { seqno := wrap s.nextSeqno s.isn, syn := true } }

/-- One turn of the loop that sends a segment. -/
structure Turn (win : Nat) (s : TCPSender) (seg : TCPSegment) (t : TCPSender) : Prop where
  sent : Sent s seg t
  remain : s.remain win ≠ 0
  unfinished : s.fin = false
  payload : seg.payload = s.stream.buffer.take (min (s.remain win) TCPConfig.MAX_PAYLOAD_SIZE)
  header : seg.header = { seqno := wrap s.nextSeqno s.isn, fin := seg.header.fin }
  fin_iff : seg.header.fin = true ↔
    s.stream.buffer.length ≤ min (s.remain win) TCPConfig.MAX_PAYLOAD_SIZE ∧
      s.stream.inputEnd = true ∧ s.stream.buffer.length < win
  stream : t.stream = s.stream.popOutput (min (s.remain win) TCPConfig.MAX_PAYLOAD_SIZE)
  fin : t.fin = seg.header.fin
  syn : t.syn = s.syn

/-- Where the loop stops. -/
def Done (win : Nat) (s : TCPSender) : Prop :=
  s.remain win = 0 ∨ s.fin = true ∨ (s.stream.buffer = [] ∧ s.stream.inputEnd = false)

section
variable {s : TCPSender} {win : Nat}

theorem popOutput_nil {st : ByteStream} (h : st.buffer = []) (n : Nat) : st.popOutput n = st := by
  cases st
  simp only at h
  subst h
  simp [ByteStream.popOutput, ByteStream.bufferSize]

theorem nextSegment_eq {len : Nat} (hlen : len = min (s.remain win) TCPConfig.MAX_PAYLOAD_SIZE) :
    s.nextSegment win =
      ({ header := { fin := decide (s.stream.buffer.length ≤ len ∧ s.stream.inputEnd = true ∧
          s.stream.buffer.length < win) }, payload := s.stream.buffer.take len },
        s.stream.popOutput len) := by
  have hfin : ((s.stream.popOutput len).eof &&
      decide (TCPSegment.lengthInSequenceSpace { payload := s.stream.buffer.take len } < win)) =
      decide (s.stream.buffer.length ≤ len ∧ s.stream.inputEnd = true ∧
        s.stream.buffer.length < win) := by
    rw [Bool.eq_iff_iff, Bool.and_eq_true, ByteStream.eof_iff, ByteStream.popOutput_buffer,
      ByteStream.popOutput_inputEnd, List.drop_eq_nil_iff, decide_eq_true_eq, decide_eq_true_eq]
    have hl : TCPSegment.lengthInSequenceSpace { payload := s.stream.buffer.take len } =
        min len s.stream.buffer.length := by
      simp [TCPSegment.lengthInSequenceSpace]
    rw [hl]
    constructor
    · rintro ⟨⟨h1, h2⟩, h3⟩
      exact ⟨h1, h2, by omega⟩
    · rintro ⟨h1, h2, h3⟩
      exact ⟨⟨h1, h2⟩, by omega⟩
  unfold nextSegment
  simp only [← hlen, ByteStream.read_eq, hfin]
  cases decide (s.stream.buffer.length ≤ len ∧ s.stream.inputEnd = true ∧
    s.stream.buffer.length < win) <;> rfl

/-- One turn of the loop: it exits, or sends a segment and goes on, whatever turns are left. -/
theorem fillLoop_step (hwin : 0 < win) (s : TCPSender) :
    (Done win s ∧ ∀ fuel, fillLoop win (fuel + 1) s = s) ∨
      ∃ seg t, Turn win s seg t ∧ ∀ fuel, fillLoop win (fuel + 1) s = fillLoop win fuel t := by
  by_cases hg : s.remain win ≠ 0 ∧ s.fin = false
  · obtain ⟨hrem, hopen⟩ := hg
    obtain ⟨len, hlen⟩ : ∃ len, len = min (s.remain win) TCPConfig.MAX_PAYLOAD_SIZE := ⟨_, rfl⟩
    have hseg := nextSegment_eq hlen
    obtain ⟨fin, hfin⟩ : ∃ fin, fin = decide (s.stream.buffer.length ≤ len ∧
      s.stream.inputEnd = true ∧ s.stream.buffer.length < win) := ⟨_, rfl⟩
    rw [← hfin] at hseg
    have hpos : 0 < len := by
      simp only [TCPConfig.MAX_PAYLOAD_SIZE] at hlen
      omega
    by_cases hz : TCPSegment.lengthInSequenceSpace
        { header := { fin := fin }, payload := s.stream.buffer.take len } = 0
    · -- nothing to read and no FIN to send: the loop returns
      left
      have hnone : s.stream.buffer = [] ∧ fin = false := by
        simp only [TCPSegment.lengthInSequenceSpace, List.length_take, Bool.false_eq_true,
          if_false] at hz
        cases fin with
        | true => simp at hz
        | false =>
          refine ⟨List.length_eq_zero_iff.mp ?_, rfl⟩
          simp only [Bool.false_eq_true, if_false] at hz
          omega
      refine ⟨.inr (.inr ⟨hnone.1, ?_⟩), fun fuel => ?_⟩
      · by_contra hend
        rw [hnone.2, hnone.1] at hfin
        simp [hwin, hend] at hfin
      · rw [fillLoop, if_pos ⟨hrem, hopen⟩, hseg]
        simp only
        rw [if_pos hz]
        simp only [hnone.2, Bool.or_false, popOutput_nil hnone.1]
    · right
      refine ⟨⟨{ seqno := wrap s.nextSeqno s.isn, fin := fin }, s.stream.buffer.take len⟩, _, ?_,
        fun fuel => by
          rw [fillLoop, if_pos ⟨hrem, hopen⟩, hseg]
          exact if_neg hz⟩
      exact {
        sent := ⟨rfl, Nat.pos_of_ne_zero hz, rfl, rfl, rfl, rfl, rfl, rfl, rfl, rfl⟩
        remain := hrem
        unfinished := hopen
        payload := by rw [hlen]
        header := rfl
        fin_iff := by rw [← hlen, hfin, decide_eq_true_iff]
        stream := by rw [← hlen]; rfl
        fin := by simp [sendSegment, hopen]
        syn := rfl }
  · left
    refine ⟨?_, fun fuel => if_neg hg⟩
    unfold Done
    by_cases hr : s.remain win = 0
    · exact .inl hr
    · exact .inr (.inl (by simpa [hr] using hg))

theorem fillLoop_turn (hwin : 0 < win) (fuel : Nat) (s : TCPSender) :
    (Done win s ∧ fillLoop win (fuel + 1) s = s) ∨
      ∃ seg t, Turn win s seg t ∧ fillLoop win (fuel + 1) s = fillLoop win fuel t := by
  rcases fillLoop_step hwin s with ⟨hd, heq⟩ | ⟨seg, t, ht, heq⟩
  · exact .inl ⟨hd, heq fuel⟩
  · exact .inr ⟨seg, t, ht, heq fuel⟩

/-- **Rule.** What a turn preserves, the loop preserves. -/
theorem fillLoop_inv {P : TCPSender → Prop} (hwin : 0 < win)
    (hturn : ∀ s seg t, Turn win s seg t → P s → P t) :
    ∀ (fuel : Nat) {s : TCPSender}, P s → P (fillLoop win fuel s)
  | 0, _, h => h
  | fuel + 1, s, h => by
    rcases fillLoop_turn hwin fuel s with ⟨-, heq⟩ | ⟨seg, t, ht, heq⟩
    · rw [heq]
      exact h
    · rw [heq]
      exact fillLoop_inv hwin hturn fuel (hturn s seg t ht h)

theorem Turn.payload_length {seg : TCPSegment} {t : TCPSender} (h : Turn win s seg t) :
    seg.payload.length =
      min (min (s.remain win) TCPConfig.MAX_PAYLOAD_SIZE) s.stream.buffer.length := by
  rw [h.payload, List.length_take]

theorem Turn.length_eq {seg : TCPSegment} {t : TCPSender} (h : Turn win s seg t) :
    seg.lengthInSequenceSpace = seg.payload.length + (if seg.header.fin then 1 else 0) := by
  rw [TCPSegment.lengthInSequenceSpace, h.header]
  simp

theorem Turn.buffer_length {seg : TCPSegment} {t : TCPSender} (h : Turn win s seg t) :
    t.stream.buffer.length = s.stream.buffer.length - seg.payload.length := by
  rw [h.payload_length, h.stream, ByteStream.popOutput_buffer, List.length_drop]
  omega

/-- The turns left: one for each byte and one for FIN. -/
def turnsLeft (s : TCPSender) : Nat := if s.fin then 0 else s.stream.buffer.length + 1

theorem Turn.turnsLeft_lt {seg : TCPSegment} {t : TCPSender} (h : Turn win s seg t) :
    t.turnsLeft < s.turnsLeft := by
  have hne := h.sent.nonempty
  have hlen := h.payload_length
  have hbuf := h.buffer_length
  rw [h.length_eq] at hne
  unfold turnsLeft
  rw [h.unfinished, h.fin]
  cases hf : seg.header.fin with
  | true => simp
  | false =>
    rw [hf, if_neg Bool.false_ne_true] at hne
    rw [if_neg Bool.false_ne_true, if_neg Bool.false_ne_true]
    omega

/-- With enough turns the loop runs into one of its exits. -/
theorem fillLoop_done (hwin : 0 < win) :
    ∀ (fuel : Nat) {s : TCPSender}, s.turnsLeft < fuel → Done win (fillLoop win fuel s)
  | 0, _, h => absurd h (Nat.not_lt_zero _)
  | fuel + 1, s, h => by
    rcases fillLoop_turn hwin fuel s with ⟨hd, heq⟩ | ⟨seg, t, ht, heq⟩
    · rw [heq]
      exact hd
    · rw [heq]
      have := ht.turnsLeft_lt
      exact fillLoop_done hwin fuel (by omega)

theorem window_pos (s : TCPSender) : 0 < s.window := by
  unfold window
  split
  · rename_i h
    simpa [UInt16.lt_iff_toNat_lt] using h
  · exact Nat.one_pos

theorem window_eq (s : TCPSender) : s.window = max s.windowSize.toNat 1 := by
  unfold window
  split
  · rename_i h
    rw [gt_iff_lt, UInt16.lt_iff_toNat_lt] at h
    have : (0 : UInt16).toNat = 0 := rfl
    omega
  · rename_i h
    rw [gt_iff_lt, UInt16.lt_iff_toNat_lt] at h
    have : (0 : UInt16).toNat = 0 := rfl
    omega

/-- `fillWindow` before SYN sends SYN and nothing else. -/
theorem fillWindow_syn (h : s.syn = false) : Sent s s.synSegment s.fillWindow ∧
    s.fillWindow.syn = true ∧ s.fillWindow.fin = s.fin ∧ s.fillWindow.stream = s.stream := by
  unfold fillWindow
  rw [if_pos h]
  exact ⟨⟨rfl, by simp [synSegment, TCPSegment.lengthInSequenceSpace], rfl, rfl, rfl, rfl, rfl, rfl,
    rfl, rfl⟩, rfl, rfl, rfl⟩

/-- After SYN, `fillWindow` notes a zero window and runs the loop. -/
theorem fillWindow_eq (hs : s.syn = true) : s.fillWindow =
    fillLoop s.window (s.stream.bufferSize + 2) { s with windowIsZero := s.windowSize == 0 } :=
  if_neg (by simp [hs])

/-- The turns that `fillWindow` gives the loop are enough. -/
theorem turnsLeft_lt (s : TCPSender) (zero : Bool) :
    turnsLeft { s with windowIsZero := zero } < s.stream.bufferSize + 2 := by
  simp only [turnsLeft, ByteStream.bufferSize]
  split <;> omega

/-- **Rule.** What SYN, a turn and the note of a zero window preserve, `fillWindow` preserves. -/
theorem fillWindow_inv {P : TCPSender → Prop}
    (hsyn : s.syn = false → P s.fillWindow)
    (hzero : ∀ b, P { s with windowIsZero := b })
    (hturn : ∀ s' seg t, s'.syn = true → Turn s.window s' seg t → P s' → P t) :
    P s.fillWindow := by
  cases hs : s.syn with
  | false => exact hsyn hs
  | true =>
    rw [fillWindow_eq hs]
    exact (fillLoop_inv (P := fun t => t.syn = true ∧ P t) s.window_pos
      (fun s' seg t ht hp => ⟨ht.syn.trans hp.1, hturn s' seg t hp.1 ht hp.2⟩) _
      (s := { s with windowIsZero := s.windowSize == 0 }) ⟨hs, hzero _⟩).2

/-- After SYN, `fillWindow` stops at an exit of the loop. -/
theorem fillWindow_done (h : s.syn = true) : Done s.window s.fillWindow := by
  rw [fillWindow_eq h]
  exact fillLoop_done s.window_pos _ (s.turnsLeft_lt _)

end

/-! ## Acks -/

/-- `e` is `s` with the ackno recorded and the segments `acked` popped. -/
structure Acked (s : TCPSender) (absAckno : Nat) (e : TCPSender) (acked : List TCPSegment) :
    Prop where
  queue : s.segmentsInFlight = acked ++ e.segmentsInFlight
  stops_le : ∀ seg ∈ acked,
    unwrap seg.header.seqno s.isn s.nextSeqno + seg.lengthInSequenceSpace ≤ absAckno
  lt_stop : ∀ seg rest, e.segmentsInFlight = seg :: rest →
    absAckno < unwrap seg.header.seqno s.isn s.nextSeqno + seg.lengthInSequenceSpace
  eq : e = { s with
    receiveAck := absAckno
    checkpoint := absAckno
    segmentsInFlight := e.segmentsInFlight
    bytesInFlight := s.bytesInFlight - seqLength acked }

theorem popAcked_spec (absAckno : Nat) :
    ∀ (queue : List TCPSegment) (s : TCPSender), ∃ acked rest, queue = acked ++ rest ∧
      popAcked absAckno s queue =
        { s with segmentsInFlight := rest, bytesInFlight := s.bytesInFlight - seqLength acked } ∧
      (∀ seg ∈ acked,
        unwrap seg.header.seqno s.isn s.nextSeqno + seg.lengthInSequenceSpace ≤ absAckno) ∧
      ∀ seg rest', rest = seg :: rest' →
        absAckno < unwrap seg.header.seqno s.isn s.nextSeqno + seg.lengthInSequenceSpace
  | [], s => ⟨[], [], rfl, rfl, by simp, by simp⟩
  | seg :: queue, s => by
    unfold popAcked
    split
    · rename_i hle
      obtain ⟨acked, rest, rfl, heq, hall, hlt⟩ := popAcked_spec absAckno queue
        { s with bytesInFlight := s.bytesInFlight - seg.lengthInSequenceSpace }
      refine ⟨seg :: acked, rest, rfl, ?_, ?_, hlt⟩
      · rw [heq, seqLength_cons, Nat.sub_add_eq]
      · intro seg' hm
        rcases List.mem_cons.mp hm with rfl | hm
        · exact hle
        · exact hall seg' hm
    · rename_i hgt
      refine ⟨[], seg :: queue, rfl, rfl, by simp, ?_⟩
      rintro _ _ ⟨⟩
      omega

theorem advanceAck_acked (s : TCPSender) (absAckno : Nat) :
    ∃ acked, Acked s absAckno (s.advanceAck absAckno) acked := by
  obtain ⟨acked, rest, hq, heq, hall, hlt⟩ := popAcked_spec absAckno
    s.segmentsInFlight { s with receiveAck := absAckno, checkpoint := absAckno }
  refine ⟨acked, ?_⟩
  rw [advanceAck, heq]
  exact ⟨hq, hall, hlt, rfl⟩

theorem restartTimer_eq (s : TCPSender) : ∃ counting clock, s.restartTimer =
    { s with
      retransTimeout := s.initialRetransmissionTimeout
      consecutiveRetrans := 0
      clockIsCounting := counting
      clock := clock } := by
  by_cases h : s.segmentsInFlight.length ≠ 0
  · exact ⟨_, _, if_pos h⟩
  · exact ⟨_, _, if_neg h⟩

/-- The state in which an ack enters `fillWindow`, if it does. -/
def ackEntry (s : TCPSender) (ackno : WrappingInt32) (windowSize : UInt16) : Option TCPSender :=
  let absAckno := unwrap ackno s.isn s.checkpoint
  if absAckno > s.nextSeqno ∨ absAckno ≤ s.receiveAck then none
  else some ({ s with windowSize := windowSize }.advanceAck absAckno)

/-- An ack of what was not sent is ignored, an old one sets the window size, a new one pops
segments and fills the window. -/
theorem ackReceived_cases (s : TCPSender) (ackno : WrappingInt32) (windowSize : UInt16) :
    (s.nextSeqno < unwrap ackno s.isn s.checkpoint ∧ s.ackEntry ackno windowSize = none ∧
        s.ackReceived ackno windowSize = s) ∨
      (unwrap ackno s.isn s.checkpoint ≤ s.nextSeqno ∧
        unwrap ackno s.isn s.checkpoint ≤ s.receiveAck ∧ s.ackEntry ackno windowSize = none ∧
        s.ackReceived ackno windowSize = { s with windowSize := windowSize }) ∨
      (unwrap ackno s.isn s.checkpoint ≤ s.nextSeqno ∧
        s.receiveAck < unwrap ackno s.isn s.checkpoint ∧ ∃ e acked,
        s.ackEntry ackno windowSize = some e ∧
        Acked { s with windowSize := windowSize } (unwrap ackno s.isn s.checkpoint) e acked ∧
        s.ackReceived ackno windowSize = e.fillWindow.restartTimer) := by
  unfold ackReceived ackEntry
  by_cases hgt : unwrap ackno s.isn s.checkpoint > s.nextSeqno
  · exact .inl ⟨hgt, if_pos (.inl hgt), if_pos hgt⟩
  · by_cases hle : unwrap ackno s.isn s.checkpoint ≤ s.receiveAck
    · exact .inr (.inl ⟨by omega, hle, if_pos (.inr hle), by rw [if_neg hgt, if_pos hle]⟩)
    · obtain ⟨acked, ha⟩ := advanceAck_acked { s with windowSize := windowSize }
        (unwrap ackno s.isn s.checkpoint)
      refine .inr (.inr ⟨by omega, by omega, _, acked, if_neg (by tauto), ha, ?_⟩)
      rw [if_neg hgt, if_neg hle]

/-! ## Operations that leave the queue alone -/

/-- The two senders differ in what they have pushed, the timer, the window and the error flag
at most. -/
structure Same (s t : TCPSender) : Prop where
  syn : t.syn = s.syn
  fin : t.fin = s.fin
  bytesInFlight : t.bytesInFlight = s.bytesInFlight
  checkpoint : t.checkpoint = s.checkpoint
  segmentsInFlight : t.segmentsInFlight = s.segmentsInFlight
  receiveAck : t.receiveAck = s.receiveAck
  isn : t.isn = s.isn
  nextSeqno : t.nextSeqno = s.nextSeqno
  inputEnd : t.stream.inputEnd = s.stream.inputEnd
  buffer : t.stream.buffer = s.stream.buffer

section
variable (s : TCPSender)

theorem same_setOut (out : List TCPSegment) : Same s { s with segmentsOut := out } :=
  ⟨rfl, rfl, rfl, rfl, rfl, rfl, rfl, rfl, rfl, rfl⟩

theorem same_setWindow (w : UInt16) : Same s { s with windowSize := w } :=
  ⟨rfl, rfl, rfl, rfl, rfl, rfl, rfl, rfl, rfl, rfl⟩

theorem same_setZero (b : Bool) : Same s { s with windowIsZero := b } :=
  ⟨rfl, rfl, rfl, rfl, rfl, rfl, rfl, rfl, rfl, rfl⟩

theorem same_setError : Same s { s with stream := s.stream.setError } :=
  ⟨rfl, rfl, rfl, rfl, rfl, rfl, rfl, rfl, rfl, rfl⟩

theorem same_sendEmpty : Same s s.sendEmptySegment := same_setOut s _

theorem same_restartTimer : Same s s.restartTimer := by
  obtain ⟨counting, clock, heq⟩ := restartTimer_eq s
  rw [heq]
  exact ⟨rfl, rfl, rfl, rfl, rfl, rfl, rfl, rfl, rfl, rfl⟩

end

/-- **Rule.** What the pop loop, `fillWindow` and a change that leaves the queue alone preserve,
an ack preserves. -/
theorem ackReceived_inv {P : TCPSender → Prop} {s : TCPSender} (ackno : WrappingInt32) (w : UInt16)
    (hsame : ∀ s t, Same s t → P s → P t)
    (hacked : ∀ s absAckno e popped, Acked s absAckno e popped → P s → P e)
    (hfill : ∀ s, P s → P s.fillWindow) (h : P s) : P (s.ackReceived ackno w) := by
  have hw := hsame _ _ (same_setWindow s w) h
  rcases ackReceived_cases s ackno w with ⟨-, -, heq⟩ | ⟨-, -, -, heq⟩ |
    ⟨-, -, e, popped, -, ha, heq⟩
  · rw [heq]
    exact h
  · rw [heq]
    exact hw
  · rw [heq]
    exact hsame _ _ (same_restartTimer _) (hfill _ (hacked _ _ _ _ ha hw))

/-! ## Ticks -/

/-- A tick changes the timer, and may push the oldest outstanding segment again. -/
structure Ticked (s t : TCPSender) : Prop where
  eq : t = { s with
    segmentsOut := t.segmentsOut
    consecutiveRetrans := t.consecutiveRetrans
    clockIsCounting := t.clockIsCounting
    clock := t.clock
    retransTimeout := t.retransTimeout }
  out : t.segmentsOut = s.segmentsOut ∨ ∃ seg rest, s.segmentsInFlight = seg :: rest ∧
    t.segmentsOut = s.segmentsOut ++ [seg]

theorem tick_ticked (s : TCPSender) (ms : Nat) : Ticked s (s.tick ms) := by
  unfold tick
  cases hq : s.segmentsInFlight with
  | nil => exact ⟨by simp [hq], .inl rfl⟩
  | cons seg rest =>
    simp only
    split
    · exact ⟨by simp [retransmit, hq], .inr ⟨seg, rest, hq, rfl⟩⟩
    · exact ⟨by simp [hq], .inl rfl⟩

theorem Ticked.same {s t : TCPSender} (h : Ticked s t) : Same s t := by
  rw [h.eq]
  exact ⟨rfl, rfl, rfl, rfl, rfl, rfl, rfl, rfl, rfl, rfl⟩

/-! ## Runs -/

/-- The operations on a sender. -/
inductive Op where
  | fillWindow
  | write (data : List UInt8)
  | endInput
  | ack (ackno : WrappingInt32) (windowSize : UInt16)
  | tick (ms : Nat)
  | sendEmpty
  deriving DecidableEq, Repr

def step (s : TCPSender) : Op → TCPSender
  | .fillWindow => s.fillWindow
  | .write data => s.write data
  | .endInput => s.endInput
  | .ack ackno windowSize => s.ackReceived ackno windowSize
  | .tick ms => s.tick ms
  | .sendEmpty => s.sendEmptySegment

end TCPSender

end Sponge
