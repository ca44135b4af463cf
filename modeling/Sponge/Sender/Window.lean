import Sponge.Sender.Account

/-!
# The window

Two statements about `fillWindow`, each with the exact condition on the state
it is entered in.

- With acks in order, all that is sent lies below `receiveAck + window` unless
  FIN is put on a segment that already takes all that is left (`FinOverflows`):
  the loop compares the payload with the window and not with what is left of it.
- With the window full, nothing is sent unless more than the window is
  outstanding: then `win - (next - ack)` wraps around and is no bound at all.

And one about the window of an ack that is outdated: it is recorded, as the
source says, and nothing else is (`outdated_ack`).
-/

namespace Sponge

open Lib

namespace TCPSender

/-- No sequence number at or beyond the right edge of the window has been sent. -/
def WithinWindow (s : TCPSender) : Prop := s.nextSeqno ≤ s.receiveAck + s.window

instance (s : TCPSender) : Decidable s.WithinWindow := inferInstanceAs (Decidable (_ ≤ _))

/-- What is left of a window `win`. -/
def left (s : TCPSender) (win : Nat) : Nat := s.receiveAck + win - s.nextSeqno

/-- The stream ends with a payload that takes exactly what is left of the window, in a
segment that is shorter than the window. -/
def FinOverflows (s : TCPSender) (win : Nat) : Prop :=
  s.fin = false ∧ s.stream.inputEnd = true ∧ 0 < s.left win ∧
    s.stream.buffer.length = s.left win ∧
    (s.receiveAck < s.nextSeqno ∨ TCPConfig.MAX_PAYLOAD_SIZE < s.left win)

instance (s : TCPSender) (win : Nat) : Decidable (s.FinOverflows win) :=
  inferInstanceAs (Decidable (_ ∧ _))

section
variable {s t e : TCPSender} {win : Nat} {seg : TCPSegment}

theorem remain_eq_left (hle : s.receiveAck ≤ s.nextSeqno) (hw : s.nextSeqno ≤ s.receiveAck + win)
    (hwin : win < 2 ^ 64) : s.remain win = s.left win := by
  rw [remain, left, sub64_of_le hle (by omega), sub64_of_le (by omega) (by omega)]
  omega

theorem fillLoop_fin (h : s.fin = true) : ∀ fuel, fillLoop win fuel s = s
  | 0 => rfl
  | fuel + 1 => by rw [fillLoop, if_neg (by simp [h])]

theorem fillLoop_within_iff (hwin : 0 < win) (hwin' : win < 2 ^ 64) :
    ∀ (fuel : Nat) {s : TCPSender}, s.turnsLeft < fuel → s.receiveAck ≤ s.nextSeqno →
      s.nextSeqno ≤ s.receiveAck + win →
      ((fillLoop win fuel s).nextSeqno ≤ (fillLoop win fuel s).receiveAck + win ↔
        ¬ s.FinOverflows win)
  | 0, _, h, _, _ => absurd h (Nat.not_lt_zero _)
  | fuel + 1, s, h, hle, hw => by
    have hrem := remain_eq_left hle hw hwin'
    rcases fillLoop_turn hwin fuel s with ⟨hd, heq⟩ | ⟨seg, t, ht, heq⟩
    · rw [heq]
      apply iff_of_true hw
      rintro ⟨hf, he, hl, hb, -⟩
      rcases hd with hd | hd | ⟨hd, -⟩
      · omega
      · rw [hf] at hd
        cases hd
      · rw [hd, List.length_nil] at hb
        omega
    · rw [heq]
      have hturns := ht.turnsLeft_lt
      have hnext := ht.sent.nextSeqno
      have hack := ht.sent.receiveAck
      have hfin := ht.fin_iff
      have hfin' := ht.fin
      have hopen := ht.unfinished
      have hne := ht.sent.nonempty
      have hroom := ht.remain
      have hmax : TCPConfig.MAX_PAYLOAD_SIZE = 1000 := rfl
      have hlen : seg.lengthInSequenceSpace =
          min (min (s.left win) TCPConfig.MAX_PAYLOAD_SIZE) s.stream.buffer.length +
            (if seg.header.fin then 1 else 0) := by
        rw [ht.length_eq, ht.payload_length, hrem]
      have hs : s.left win = s.receiveAck + win - s.nextSeqno := rfl
      rw [hrem] at hfin hroom
      cases hf : seg.header.fin with
      | true =>
        -- FIN is sent with all that is buffered, and the loop stops
        obtain ⟨h1, h2, h3⟩ := hfin.mp hf
        rw [hf, if_pos rfl] at hlen
        rw [fillLoop_fin (ht.fin.trans hf), hack, hnext, FinOverflows]
        simp only [ht.unfinished, h2, true_and]
        omega
      | false =>
        rw [hf, if_neg Bool.false_ne_true] at hlen
        rw [fillLoop_within_iff hwin hwin' fuel (by omega) (by omega) (by omega)]
        have hbuf : t.stream.buffer.length =
            s.stream.buffer.length - min (s.left win) TCPConfig.MAX_PAYLOAD_SIZE := by
          rw [ht.buffer_length, ht.payload_length, hrem]
          omega
        have hend : t.stream.inputEnd = s.stream.inputEnd := by rw [ht.stream]; rfl
        have hno : ¬ (s.stream.buffer.length ≤ min (s.left win) TCPConfig.MAX_PAYLOAD_SIZE ∧
            s.stream.inputEnd = true ∧ s.stream.buffer.length < win) := by
          rw [← hfin, hf]
          exact Bool.false_ne_true
        have ht : t.left win = t.receiveAck + win - t.nextSeqno := rfl
        rw [FinOverflows, FinOverflows, hfin', hf, hopen, hend, hbuf]
        cases hie : s.stream.inputEnd with
        | false => simp
        | true =>
          rw [hie] at hno
          simp only [true_and] at hno ⊢
          refine not_congr ⟨?_, ?_⟩
          · rintro ⟨hl, hb, hor⟩
            exact ⟨by omega, by omega, by omega⟩
          · rintro ⟨hl, hb, hor⟩
            exact ⟨by omega, by omega, by omega⟩

theorem window_lt (s : TCPSender) : s.window < 2 ^ 64 := by
  have := s.windowSize.toNat_lt
  rw [window_eq]
  omega

theorem fillWindow_windowSize (s : TCPSender) : s.fillWindow.windowSize = s.windowSize :=
  fillWindow_inv (P := fun t => t.windowSize = s.windowSize)
    (fun hs => (fillWindow_syn hs).1.windowSize) (fun _ => rfl)
    fun _ _ _ _ ht hp => ht.sent.windowSize.trans hp

/-- After SYN, `fillWindow` keeps to the window exactly when FIN does not overflow it. -/
theorem fillWindow_within_iff (hs : s.syn = true) (hle : s.receiveAck ≤ s.nextSeqno)
    (hw : s.WithinWindow) : s.fillWindow.WithinWindow ↔ ¬ s.FinOverflows s.window := by
  have hwindow : s.fillWindow.window = s.window := by
    rw [window_eq, window_eq, fillWindow_windowSize]
  rw [WithinWindow, hwindow, fillWindow_eq hs]
  exact fillLoop_within_iff s.window_pos s.window_lt _ (s.turnsLeft_lt _) hle hw

/-! ## The underflow -/

/-- Nothing is sent. -/
def Unsent (s t : TCPSender) : Prop :=
  t.segmentsOut = s.segmentsOut ∧ t.segmentsInFlight = s.segmentsInFlight ∧
    t.stream = s.stream ∧ t.nextSeqno = s.nextSeqno

instance (s t : TCPSender) : Decidable (Unsent s t) := inferInstanceAs (Decidable (_ ∧ _))

theorem fillLoop_out_prefix (hwin : 0 < win) (fuel : Nat) (s : TCPSender) :
    s.segmentsOut <+: (fillLoop win fuel s).segmentsOut :=
  fillLoop_inv (P := fun t => s.segmentsOut <+: t.segmentsOut) hwin
    (fun _ _ _ ht hp => by
      rw [ht.sent.segmentsOut]
      exact hp.trans (List.prefix_append ..)) fuel (List.prefix_refl _)

theorem Turn.not_done (ht : Turn win s seg t) : ¬ Done win s := by
  rintro (hd | hd | ⟨hd, he⟩)
  · exact ht.remain hd
  · rw [ht.unfinished] at hd
    cases hd
  · -- an empty stream that has not ended gives an empty segment
    have hpos := ht.sent.nonempty
    have hf : seg.header.fin = false := by
      rw [← Bool.not_eq_true, ht.fin_iff, he]
      simp
    rw [ht.length_eq, ht.payload_length, hf, hd] at hpos
    simp at hpos

/-- The loop sends nothing exactly when it is at an exit, and then it changes nothing. -/
theorem fillLoop_idle_or_sends (hwin : 0 < win) (fuel : Nat) (s : TCPSender) :
    (Done win s ∧ fillLoop win (fuel + 1) s = s) ∨
      (¬ Done win s ∧ ∃ seg new,
        (fillLoop win (fuel + 1) s).segmentsOut = s.segmentsOut ++ seg :: new) := by
  rcases fillLoop_turn hwin fuel s with ⟨hd, heq⟩ | ⟨seg, t, ht, heq⟩
  · exact .inl ⟨hd, heq⟩
  · obtain ⟨new, hnew⟩ := fillLoop_out_prefix hwin fuel t
    refine .inr ⟨ht.not_done, seg, new, ?_⟩
    rw [heq, ← hnew, ht.sent.segmentsOut]
    simp

theorem fillWindow_idle_or_sends (hs : s.syn = true) :
    (Done s.window s ∧ s.fillWindow = { s with windowIsZero := s.windowSize == 0 }) ∨
      (¬ Done s.window s ∧ ∃ seg new,
        s.fillWindow.segmentsOut = s.segmentsOut ++ seg :: new) := by
  rw [fillWindow_eq hs]
  exact fillLoop_idle_or_sends s.window_pos (s.stream.bufferSize + 1)
    { s with windowIsZero := s.windowSize == 0 }

/-- After SYN, `fillWindow` sends nothing exactly when the loop is at an exit. -/
theorem fillWindow_unsent_iff (hs : s.syn = true) :
    Unsent s s.fillWindow ↔ Done s.window s := by
  rcases fillWindow_idle_or_sends hs with ⟨hd, heq⟩ | ⟨hd, seg, new, heq⟩
  · refine iff_of_true ?_ hd
    rw [heq]
    exact ⟨rfl, rfl, rfl, rfl⟩
  · refine iff_of_false ?_ hd
    rintro ⟨hout, -⟩
    rw [heq] at hout
    simp at hout

theorem remain_eq_zero_iff (s : TCPSender) :
    s.remain s.window = 0 ↔ sub64 s.nextSeqno s.receiveAck = s.window := by
  rw [remain, sub64_eq_zero_iff s.window_lt (sub64_lt _ _)]
  exact eq_comm

end

/-! ## Runs -/

/-- The state in which an operation enters `fillWindow`, if it does. -/
def fillEntry (s : TCPSender) : Op → Option TCPSender
  | .fillWindow => some s
  | .ack ackno windowSize => s.ackEntry ackno windowSize
  | _ => none

/-- Acks arrive in order: neither the ackno nor the right edge of the window goes back. -/
def AcksInOrder (s : TCPSender) : Op → Prop
  | .ack ackno windowSize => s.receiveAck ≤ unwrap ackno s.isn s.checkpoint ∧
      s.receiveAck + s.windowSize.toNat ≤ unwrap ackno s.isn s.checkpoint + windowSize.toNat
  | _ => True

instance (s : TCPSender) : ∀ op, Decidable (s.AcksInOrder op)
  | .ack _ _ => inferInstanceAs (Decidable (_ ∧ _))
  | .fillWindow | .write _ | .endInput | .tick _ | .sendEmpty => isTrue trivial

/-- `fillWindow` is not entered after SYN with the end of the stream filling what is left. -/
def FinFits (s : TCPSender) (op : Op) : Prop :=
  ∀ e ∈ s.fillEntry op, e.syn = true → ¬ e.FinOverflows e.window

instance (s : TCPSender) (op : Op) : Decidable (s.FinFits op) :=
  inferInstanceAs (Decidable (∀ e ∈ s.fillEntry op, _))

/-- Before SYN nothing has been sent. -/
structure Started (s : TCPSender) : Prop extends Queued s where
  nextSeqno : s.syn = false → s.nextSeqno = 0

theorem started_new (capacity : Nat) (retxTimeout : UInt16) (fixedIsn : Option WrappingInt32)
    (random : UInt32) : Started (new capacity retxTimeout fixedIsn random) :=
  ⟨queued_new capacity retxTimeout fixedIsn random, fun _ => rfl⟩

theorem fillWindow_sets_syn (s : TCPSender) : s.fillWindow.syn = true := by
  cases hs : s.syn with
  | false => exact (fillWindow_syn hs).2.1
  | true =>
    exact fillWindow_inv (P := fun t => t.syn = true)
      (fun h => by rw [hs] at h; cases h) (fun _ => hs) fun _ _ _ h ht _ => ht.syn.trans h

theorem Started.same {s t : TCPSender} (h : s.Started) (ht : Same s t) : t.Started :=
  ⟨h.toQueued.same ht, by rw [ht.syn, ht.nextSeqno]; exact h.nextSeqno⟩

theorem started_step {s : TCPSender} (h : s.Started) (op : Op) : (s.step op).Started := by
  have hq := h.toQueued
  cases op with
  | fillWindow =>
    exact ⟨hq.fillWindow, fun hs => by rw [step, fillWindow_sets_syn] at hs; cases hs⟩
  | write data => exact ⟨hq.write data, h.nextSeqno⟩
  | endInput => exact ⟨hq.endInput, h.nextSeqno⟩
  | sendEmpty => exact h.same (same_sendEmpty s)
  | tick ms => exact h.same (tick_ticked s ms).same
  | ack ackno w =>
    refine ⟨hq.ackReceived ackno w, ?_⟩
    rw [step]
    rcases ackReceived_cases s ackno w with ⟨-, -, heq⟩ | ⟨-, -, -, heq⟩ |
      ⟨-, -, e, popped, -, ha, heq⟩
    · rw [heq]
      exact h.nextSeqno
    · rw [heq]
      exact h.nextSeqno
    · rw [heq, (same_restartTimer _).syn, fillWindow_sets_syn]
      rintro ⟨⟩

theorem within_fillWindow_iff {s : TCPSender} (h : s.Started) (hw : s.WithinWindow) :
    s.fillWindow.WithinWindow ↔ (s.syn = true → ¬ s.FinOverflows s.window) := by
  cases hs : s.syn with
  | true => simpa using fillWindow_within_iff hs h.ack_le hw
  | false =>
    -- SYN takes the one sequence number a window always has
    refine iff_of_true ?_ (by simp)
    have hsent := (fillWindow_syn hs).1
    have hpos := s.fillWindow.window_pos
    have hlen : s.synSegment.lengthInSequenceSpace = 1 := rfl
    rw [WithinWindow, hsent.nextSeqno, h.nextSeqno hs, hlen]
    omega

/-- An ack in order keeps what was sent within the window. -/
theorem within_of_ack_order {s e : TCPSender} {absAckno : Nat} {w : UInt16}
    {popped : List TCPSegment} (ha : Acked { s with windowSize := w } absAckno e popped)
    (hw : s.WithinWindow) (h1 : s.receiveAck ≤ absAckno)
    (h2 : s.receiveAck + s.windowSize.toNat ≤ absAckno + w.toNat) : e.WithinWindow := by
  rw [WithinWindow, window_eq] at hw ⊢
  rw [ha.eq]
  simp only
  omega

theorem within_step_iff {s : TCPSender} {op : Op} (h : s.Started) (hw : s.WithinWindow)
    (hg : s.AcksInOrder op) : (s.step op).WithinWindow ↔ s.FinFits op := by
  have hnone : s.fillEntry op = none → s.FinFits op := by
    intro hn e he
    rw [hn] at he
    cases he
  cases op with
  | fillWindow =>
    rw [step, within_fillWindow_iff h hw]
    simp [FinFits, fillEntry]
  | write data => exact iff_of_true hw (hnone rfl)
  | endInput => exact iff_of_true hw (hnone rfl)
  | sendEmpty => exact iff_of_true hw (hnone rfl)
  | tick ms =>
    refine iff_of_true ?_ (hnone rfl)
    rw [step, (tick_ticked s ms).eq]
    exact hw
  | ack ackno w =>
    obtain ⟨h1, h2⟩ := hg
    rw [step]
    rcases ackReceived_cases s ackno w with ⟨-, he, heq⟩ | ⟨-, hold, he, heq⟩ |
      ⟨hle, -, e, popped, he, ha, heq⟩
    · rw [heq]
      exact iff_of_true hw (hnone he)
    · refine iff_of_true ?_ (hnone he)
      rw [heq, WithinWindow, window_eq]
      rw [WithinWindow, window_eq] at hw
      simp only
      omega
    · have hq := h.toQueued.same (same_setWindow s w)
      have hes : e.Started := by
        refine ⟨hq.acked ha hle, ?_⟩
        rw [ha.eq]
        exact h.nextSeqno
      obtain ⟨counting, clock, hr⟩ := restartTimer_eq e.fillWindow
      have hfits : s.FinFits (.ack ackno w) ↔ (e.syn = true → ¬ e.FinOverflows e.window) := by
        simp [FinFits, fillEntry, he]
      rw [heq, hr, hfits]
      exact within_fillWindow_iff hes (within_of_ack_order ha hw h1 h2)

/-- **Flow control.** With acks in order, every state of a run keeps to the window exactly when
`fillWindow` is never entered with the end of the stream filling what is left of it. -/
theorem always_withinWindow_iff (capacity : Nat) (retxTimeout : UInt16)
    (fixedIsn : Option WrappingInt32) (random : UInt32) (ops : List Op)
    (h : Along step AcksInOrder (new capacity retxTimeout fixedIsn random) ops) :
    Always step WithinWindow (new capacity retxTimeout fixedIsn random) ops ↔
      Along step FinFits (new capacity retxTimeout fixedIsn random) ops :=
  always_iff_along (I := Started) h (started_new capacity retxTimeout fixedIsn random)
    (Nat.zero_le _) (fun _ op hi _ => started_step hi op)
    fun _ _ hi hp hg => within_step_iff hi hp hg

/-- Two writes of five bytes, the second one the last; the window is `w`. -/
def lastWriteOps (w : UInt16) : List Op :=
  [.fillWindow, .ack ⟨8⟩ w, .write [1, 2, 3, 4, 5], .fillWindow,
   .write [6, 7, 8, 9, 10], .endInput, .fillWindow]

theorem withinWindow_eleven :
    Along step AcksInOrder (new 16 1000 (some ⟨7⟩) 0) (lastWriteOps 11) ∧
      Always step WithinWindow (new 16 1000 (some ⟨7⟩) 0) (lastWriteOps 11) :=
  ⟨by decide, (always_withinWindow_iff 16 1000 (some ⟨7⟩) 0 (lastWriteOps 11) (by decide)).mpr
    (by decide)⟩

/-- In a window of ten, FIN is the eleventh sequence number. -/
theorem fin_beyond_window :
    Along step AcksInOrder (new 16 1000 (some ⟨7⟩) 0) (lastWriteOps 10) ∧
      (run step (new 16 1000 (some ⟨7⟩) 0) (lastWriteOps 10)).receiveAck = 1 ∧
      (run step (new 16 1000 (some ⟨7⟩) 0) (lastWriteOps 10)).window = 10 ∧
      (run step (new 16 1000 (some ⟨7⟩) 0) (lastWriteOps 10)).nextSeqno = 12 ∧
      ¬ Always step WithinWindow (new 16 1000 (some ⟨7⟩) 0) (lastWriteOps 10) :=
  ⟨by decide, by decide, by decide, by decide, by decide⟩

/-- When `fillWindow` is entered after SYN with a full window, it sends nothing. -/
def QuietWhenFull (s : TCPSender) (op : Op) : Prop :=
  ∀ e ∈ s.fillEntry op, e.syn = true → e.window ≤ sub64 e.nextSeqno e.receiveAck →
    Unsent e e.fillWindow

instance (s : TCPSender) (op : Op) : Decidable (s.QuietWhenFull op) :=
  inferInstanceAs (Decidable (∀ e ∈ s.fillEntry op, _))

/-- When `fillWindow` is entered after SYN with a full window, exactly the window is outstanding,
or there is nothing to send. -/
def NotOverfull (s : TCPSender) (op : Op) : Prop :=
  ∀ e ∈ s.fillEntry op, e.syn = true → e.window ≤ sub64 e.nextSeqno e.receiveAck →
    sub64 e.nextSeqno e.receiveAck = e.window ∨ e.fin = true ∨
      (e.stream.buffer = [] ∧ e.stream.inputEnd = false)

instance (s : TCPSender) (op : Op) : Decidable (s.NotOverfull op) :=
  inferInstanceAs (Decidable (∀ e ∈ s.fillEntry op, _))

/-- **The window subtraction.** In every run, `fillWindow` sends nothing into a full window
exactly when it is never entered with more than the window outstanding and something to send. -/
theorem along_quietWhenFull_iff (capacity : Nat) (retxTimeout : UInt16)
    (fixedIsn : Option WrappingInt32) (random : UInt32) (ops : List Op) :
    Along step QuietWhenFull (new capacity retxTimeout fixedIsn random) ops ↔
      Along step NotOverfull (new capacity retxTimeout fixedIsn random) ops := by
  refine along_congr fun s op => ?_
  refine forall₄_congr fun e _ hs _ => ?_
  rw [fillWindow_unsent_iff hs, Done, remain_eq_zero_iff]

/-- Three bytes are outstanding when the window shrinks to one, and one more is written. -/
def shrunkWindowOps : List Op :=
  [.fillWindow, .ack ⟨8⟩ 3, .write [97, 98, 99], .fillWindow, .ack ⟨8⟩ 1, .write [100], .fillWindow]

/-- The byte is sent although the window is overfull. -/
theorem sends_into_overfull_window :
    (run step (new 16 1000 (some ⟨7⟩) 0) shrunkWindowOps).receiveAck = 1 ∧
      (run step (new 16 1000 (some ⟨7⟩) 0) shrunkWindowOps).window = 1 ∧
      (run step (new 16 1000 (some ⟨7⟩) 0) shrunkWindowOps).nextSeqno = 5 ∧
      ¬ Along step QuietWhenFull (new 16 1000 (some ⟨7⟩) 0) shrunkWindowOps :=
  ⟨by decide, by decide, by decide, by decide⟩

/-! ## An outdated ack -/

/-- The operations that neither read nor set the window size. -/
def Op.Windowless : Op → Prop
  | .fillWindow | .ack _ _ => False
  | .write _ | .endInput | .tick _ | .sendEmpty => True

instance : DecidablePred Op.Windowless
  | .fillWindow | .ack _ _ => isFalse id
  | .write _ | .endInput | .tick _ | .sendEmpty => isTrue trivial

theorem tick_setWindow (s : TCPSender) (w : UInt16) (ms : Nat) :
    { s with windowSize := w }.tick ms = { s.tick ms with windowSize := w } := by
  unfold tick
  cases hq : s.segmentsInFlight with
  | nil => rfl
  | cons seg rest =>
    simp only
    split <;> rfl

theorem step_setWindow (s : TCPSender) (w : UInt16) {op : Op} (h : op.Windowless) :
    { s with windowSize := w }.step op = { s.step op with windowSize := w } := by
  cases op with
  | fillWindow | ack => exact h.elim
  | write | endInput | sendEmpty => rfl
  | tick ms => exact tick_setWindow s w ms

/-- Until the window is read, a run does not depend on it. -/
theorem run_setWindow (w : UInt16) :
    ∀ (ops : List Op) (s : TCPSender), (∀ op ∈ ops, op.Windowless) →
      run step { s with windowSize := w } ops = { run step s ops with windowSize := w }
  | [], _, _ => rfl
  | op :: ops, s, h => by
    rw [run_cons, run_cons, step_setWindow s w (h op List.mem_cons_self)]
    exact run_setWindow w ops (s.step op) fun o ho => h o (List.mem_cons_of_mem _ ho)

/-- An ack of what was sent sets the window, whatever it was before. -/
theorem ackReceived_setWindow (s : TCPSender) (w : UInt16) {ackno : WrappingInt32}
    (windowSize : UInt16) (h : unwrap ackno s.isn s.checkpoint ≤ s.nextSeqno) :
    { s with windowSize := w }.ackReceived ackno windowSize = s.ackReceived ackno windowSize := by
  unfold ackReceived
  simp only
  rw [if_neg (Nat.not_lt.mpr h), if_neg (Nat.not_lt.mpr h)]

theorem Started.outdated {s : TCPSender} (hs : s.Started) {ackno : WrappingInt32} (win : UInt16)
    (h : unwrap ackno s.isn s.checkpoint < s.receiveAck) :
    s.step (.ack ackno win) = { s with windowSize := win } := by
  have hle := hs.ack_le
  rw [step]
  rcases ackReceived_cases s ackno win with ⟨hgt, -⟩ | ⟨-, -, -, heq⟩ | ⟨-, hgt, -⟩
  · omega
  · exact heq
  · omega

/-- **Outdated acks.** An ack below the highest one received sets the window size and nothing
else. With the window already on record it leaves no trace; with another one the state stays the
same up to the window while the window is not read, and the same altogether from the next ack of
what was sent on. -/
theorem outdated_ack (capacity : Nat) (retxTimeout : UInt16) (fixedIsn : Option WrappingInt32)
    (random : UInt32) (ops : List Op) (ackno : WrappingInt32) (win : UInt16) (s : TCPSender)
    (hs : s = run step (new capacity retxTimeout fixedIsn random) ops)
    (h : unwrap ackno s.isn s.checkpoint < s.receiveAck) :
    s.step (.ack ackno win) = { s with windowSize := win } ∧
      (win = s.windowSize → ∀ later, run step s (.ack ackno win :: later) = run step s later) ∧
      ∀ between, (∀ op ∈ between, op.Windowless) →
        run step s (.ack ackno win :: between) =
            { run step s between with windowSize := win } ∧
          ∀ a w later, unwrap a (run step s between).isn (run step s between).checkpoint ≤
              (run step s between).nextSeqno →
            run step s (.ack ackno win :: between ++ .ack a w :: later) =
              run step s (between ++ .ack a w :: later) := by
  have hi : s.Started := by
    rw [hs]
    exact run_inv (started_new capacity retxTimeout fixedIsn random)
      (fun _ op hi => started_step hi op) ops
  have hstep : s.step (.ack ackno win) = { s with windowSize := win } := hi.outdated win h
  refine ⟨hstep, ?_, ?_⟩
  · rintro rfl later
    rw [run_cons, hstep]
  · intro between hb
    have hrun : run step s (.ack ackno win :: between) =
        { run step s between with windowSize := win } := by
      rw [run_cons, hstep, run_setWindow win between s hb]
    refine ⟨hrun, fun a w later ha => ?_⟩
    rw [run_append, hrun, run_append, run_cons, run_cons]
    congr 1
    exact ackReceived_setWindow (run step s between) win w ha

/-- Three bytes are sent and acked in a window of ten. -/
def ackedOps : List Op :=
  [.fillWindow, .ack ⟨8⟩ 10, .write [97, 98, 99], .fillWindow, .ack ⟨11⟩ 10]

/-- A window of one in an outdated ack is gone with the next ack. -/
theorem outdated_ack_forgotten :
    let s := run step (new 16 1000 (some ⟨7⟩) 0) ackedOps
    run step s [.ack ⟨8⟩ 10, .write [100, 101], .fillWindow] =
        run step s [.write [100, 101], .fillWindow] ∧
      run step s [.ack ⟨8⟩ 1, .write [100, 101], .ack ⟨11⟩ 10, .fillWindow] =
        run step s [.write [100, 101], .ack ⟨11⟩ 10, .fillWindow] :=
  ⟨(outdated_ack 16 1000 (some ⟨7⟩) 0 ackedOps ⟨8⟩ 10 _ rfl (by decide)).2.1 (by decide) _,
    ((outdated_ack 16 1000 (some ⟨7⟩) 0 ackedOps ⟨8⟩ 1 _ rfl (by decide)).2.2
      [.write [100, 101]] (by decide)).2 ⟨11⟩ 10 [.fillWindow] (by decide)⟩

/-- The ack of SYN comes again, with a window of one: of two bytes written later one is sent. -/
theorem outdated_ack_shrinks_window :
    let s := run step (new 16 1000 (some ⟨7⟩) 0) ackedOps
    unwrap ⟨8⟩ s.isn s.checkpoint < s.receiveAck ∧ s.step (.ack ⟨8⟩ 1) ≠ s ∧
      (run step s [.ack ⟨8⟩ 1, .write [100, 101], .fillWindow]).segmentsOut.map (·.payload) =
        [[], [97, 98, 99], [100]] ∧
      (run step s [.write [100, 101], .fillWindow]).segmentsOut.map (·.payload) =
        [[], [97, 98, 99], [100, 101]] :=
  ⟨by decide, by decide, by decide, by decide⟩

end TCPSender

end Sponge
