import Sponge.Sender.Window

/-!
# The retransmission timer

The timer is a clock that every tick advances, a flag, and a timeout. Sending a
segment sets the clock to zero only when the flag is off, and the flag is turned
off only by a tick that finds nothing outstanding. So a segment that is sent
after everything has been acknowledged and before the next tick inherits the
clock of the segments before it.

`Keeps` is what sending does to the timer, `tick_waits` and `tick_fires` the two
ways a tick can go. A `Timed` sender comes with the two clocks of an observer:
the milliseconds ticked since the timer was last (re)started, and since a segment
was last sent while nothing was outstanding. `always_onTime_iff` says exactly
which runs never retransmit early.
-/

namespace Sponge

open Lib

namespace TCPSender

/-! ## What the operations do to the timer -/

/-- Sending leaves the timeout alone, and resets a clock that is not counting. -/
structure Keeps (s t : TCPSender) : Prop where
  retransTimeout : t.retransTimeout = s.retransTimeout
  initialRetransmissionTimeout : t.initialRetransmissionTimeout = s.initialRetransmissionTimeout
  consecutiveRetrans : t.consecutiveRetrans = s.consecutiveRetrans
  clock :
    (t.segmentsInFlight = s.segmentsInFlight ∧ t.clockIsCounting = s.clockIsCounting ∧
      t.clock = s.clock) ∨
    ((∃ seg new, t.segmentsInFlight = s.segmentsInFlight ++ seg :: new) ∧
      t.clockIsCounting = true ∧ t.clock = if s.clockIsCounting = false then 0 else s.clock)

section
variable {s t u : TCPSender} {win : Nat}

theorem Keeps.refl (s : TCPSender) : Keeps s s := ⟨rfl, rfl, rfl, .inl ⟨rfl, rfl, rfl⟩⟩

theorem Keeps.trans (h : Keeps s t) (h' : Keeps t u) : Keeps s u where
  retransTimeout := h'.retransTimeout.trans h.retransTimeout
  initialRetransmissionTimeout :=
    h'.initialRetransmissionTimeout.trans h.initialRetransmissionTimeout
  consecutiveRetrans := h'.consecutiveRetrans.trans h.consecutiveRetrans
  clock := by
    rcases h.clock with ⟨h1, h2, h3⟩ | ⟨⟨seg, new, h1⟩, h2, h3⟩
    · rw [← h1, ← h2, ← h3]
      exact h'.clock
    · -- the flag is on behind the first segment
      right
      rcases h'.clock with ⟨h4, h5, h6⟩ | ⟨⟨seg', new', h4⟩, h5, h6⟩
      · exact ⟨⟨seg, new, h4.trans h1⟩, h5.trans h2, h6.trans h3⟩
      · rw [h2, if_neg (by simp)] at h6
        exact ⟨⟨seg, new ++ seg' :: new', by rw [h4, h1]; simp⟩, h5, h6.trans h3⟩

theorem sendSegment_keeps (s : TCPSender) (seg : TCPSegment) : Keeps s (s.sendSegment seg) :=
  ⟨rfl, rfl, rfl, .inr ⟨⟨_, [], rfl⟩, rfl, rfl⟩⟩

theorem keeps_setStream (s : TCPSender) (st : ByteStream) (fin : Bool) :
    Keeps s { s with stream := st, fin := fin } :=
  ⟨rfl, rfl, rfl, .inl ⟨rfl, rfl, rfl⟩⟩

theorem fillLoop_keeps (win : Nat) :
    ∀ (fuel : Nat) (s : TCPSender), Keeps s (fillLoop win fuel s) ∧
      (fillLoop win fuel s).windowIsZero = s.windowIsZero
  | 0, s => ⟨.refl s, rfl⟩
  | fuel + 1, s => by
    rw [fillLoop]
    split
    · simp only
      split
      · exact ⟨keeps_setStream .., rfl⟩
      · obtain ⟨hk, hz⟩ := fillLoop_keeps win fuel
          (TCPSender.sendSegment { s with
            stream := (s.nextSegment win).2
            fin := s.fin || (s.nextSegment win).1.header.fin } (s.nextSegment win).1)
        exact ⟨((keeps_setStream ..).trans (sendSegment_keeps ..)).trans hk, hz⟩
    · exact ⟨.refl s, rfl⟩

theorem fillWindow_keeps (s : TCPSender) : Keeps s s.fillWindow := by
  unfold fillWindow
  split
  · exact (sendSegment_keeps s { header := { syn := true } }).trans
      ⟨rfl, rfl, rfl, .inl ⟨rfl, rfl, rfl⟩⟩
  · have hz : Keeps s { s with windowIsZero := s.windowSize == 0 } :=
      ⟨rfl, rfl, rfl, .inl ⟨rfl, rfl, rfl⟩⟩
    exact hz.trans (fillLoop_keeps _ _ _).1

/-- After SYN, `fillWindow` notes whether the window is zero. -/
theorem fillWindow_windowIsZero (s : TCPSender) :
    s.fillWindow.windowIsZero = if s.syn = false then s.windowIsZero else s.windowSize == 0 := by
  unfold fillWindow
  split
  · rfl
  · exact (fillLoop_keeps _ _ _).2

/-- The tick sends a segment again. -/
def Retransmits (s : TCPSender) (ms : Nat) : Prop := (s.tick ms).segmentsOut ≠ s.segmentsOut

instance (s : TCPSender) (ms : Nat) : Decidable (s.Retransmits ms) :=
  inferInstanceAs (Decidable (¬ _ = _))

/-- The clock of the sender after `ms`, in 64 bits. -/
def clockAfter (s : TCPSender) (ms : Nat) : Nat := (s.clock + ms) % 2 ^ 64

/-- Before the timeout, or with nothing outstanding, a tick advances the clock only. -/
theorem tick_waits (ms : Nat)
    (h : s.segmentsInFlight = [] ∨ s.clockAfter ms < s.retransTimeout.toNat) :
    s.tick ms = { s with
      clock := s.clockAfter ms
      clockIsCounting := !s.segmentsInFlight.isEmpty && s.clockIsCounting } ∧
      ¬ s.Retransmits ms := by
  unfold Retransmits tick
  cases hq : s.segmentsInFlight with
  | nil => exact ⟨rfl, by simp⟩
  | cons seg rest =>
    have hlt : s.clockAfter ms < s.retransTimeout.toNat := by
      rcases h with h | h
      · rw [hq] at h
        cases h
      · exact h
    unfold clockAfter at hlt ⊢
    simp only
    rw [if_neg (by omega)]
    exact ⟨by simp, by simp⟩

/-- At the timeout the oldest outstanding segment is sent again. -/
theorem tick_fires {ms : Nat} {seg : TCPSegment} {rest : List TCPSegment}
    (hq : s.segmentsInFlight = seg :: rest) (h : s.retransTimeout.toNat ≤ s.clockAfter ms) :
    s.tick ms = s.retransmit seg ∧ s.Retransmits ms := by
  have heq : s.tick ms = s.retransmit seg := by
    unfold clockAfter at h
    unfold tick
    simp only [hq]
    rw [if_pos h, retransmit, retransmit, hq]
  refine ⟨heq, ?_⟩
  rw [Retransmits, heq]
  simp [retransmit]

theorem retransmits_iff (s : TCPSender) (ms : Nat) : s.Retransmits ms ↔
    s.segmentsInFlight ≠ [] ∧ s.retransTimeout.toNat ≤ s.clockAfter ms := by
  constructor
  · intro h
    by_contra hn
    refine (tick_waits ms ?_).2 h
    by_cases hq : s.segmentsInFlight = []
    · exact .inl hq
    · exact .inr (Nat.lt_of_not_le fun hle => hn ⟨hq, hle⟩)
  · rintro ⟨hq, hle⟩
    obtain ⟨seg, rest, hq⟩ := List.exists_cons_of_ne_nil hq
    exact (tick_fires hq hle).2

/-- A tick sends the oldest outstanding segment again, or advances the clock only. -/
theorem tick_cases (s : TCPSender) (ms : Nat) :
    (s.Retransmits ms ∧ ∃ seg rest, s.segmentsInFlight = seg :: rest ∧
      s.tick ms = s.retransmit seg) ∨
    (¬ s.Retransmits ms ∧ s.tick ms = { s with
      clock := s.clockAfter ms
      clockIsCounting := !s.segmentsInFlight.isEmpty && s.clockIsCounting }) := by
  by_cases hq : s.segmentsInFlight = []
  · obtain ⟨heq, hn⟩ := tick_waits ms (.inl hq)
    exact .inr ⟨hn, heq⟩
  · rcases Nat.lt_or_ge (s.clockAfter ms) s.retransTimeout.toNat with hlt | hle
    · obtain ⟨heq, hn⟩ := tick_waits ms (.inr hlt)
      exact .inr ⟨hn, heq⟩
    · obtain ⟨seg, rest, hq⟩ := List.exists_cons_of_ne_nil hq
      obtain ⟨heq, hr⟩ := tick_fires hq hle
      exact .inl ⟨hr, seg, rest, hq, heq⟩

/-- The queue and the timer are the same. -/
structure SameTimer (s t : TCPSender) : Prop where
  segmentsInFlight : t.segmentsInFlight = s.segmentsInFlight
  retransTimeout : t.retransTimeout = s.retransTimeout
  initialRetransmissionTimeout : t.initialRetransmissionTimeout = s.initialRetransmissionTimeout
  consecutiveRetrans : t.consecutiveRetrans = s.consecutiveRetrans
  clock : t.clock = s.clock
  clockIsCounting : t.clockIsCounting = s.clockIsCounting

theorem SameTimer.retransmits_iff (h : SameTimer s t) (ms : Nat) :
    t.Retransmits ms ↔ s.Retransmits ms := by
  rw [TCPSender.retransmits_iff, TCPSender.retransmits_iff, clockAfter, clockAfter,
    h.segmentsInFlight, h.retransTimeout, h.clock]

/-- A new ack resets the timeout; the clock only when something is left outstanding. -/
structure Rewound (s t : TCPSender) : Prop where
  retransTimeout : t.retransTimeout = s.initialRetransmissionTimeout
  initialRetransmissionTimeout : t.initialRetransmissionTimeout = s.initialRetransmissionTimeout
  consecutiveRetrans : t.consecutiveRetrans = 0
  left : t.segmentsInFlight ≠ [] → t.clock = 0 ∧ t.clockIsCounting = true
  empty : t.segmentsInFlight = [] → t.clock = s.clock ∧ t.clockIsCounting = s.clockIsCounting

theorem restartTimer_rewound (s : TCPSender) : Rewound s s.restartTimer := by
  by_cases hq : s.segmentsInFlight = []
  · have heq : s.restartTimer = { s with
        retransTimeout := s.initialRetransmissionTimeout, consecutiveRetrans := 0 } :=
      if_neg (by simp [hq])
    rw [heq]
    exact ⟨rfl, rfl, rfl, fun h => absurd hq h, fun _ => ⟨rfl, rfl⟩⟩
  · have heq : s.restartTimer = { s with
        retransTimeout := s.initialRetransmissionTimeout, consecutiveRetrans := 0,
        clockIsCounting := true, clock := 0 } :=
      if_pos (by simpa using hq)
    rw [heq]
    exact ⟨rfl, rfl, rfl, fun _ => ⟨rfl, rfl⟩, fun h => absurd h hq⟩

theorem ackReceived_timer (s : TCPSender) (ackno : WrappingInt32) (w : UInt16) :
    (s.ackEntry ackno w = none ∧ SameTimer s (s.ackReceived ackno w)) ∨
      (s.ackEntry ackno w ≠ none ∧ Rewound s (s.ackReceived ackno w) ∧
        (s.ackReceived ackno w).syn = true) := by
  rcases ackReceived_cases s ackno w with ⟨-, he, heq⟩ | ⟨-, -, he, heq⟩ |
    ⟨-, -, e, popped, he, ha, heq⟩
  · exact .inl ⟨he, by rw [heq]; exact ⟨rfl, rfl, rfl, rfl, rfl, rfl⟩⟩
  · exact .inl ⟨he, by rw [heq]; exact ⟨rfl, rfl, rfl, rfl, rfl, rfl⟩⟩
  · refine .inr ⟨by rw [he]; rintro ⟨⟩, ?_⟩
    have hk := fillWindow_keeps e
    have hr := restartTimer_rewound e.fillWindow
    have hinit : e.initialRetransmissionTimeout = s.initialRetransmissionTimeout := by rw [ha.eq]
    have hclock : e.clock = s.clock := by rw [ha.eq]
    have hcount : e.clockIsCounting = s.clockIsCounting := by rw [ha.eq]
    rw [heq]
    refine ⟨⟨?_, ?_, hr.consecutiveRetrans, hr.left, fun hq => ?_⟩,
      (same_restartTimer _).syn.trans (fillWindow_sets_syn e)⟩
    · rw [hr.retransTimeout, hk.initialRetransmissionTimeout, hinit]
    · rw [hr.initialRetransmissionTimeout, hk.initialRetransmissionTimeout, hinit]
    · obtain ⟨h1, h2⟩ := hr.empty hq
      rw [(same_restartTimer _).segmentsInFlight] at hq
      rcases hk.clock with ⟨-, h3, h4⟩ | ⟨⟨seg, new, h3⟩, -, -⟩
      · exact ⟨h1.trans (h4.trans hclock), h2.trans (h3.trans hcount)⟩
      · rw [h3] at hq
        simp at hq

/-- After SYN, `fillWindow` queues nothing exactly when the loop is at an exit. -/
theorem fillWindow_queue_iff (hs : s.syn = true) :
    s.fillWindow.segmentsInFlight = s.segmentsInFlight ↔ Done s.window s := by
  have hfill := fillWindow_eq hs
  rcases fillLoop_turn s.window_pos (s.stream.bufferSize + 1)
    { s with windowIsZero := s.windowSize == 0 } with ⟨hd, heq⟩ | ⟨seg, t, ht, heq⟩
  · rw [hfill, heq]
    exact iff_of_true rfl hd
  · refine iff_of_false (fun he => ?_) ht.not_done
    rw [hfill, heq] at he
    have hlen := congrArg List.length he
    have hq := congrArg List.length ht.sent.segmentsInFlight
    rw [List.length_append, List.length_singleton] at hq
    simp only at hq
    rcases (fillLoop_keeps s.window (s.stream.bufferSize + 1) t).1.clock with
      ⟨h1, -, -⟩ | ⟨⟨seg', new, h1⟩, -, -⟩
    · rw [h1] at hlen
      omega
    · rw [h1, List.length_append] at hlen
      omega

end

/-! ## The invariant of the timer -/

/-- With nothing outstanding the timeout is the initial one, otherwise the clock counts. -/
structure TimerInv (s : TCPSender) : Prop where
  idle : s.segmentsInFlight = [] → s.retransTimeout = s.initialRetransmissionTimeout
  counting : s.segmentsInFlight ≠ [] → s.clockIsCounting = true
  unstarted : s.syn = false → s.clockIsCounting = false
  clock_lt : s.clock < 2 ^ 64

section
variable {s t : TCPSender}

theorem timerInv_new (capacity : Nat) (retxTimeout : UInt16) (fixedIsn : Option WrappingInt32)
    (random : UInt32) : TimerInv (new capacity retxTimeout fixedIsn random) :=
  ⟨fun _ => rfl, fun h => absurd rfl h, fun _ => rfl, Nat.two_pow_pos 64⟩

theorem TimerInv.syn_of_counting (h : s.TimerInv) (hc : s.clockIsCounting = true) :
    s.syn = true := by
  by_contra hn
  rw [h.unstarted (by simpa using hn)] at hc
  cases hc

theorem TimerInv.same (h : s.TimerInv) (ht : SameTimer s t) (hs : t.syn = s.syn) :
    t.TimerInv where
  idle hq := by
    rw [ht.segmentsInFlight] at hq
    rw [ht.retransTimeout, ht.initialRetransmissionTimeout, h.idle hq]
  counting hq := by
    rw [ht.segmentsInFlight] at hq
    rw [ht.clockIsCounting, h.counting hq]
  unstarted hf := by
    rw [hs] at hf
    rw [ht.clockIsCounting, h.unstarted hf]
  clock_lt := by rw [ht.clock]; exact h.clock_lt

theorem TimerInv.fillWindow (h : s.TimerInv) : s.fillWindow.TimerInv := by
  have hk := fillWindow_keeps s
  have hsyn := fillWindow_sets_syn s
  have hlt := h.clock_lt
  refine ⟨fun hq => ?_, fun hq => ?_, fun hf => ?_, ?_⟩
  · rcases hk.clock with ⟨h1, -, -⟩ | ⟨⟨seg, new, h1⟩, -, -⟩
    · rw [h1] at hq
      rw [hk.retransTimeout, hk.initialRetransmissionTimeout, h.idle hq]
    · rw [h1] at hq
      simp at hq
  · rcases hk.clock with ⟨h1, h2, -⟩ | ⟨-, h2, -⟩
    · rw [h1] at hq
      rw [h2, h.counting hq]
    · exact h2
  · rw [hsyn] at hf
    cases hf
  · rcases hk.clock with ⟨-, -, h3⟩ | ⟨-, -, h3⟩
    · rw [h3]
      exact hlt
    · rw [h3]
      split <;> omega

/-- The timer that `fillWindow` starts has the initial timeout, and a clock that was off is
reset. -/
theorem TimerInv.fillWindow_starts (h : s.TimerInv) (hq : s.segmentsInFlight = [])
    (hq' : s.fillWindow.segmentsInFlight ≠ []) :
    s.fillWindow.retransTimeout = s.fillWindow.initialRetransmissionTimeout ∧
      s.fillWindow.clock = if s.clockIsCounting = false then 0 else s.clock := by
  have hk := fillWindow_keeps s
  constructor
  · rw [hk.retransTimeout, hk.initialRetransmissionTimeout, h.idle hq]
  · rcases hk.clock with ⟨h1, -, -⟩ | ⟨-, -, h3⟩
    · exact absurd (h1.trans hq) hq'
    · exact h3

/-- The clock of what is outstanding goes on. -/
theorem TimerInv.fillWindow_clock (h : s.TimerInv) (hq : s.segmentsInFlight ≠ []) :
    s.fillWindow.clock = s.clock := by
  rcases (fillWindow_keeps s).clock with ⟨-, -, h3⟩ | ⟨-, -, h3⟩
  · exact h3
  · rw [h3, h.counting hq, if_neg (by simp)]

theorem TimerInv.ackReceived (h : s.TimerInv) (ackno : WrappingInt32) (w : UInt16) :
    (s.ackReceived ackno w).TimerInv := by
  rcases ackReceived_timer s ackno w with ⟨he, ht⟩ | ⟨-, hr, hsyn⟩
  · refine h.same ht ?_
    rcases ackReceived_cases s ackno w with ⟨-, -, heq⟩ | ⟨-, -, -, heq⟩ | ⟨-, -, e, -, he', -⟩
    · rw [heq]
    · rw [heq]
    · rw [he'] at he
      cases he
  · refine ⟨fun _ => hr.retransTimeout.trans hr.initialRetransmissionTimeout.symm,
      fun hq => (hr.left hq).2, fun hf => ?_, ?_⟩
    · rw [hsyn] at hf
      cases hf
    · by_cases hq : (s.ackReceived ackno w).segmentsInFlight = []
      · rw [(hr.empty hq).1]
        exact h.clock_lt
      · rw [(hr.left hq).1]
        decide

theorem TimerInv.tick (h : s.TimerInv) (ms : Nat) : (s.tick ms).TimerInv := by
  rcases tick_cases s ms with ⟨-, seg, rest, hq, heq⟩ | ⟨-, heq⟩
  · rw [heq]
    refine ⟨fun hn => ?_, fun _ => rfl, fun hf => ?_, Nat.two_pow_pos 64⟩
    · rw [show (s.retransmit seg).segmentsInFlight = s.segmentsInFlight from rfl, hq] at hn
      cases hn
    · have h1 := h.counting (by rw [hq]; simp)
      rw [h.unstarted hf] at h1
      cases h1
  · rw [heq]
    refine ⟨h.idle, fun hq => ?_, fun hf => ?_, Nat.mod_lt _ (Nat.two_pow_pos 64)⟩
    · simp only [h.counting hq, Bool.and_true, Bool.not_eq_true', List.isEmpty_eq_false_iff]
      exact hq
    · simp only [h.unstarted hf, Bool.and_false]

theorem TimerInv.step (h : s.TimerInv) (op : Op) : (s.step op).TimerInv := by
  cases op with
  | fillWindow => exact h.fillWindow
  | write data => exact h.same ⟨rfl, rfl, rfl, rfl, rfl, rfl⟩ rfl
  | endInput => exact h.same ⟨rfl, rfl, rfl, rfl, rfl, rfl⟩ rfl
  | ack ackno w => exact h.ackReceived ackno w
  | tick ms => exact h.tick ms
  | sendEmpty => exact h.same ⟨rfl, rfl, rfl, rfl, rfl, rfl⟩ rfl

end

/-! ## The observer's clocks -/

/-- The milliseconds an operation ticks. -/
def Op.ms : Op → Nat
  | .tick ms => ms
  | .fillWindow | .write _ | .endInput | .ack _ _ | .sendEmpty => 0

/-- A segment is sent while nothing is outstanding. -/
def Starts (s : TCPSender) (op : Op) : Prop :=
  ∃ e ∈ s.fillEntry op, e.segmentsInFlight = [] ∧ e.fillWindow.segmentsInFlight ≠ []

instance (s : TCPSender) (op : Op) : Decidable (s.Starts op) :=
  inferInstanceAs (Decidable (∃ e ∈ s.fillEntry op, _))

/-- The timer is (re)started: a segment is sent while nothing is outstanding, an ack of new data
leaves something outstanding, or a tick retransmits. -/
def Restarts (s : TCPSender) : Op → Prop
  | .fillWindow => s.Starts .fillWindow
  | .ack ackno w => s.ackEntry ackno w ≠ none ∧ (s.ackReceived ackno w).segmentsInFlight ≠ []
  | .tick ms => s.Retransmits ms
  | .write _ | .endInput | .sendEmpty => False

instance (s : TCPSender) : ∀ op, Decidable (s.Restarts op)
  | .fillWindow => inferInstanceAs (Decidable (s.Starts .fillWindow))
  | .ack _ _ => inferInstanceAs (Decidable (¬ _ = _ ∧ ¬ _ = _))
  | .tick ms => inferInstanceAs (Decidable (s.Retransmits ms))
  | .write _ | .endInput | .sendEmpty => isFalse id

/-- Nothing is outstanding, but the clock of the last outstanding segment still counts. -/
def Stale (s : TCPSender) : Prop :=
  s.segmentsInFlight = [] ∧ s.clockIsCounting = true ∧ s.clock ≠ 0

instance (s : TCPSender) : Decidable s.Stale := inferInstanceAs (Decidable (_ ∧ _))

end TCPSender

open TCPSender

/-- A sender, and the milliseconds ticked since its timer was last (re)started (`elapsed`) and
since it last sent a segment while nothing was outstanding (`sinceStart`). -/
structure Timed where
  sender : TCPSender
  elapsed : Nat := 0
  sinceStart : Nat := 0
  deriving DecidableEq, Repr

namespace Timed

def step (w : Timed) (op : Op) : Timed where
  sender := w.sender.step op
  elapsed := if w.sender.Restarts op then 0 else w.elapsed + op.ms
  sinceStart := if w.sender.Starts op then 0 else w.sinceStart + op.ms

/-- If a tick of `ms` retransmits, a full timeout has elapsed since the timer was (re)started, and
a full initial one since a segment was sent while nothing was outstanding. -/
def OnTime (w : Timed) (ms : Nat) : Prop :=
  w.sender.Retransmits ms → w.sender.retransTimeout.toNat ≤ w.elapsed + ms ∧
    w.sender.initialRetransmissionTimeout.toNat ≤ w.sinceStart + ms

instance (w : Timed) (ms : Nat) : Decidable (w.OnTime ms) :=
  inferInstanceAs (Decidable (_ → _))

/-- A tick that retransmits is on time. -/
def TicksOnTime (w : Timed) : Op → Prop
  | .tick ms => w.OnTime ms
  | .fillWindow | .write _ | .endInput | .ack _ _ | .sendEmpty => True

instance (w : Timed) : ∀ op, Decidable (w.TicksOnTime op)
  | .tick ms => inferInstanceAs (Decidable (w.OnTime ms))
  | .fillWindow | .write _ | .endInput | .ack _ _ | .sendEmpty => isTrue trivial

/-- Whatever tick comes next is on time. -/
def Punctual (w : Timed) : Prop := ∀ ms, w.OnTime ms

/-- `fillWindow` does not send a segment while nothing is outstanding and the clock of the last
outstanding segment still counts. (Without a timeout nothing is early.) -/
def Fresh (w : Timed) : Op → Prop
  | .fillWindow => w.sender.Stale → w.sender.initialRetransmissionTimeout = 0 ∨
      Done w.sender.window w.sender
  | .write _ | .endInput | .ack _ _ | .tick _ | .sendEmpty => True

instance (w : Timed) : ∀ op, Decidable (w.Fresh op)
  | .fillWindow => inferInstanceAs (Decidable (_ → _ ∨ (_ ∨ _ ∨ (_ ∧ _))))
  | .write _ | .endInput | .ack _ _ | .tick _ | .sendEmpty => isTrue trivial

section
variable {w w' : Timed}

theorem onTime_iff (w : Timed) (ms : Nat) : w.OnTime ms ↔
    (w.sender.segmentsInFlight ≠ [] → w.sender.retransTimeout.toNat ≤ w.sender.clockAfter ms →
      w.sender.retransTimeout.toNat ≤ w.elapsed + ms ∧
        w.sender.initialRetransmissionTimeout.toNat ≤ w.sinceStart + ms) := by
  rw [OnTime, retransmits_iff, and_imp]

/-- With nothing outstanding no tick retransmits. -/
theorem punctual_of_idle (h : w.sender.segmentsInFlight = []) : w.Punctual :=
  fun ms => (w.onTime_iff ms).mpr fun hn => absurd h hn

/-- A clock that has just been reset is punctual. -/
theorem punctual_of_reset (hc : w.sender.clock = 0)
    (hi : w.sender.initialRetransmissionTimeout.toNat ≤ w.sender.retransTimeout.toNat ∨
      w.sender.initialRetransmissionTimeout.toNat ≤ w.sinceStart) : w.Punctual := by
  intro ms
  rw [onTime_iff, clockAfter, hc]
  intro _ hle
  have := Nat.mod_le (0 + ms) (2 ^ 64)
  omega

theorem punctual_congr (hs : SameTimer w.sender w'.sender) (he : w'.elapsed = w.elapsed)
    (hst : w'.sinceStart = w.sinceStart) : w'.Punctual ↔ w.Punctual := by
  refine forall_congr' fun ms => ?_
  rw [OnTime, OnTime, hs.retransmits_iff, hs.retransTimeout, hs.initialRetransmissionTimeout, he,
    hst]

theorem step_elapsed {op : Op} (h : ¬ w.sender.Restarts op) :
    (w.step op).elapsed = w.elapsed + op.ms := if_neg h

/-- Without an entry to `fillWindow` nothing starts. -/
theorem step_sinceStart {op : Op} (h : w.sender.fillEntry op = none) :
    (w.step op).sinceStart = w.sinceStart + op.ms := by
  refine if_neg ?_
  rintro ⟨e, he, -⟩
  rw [h] at he
  cases he

/-- An operation that leaves the timer alone. -/
theorem punctual_quiet {op : Op} (hp : w.Punctual) (hs : SameTimer w.sender (w.sender.step op))
    (hr : ¬ w.sender.Restarts op) (hn : w.sender.fillEntry op = none) (hms : op.ms = 0) :
    (w.step op).Punctual := by
  refine (punctual_congr hs ?_ ?_ : (w.step op).Punctual ↔ w.Punctual).mpr hp
  · rw [step_elapsed hr, hms, Nat.add_zero]
  · rw [step_sinceStart hn, hms, Nat.add_zero]

theorem punctual_tick (hp : w.Punctual) (ms : Nat) : (w.step (.tick ms)).Punctual := by
  have hst : (w.step (.tick ms)).sinceStart = w.sinceStart + ms := step_sinceStart rfl
  rcases tick_cases w.sender ms with ⟨hr, seg, rest, hq, heq⟩ | ⟨hn, heq⟩
  · have hs : (w.step (.tick ms)).sender = w.sender.retransmit seg := heq
    refine punctual_of_reset (by rw [hs]; rfl) (.inr ?_)
    rw [hs, hst]
    exact (hp ms hr).2
  · -- the clock goes on: a tick of `ms'` now is one of `ms + ms'` before
    have hel : (w.step (.tick ms)).elapsed = w.elapsed + ms := step_elapsed hn
    intro ms'
    have hthen := (onTime_iff w (ms + ms')).mp (hp (ms + ms'))
    rw [onTime_iff, hel, hst, show (w.step (.tick ms)).sender = _ from heq]
    intro hq hle
    simp only [clockAfter] at hle hthen
    rw [Nat.mod_add_mod, Nat.add_assoc] at hle
    obtain ⟨h1, h2⟩ := hthen hq hle
    simp only
    omega

theorem punctual_ack (hp : w.Punctual) (ackno : WrappingInt32) (win : UInt16) :
    (w.step (.ack ackno win)).Punctual := by
  rcases ackReceived_timer w.sender ackno win with ⟨he, ht⟩ | ⟨he, hr, -⟩
  · exact punctual_quiet hp ht (fun h => h.1 he) he rfl
  · by_cases hq : (w.sender.ackReceived ackno win).segmentsInFlight = []
    · exact punctual_of_idle hq
    · refine punctual_of_reset (hr.left hq).1 (.inl ?_)
      show (w.sender.ackReceived ackno win).initialRetransmissionTimeout.toNat ≤
        (w.sender.ackReceived ackno win).retransTimeout.toNat
      rw [hr.retransTimeout, hr.initialRetransmissionTimeout]

/-- A clock that shows too much when the timer starts makes some next tick early. -/
theorem clock_zero_of_punctual (hp : w.Punctual) (hq : w.sender.segmentsInFlight ≠ [])
    (he : w.elapsed = 0) (hlt : w.sender.clock < 2 ^ 64)
    (ht : 0 < w.sender.retransTimeout.toNat) : w.sender.clock = 0 := by
  by_contra hc
  have htlt := w.sender.retransTimeout.toNat_lt
  have h := (onTime_iff w (w.sender.retransTimeout.toNat - w.sender.clock)).mp
    (hp (w.sender.retransTimeout.toNat - w.sender.clock)) hq (by
      rw [clockAfter, Nat.mod_eq_of_lt (by omega)]
      omega)
  omega

/-- Where `fillWindow` starts the timer, it is punctual unless the clock is stale. -/
theorem punctual_starting_iff (hi : w.sender.TimerInv) (hq : w.sender.segmentsInFlight = [])
    (hq' : w.sender.fillWindow.segmentsInFlight ≠ []) :
    (w.step .fillWindow).Punctual ↔
      (w.sender.Stale → w.sender.initialRetransmissionTimeout = 0) := by
  have hinit := (fillWindow_keeps w.sender).initialRetransmissionTimeout
  obtain ⟨htime, hclock⟩ := hi.fillWindow_starts hq hq'
  constructor
  · intro hp hstale
    by_contra h0
    have hstart : w.sender.Starts .fillWindow := ⟨_, rfl, hq, hq'⟩
    have hpos : 0 < w.sender.fillWindow.retransTimeout.toNat := by
      rw [htime, hinit]
      have := UInt32.toNat_inj.not.mpr h0
      have hz : (0 : UInt32).toNat = 0 := rfl
      omega
    have hzero : w.sender.fillWindow.clock = 0 :=
      clock_zero_of_punctual hp hq' (if_pos hstart) hi.fillWindow.clock_lt hpos
    rw [hclock, hstale.2.1, if_neg (by simp)] at hzero
    exact hstale.2.2 hzero
  · intro hfresh
    by_cases hstale : w.sender.Stale
    · intro ms
      rw [onTime_iff]
      intro _ _
      show w.sender.fillWindow.retransTimeout.toNat ≤ _ ∧
        w.sender.fillWindow.initialRetransmissionTimeout.toNat ≤ _
      rw [htime, hinit, hfresh hstale]
      exact ⟨Nat.zero_le _, Nat.zero_le _⟩
    · refine punctual_of_reset ?_ (.inl ?_)
      · show w.sender.fillWindow.clock = 0
        rw [hclock]
        split
        · rfl
        · by_contra hc
          exact hstale ⟨hq, by simpa using ‹¬ w.sender.clockIsCounting = false›, hc⟩
      · show w.sender.fillWindow.initialRetransmissionTimeout.toNat ≤
          w.sender.fillWindow.retransTimeout.toNat
        rw [htime]

/-- With something outstanding the clock goes on as it was. -/
theorem punctual_running (hi : w.sender.TimerInv) (hp : w.Punctual)
    (hq : w.sender.segmentsInFlight ≠ []) : (w.step .fillWindow).Punctual := by
  have hk := fillWindow_keeps w.sender
  have hns : ¬ w.sender.Starts .fillWindow := by
    rintro ⟨e, he, hqe, -⟩
    cases he
    exact hq hqe
  have hel : (w.step .fillWindow).elapsed = w.elapsed := if_neg hns
  have hst : (w.step .fillWindow).sinceStart = w.sinceStart := if_neg hns
  intro ms
  have hthen := (onTime_iff w ms).mp (hp ms) hq
  rw [onTime_iff, hel, hst]
  intro _ hle
  have hle' : w.sender.fillWindow.retransTimeout.toNat ≤
      (w.sender.fillWindow.clock + ms) % 2 ^ 64 := hle
  rw [hi.fillWindow_clock hq, hk.retransTimeout] at hle'
  show w.sender.fillWindow.retransTimeout.toNat ≤ _ ∧
    w.sender.fillWindow.initialRetransmissionTimeout.toNat ≤ _
  rw [hk.retransTimeout, hk.initialRetransmissionTimeout]
  exact hthen hle'

theorem punctual_fillWindow_iff (hi : w.sender.TimerInv) (hp : w.Punctual) :
    (w.step .fillWindow).Punctual ↔ w.Fresh .fillWindow := by
  by_cases hq : w.sender.segmentsInFlight = []
  · have hidle : w.sender.Stale → (w.sender.fillWindow.segmentsInFlight = [] ↔
        Done w.sender.window w.sender) := fun hstale => by
      rw [← fillWindow_queue_iff (hi.syn_of_counting hstale.2.1), hq]
    by_cases hq' : w.sender.fillWindow.segmentsInFlight = []
    · -- nothing is sent
      exact iff_of_true (punctual_of_idle hq') fun hstale => .inr ((hidle hstale).mp hq')
    · -- the timer starts
      rw [punctual_starting_iff hi hq hq']
      refine forall_congr' fun hstale => ?_
      rw [or_iff_left (mt (hidle hstale).mpr hq')]
  · exact iff_of_true (punctual_running hi hp hq) fun hstale => absurd hstale.1 hq

theorem punctual_step_iff {op : Op} (hi : w.sender.TimerInv) (hp : w.Punctual) :
    (w.step op).Punctual ↔ w.Fresh op := by
  cases op with
  | fillWindow => exact punctual_fillWindow_iff hi hp
  | tick ms => exact iff_of_true (punctual_tick hp ms) trivial
  | ack ackno win => exact iff_of_true (punctual_ack hp ackno win) trivial
  | write _ | endInput | sendEmpty =>
    exact iff_of_true (punctual_quiet hp ⟨rfl, rfl, rfl, rfl, rfl, rfl⟩ id rfl rfl) trivial

theorem Punctual.ticksOnTime (hp : w.Punctual) (op : Op) : w.TicksOnTime op := by
  cases op with
  | tick ms => exact hp ms
  | fillWindow | write _ | endInput | ack _ _ | sendEmpty => trivial

end

/-- **No premature retransmission.** A run that never starts the timer on a stale clock
retransmits on time; and these are exactly the runs in which, in every state, whatever tick comes
next is on time. -/
theorem always_punctual_iff (capacity : Nat) (retxTimeout : UInt16)
    (fixedIsn : Option WrappingInt32) (random : UInt32) (ops : List Op) :
    (Along step Fresh { sender := new capacity retxTimeout fixedIsn random } ops →
      Along step TicksOnTime { sender := new capacity retxTimeout fixedIsn random } ops) ∧
    (Always step Punctual { sender := new capacity retxTimeout fixedIsn random } ops ↔
      Along step Fresh { sender := new capacity retxTimeout fixedIsn random } ops) := by
  have hiff : Always step Punctual { sender := new capacity retxTimeout fixedIsn random } ops ↔
      Along step Fresh { sender := new capacity retxTimeout fixedIsn random } ops :=
    always_iff_along (I := fun w => w.sender.TimerInv) (G := fun _ _ => True)
      (along_of_forall fun _ _ => trivial) (timerInv_new capacity retxTimeout fixedIsn random)
      (punctual_of_idle rfl) (fun w op hi _ => hi.step op)
      fun w op hi hp _ => punctual_step_iff hi hp
  refine ⟨fun hf => ?_, hiff⟩
  exact (hiff.mpr hf).along.mono fun w op hp => hp.1.ticksOnTime op

/-- SYN is acknowledged 900 ms after it was sent, and a byte is written and sent at once. -/
def sendAfterAckOps : List Op :=
  [.fillWindow, .tick 900, .ack ⟨8⟩ 10, .write [97], .fillWindow, .tick 100]

/-- The byte is sent again after 100 ms. -/
theorem retransmits_early :
    (run step { sender := new 8 1000 (some ⟨7⟩) 0 } sendAfterAckOps).sender.consecutiveRetrans = 1 ∧
      ¬ Along step TicksOnTime { sender := new 8 1000 (some ⟨7⟩) 0 } sendAfterAckOps :=
  ⟨by decide, by decide⟩

end Timed

end Sponge
