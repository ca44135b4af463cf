import Sponge.Lib.Run
import Sponge.Sender.Rest

/-!
# The end of a stream

A stream that has ended should stay as it is: nothing more is written, and once at its
end it stays there (`Final`). The source's `write` does not look at the flag, and a
machine that works on a stream (`Drives`) keeps to this in a run exactly when each write
behind the end is of nothing, or finds no room (`final_iff`).

The stream itself is such a machine, and so is a sender with the stream that it sends.
While the end is final, its summary does not fall back from FIN to the established
connection (`staysClosing_of_shut`).
-/

namespace Sponge

open Lib

namespace ByteStream

/-- The calls that change a stream. -/
inductive Op where
  | write (data : List UInt8)
  | popOutput (len : Nat)
  | read (len : Nat)
  | endInput
  | setError
  deriving DecidableEq, Repr

def step (s : ByteStream) : Op → ByteStream
  | .write data => (s.write data).1
  | .popOutput len => s.popOutput len
  | .read len => (s.read len).2
  | .endInput => s.endInput
  | .setError => s.setError

/-- What a call writes, if it does. -/
def Op.data : Op → Option (List UInt8)
  | .write data => some data
  | .popOutput _ | .read _ | .endInput | .setError => none

/-- Nothing has been written from `s` to `t`, and an end that was reached still is. -/
structure Quiet (s t : ByteStream) : Prop where
  written : t.written = s.written
  inputEnd : s.inputEnd = true → t.inputEnd = true
  empty : s.buffer = [] → t.buffer = []

section
variable {s t u : ByteStream} {d : List UInt8}

theorem Quiet.refl (s : ByteStream) : Quiet s s := ⟨rfl, id, id⟩

theorem Quiet.trans (h : Quiet s t) (h' : Quiet t u) : Quiet s u :=
  ⟨h'.written.trans h.written, fun hs => h'.inputEnd (h.inputEnd hs),
    fun hs => h'.empty (h.empty hs)⟩

theorem Quiet.eof (h : Quiet s t) (he : s.eof = true) : t.eof = true := by
  rw [eof_iff] at he ⊢
  exact ⟨h.empty he.1, h.inputEnd he.2⟩

theorem quiet_popOutput (s : ByteStream) (n : Nat) : Quiet s (s.popOutput n) where
  written := rfl
  inputEnd := id
  empty h := by rw [popOutput_buffer, h, List.drop_nil]

/-- A write of nothing, or into no room. -/
theorem write_refused_iff : (s.write d).2 = 0 ↔ d = [] ∨ s.remainingCapacity = 0 := by
  rw [write_snd, ← List.length_eq_zero_iff]
  omega

theorem quiet_write (h : (s.write d).2 = 0) : Quiet s (s.write d).1 where
  written := by rw [write_written, h, Nat.add_zero]
  inputEnd := id
  empty hs := by rw [write_buffer, h, hs, List.take_zero, List.append_nil]

theorem quiet_step (s : ByteStream) {op : Op} (h : op.data = none) : Quiet s (s.step op) := by
  cases op with
  | write d => cases h
  | popOutput n => exact quiet_popOutput s n
  | read n =>
    rw [step, read_eq]
    exact quiet_popOutput s n
  | endInput => exact ⟨rfl, fun _ => rfl, id⟩
  | setError => exact ⟨rfl, id, id⟩

end

end ByteStream

open ByteStream (Quiet)

/-! ## Machines that work on a stream -/

section
variable {σ ε : Type*} (step : σ → ε → σ) (stream : σ → ByteStream)
  (data : ε → Option (List UInt8))

/-- The machine writes the data of its events to its stream, and nothing else. -/
structure Drives : Prop where
  write : ∀ s e d, data e = some d → stream (step s e) = ((stream s).write d).1
  quiet : ∀ s e, data e = none → Quiet (stream s) (stream (step s e))

/-- A write behind the end is of nothing, or finds no room. -/
def Shut (s : σ) (e : ε) : Prop :=
  ∀ d, data e = some d → (stream s).inputEnded = true →
    d = [] ∨ (stream s).remainingCapacity = 0

/-- The end of the stream is final in the run. -/
structure Final (s : σ) (es : List ε) : Prop where
  written : ∀ pre mid post, es = pre ++ mid ++ post →
    (stream (run step s pre)).inputEnded = true →
    (stream (run step s (pre ++ mid))).bytesWritten = (stream (run step s pre)).bytesWritten
  refused : ∀ pre e post d, es = pre ++ e :: post → data e = some d →
    (stream (run step s pre)).inputEnded = true → ((stream (run step s pre)).write d).2 = 0
  eof : ∀ pre mid post, es = pre ++ mid ++ post → (stream (run step s pre)).eof = true →
    (stream (run step s (pre ++ mid))).eof = true

variable {step stream data} {s : σ} {e : ε} {es : List ε}

theorem Drives.quiet_step (h : Drives step stream data) (hs : Shut stream data s e)
    (he : (stream s).inputEnd = true) : Quiet (stream s) (stream (step s e)) := by
  cases hd : data e with
  | none => exact h.quiet s e hd
  | some d =>
    rw [h.write s e d hd]
    exact ByteStream.quiet_write (ByteStream.write_refused_iff.mpr (hs d hd he))

theorem Drives.quiet_run (h : Drives step stream data)
    (hs : Along step (Shut stream data) s es) (he : (stream s).inputEnd = true) :
    Quiet (stream s) (stream (run step s es)) := by
  induction es generalizing s with
  | nil => exact Quiet.refl _
  | cons e es ih =>
    have hq := h.quiet_step hs.1 he
    exact hq.trans (ih hs.2 (hq.inputEnd he))

/-- The end is final in exactly the runs that do not write behind it. -/
theorem final_iff (h : Drives step stream data) (s : σ) (es : List ε) :
    Final step stream data s es ↔ Along step (Shut stream data) s es := by
  constructor
  · intro hf
    rw [along_iff_forall]
    intro pre e post heq d hd he
    exact ByteStream.write_refused_iff.mp (hf.refused pre e post d heq hd he)
  · intro hs
    have hmid : ∀ pre mid post, es = pre ++ mid ++ post →
        (stream (run step s pre)).inputEnd = true →
        Quiet (stream (run step s pre)) (stream (run step s (pre ++ mid))) := by
      rintro pre mid post rfl he
      rw [run_append]
      exact h.quiet_run (along_append.mp (along_append.mp hs).1).2 he
    refine ⟨fun pre mid post heq he => (hmid pre mid post heq he).written, ?_, ?_⟩
    · intro pre e post d heq hd he
      exact ByteStream.write_refused_iff.mpr (along_iff_forall.mp hs pre e post heq d hd he)
    · intro pre mid post heq he
      exact (hmid pre mid post heq ((ByteStream.eof_iff _).mp he).2).eof he

end

theorem ByteStream.step_drives : Drives ByteStream.step id ByteStream.Op.data where
  write s e d hd := by
    cases e with
    | write d' =>
      obtain rfl := Option.some.inj hd
      rfl
    | popOutput _ | read _ | endInput | setError => cases hd
  quiet s e hd := ByteStream.quiet_step s hd

/-! ## The sender -/

namespace TCPSender

/-- The calls on a sender, and on the stream that `stream_in` hands out. -/
inductive Call where
  | fillWindow
  | ack (ackno : WrappingInt32) (windowSize : UInt16)
  | tick (ms : Nat)
  | sendEmpty
  | stream (op : ByteStream.Op)
  deriving DecidableEq, Repr

def call (s : TCPSender) : Call → TCPSender
  | .fillWindow => s.fillWindow
  | .ack ackno windowSize => s.ackReceived ackno windowSize
  | .tick ms => s.tick ms
  | .sendEmpty => s.sendEmptySegment
  | .stream op => { s with stream := s.stream.step op }

def Call.data : Call → Option (List UInt8)
  | .stream op => op.data
  | .fillWindow | .ack _ _ | .tick _ | .sendEmpty => none

/-- FIN has been sent, as the summary has it. -/
def Closing (s : TCPSender) : Prop := s.stateSummary = .finSent ∨ s.stateSummary = .finAcked

/-- The summary does not fall back behind FIN in the run. -/
def StaysClosing (s : TCPSender) (calls : List Call) : Prop :=
  ∀ pre mid post, calls = pre ++ mid ++ post → Closing (run call s pre) →
    (run call s (pre ++ mid)).stateSummary ≠ .synAcked

section
variable (s : TCPSender)

theorem fillWindow_quiet : Quiet s.stream s.fillWindow.stream := by
  refine fillWindow_inv (P := fun t => Quiet s.stream t.stream) (fun hs => ?_)
    (fun _ => Quiet.refl _) fun s' seg t _ ht hq => ?_
  · rw [(fillWindow_syn hs).2.2.2]
    exact Quiet.refl _
  · rw [ht.stream]
    exact hq.trans (ByteStream.quiet_popOutput ..)

theorem ackReceived_quiet (ackno : WrappingInt32) (w : UInt16) :
    Quiet s.stream (s.ackReceived ackno w).stream := by
  rcases ackReceived_cases s ackno w with ⟨-, -, heq⟩ | ⟨-, -, -, heq⟩ | ⟨-, -, e, _, -, ha, heq⟩
  · rw [heq]
    exact Quiet.refl _
  · rw [heq]
    exact Quiet.refl _
  · obtain ⟨counting, clock, hr⟩ := restartTimer_eq e.fillWindow
    have hq := fillWindow_quiet e
    rw [heq, hr]
    rw [ha.eq] at hq ⊢
    exact hq

theorem tick_stream (ms : Nat) : (s.tick ms).stream = s.stream := by
  rw [(tick_ticked s ms).eq]

theorem call_drives : Drives call stream Call.data where
  write s c d hd := by
    cases c with
    | stream op => exact ByteStream.step_drives.write s.stream op d hd
    | fillWindow | ack _ _ | tick _ | sendEmpty => cases hd
  quiet s c hd := by
    cases c with
    | fillWindow => exact fillWindow_quiet s
    | ack ackno w => exact ackReceived_quiet s ackno w
    | tick ms =>
      rw [call, tick_stream]
      exact Quiet.refl _
    | sendEmpty => exact Quiet.refl _
    | stream op => exact ByteStream.quiet_step s.stream hd

theorem call_nextSeqno_le (c : Call) : s.nextSeqno ≤ (s.call c).nextSeqno := by
  cases c with
  | fillWindow => exact fillWindow_nextSeqno_le s
  | ack ackno w => exact ackReceived_nextSeqno_le s ackno w
  | tick ms => exact Nat.le_of_eq (tick_ticked s ms).same.nextSeqno.symm
  | sendEmpty | stream _ => exact Nat.le_refl _

/-- The stream is at its end, and as many sequence numbers have been used as it takes with
SYN and FIN. -/
def Spent : Prop := s.stream.eof = true ∧ s.stream.bytesWritten + 2 ≤ s.nextSeqno

variable {s}

theorem Closing.spent (h : s.Closing) : s.Spent := by
  unfold Closing stateSummary at h
  by_cases he : s.stream.eof = true
  · refine ⟨he, ?_⟩
    by_contra hlt
    rw [Nat.not_le] at hlt
    simp only [he, Bool.true_eq_false, if_false, if_pos hlt] at h
    split_ifs at h <;> simp at h
  · simp only [Bool.not_eq_true] at he
    simp only [he, if_true] at h
    split_ifs at h <;> simp at h

theorem Spent.summary (h : s.Spent) : s.stateSummary ≠ .synAcked := by
  obtain ⟨he, hle⟩ := h
  unfold stateSummary
  simp only [he, Bool.true_eq_false, if_false, if_neg (Nat.not_lt.mpr hle)]
  split_ifs <;> simp

theorem Spent.call (h : s.Spent) {c : Call} (hc : Shut stream Call.data s c) :
    (s.call c).Spent := by
  have hq := call_drives.quiet_step hc ((ByteStream.eof_iff _).mp h.1).2
  refine ⟨hq.eof h.1, ?_⟩
  have hwritten : (s.call c).stream.bytesWritten = s.stream.bytesWritten := hq.written
  rw [hwritten]
  exact Nat.le_trans h.2 (call_nextSeqno_le s c)

theorem staysClosing_of_shut {calls : List Call}
    (h : Along call (Shut stream Call.data) s calls) : StaysClosing s calls := by
  rintro pre mid post rfl hclosing
  rw [run_append]
  have hmid := (along_append.mp (along_append.mp h).1).2
  exact (hmid.inv hclosing.spent fun _ _ hs hc => hs.call hc).summary

end

/-- **When the end of a stream is final.** In a run of calls on a stream, and on a sender,
nothing is written behind the end, the end stays reached and the summary of the sender does not
fall back, exactly when every write behind the end is of nothing or finds no room. -/
theorem ending_final_iff (capacity : Nat) (ops : List ByteStream.Op) (retxTimeout : UInt16)
    (fixedIsn : Option WrappingInt32) (random : UInt32) (calls : List Call) :
    (Final ByteStream.step id ByteStream.Op.data { capacity := capacity } ops ↔
      Along ByteStream.step (Shut id ByteStream.Op.data) { capacity := capacity } ops) ∧
    (Final call stream Call.data (new capacity retxTimeout fixedIsn random) calls ∧
        StaysClosing (new capacity retxTimeout fixedIsn random) calls ↔
      Along call (Shut stream Call.data) (new capacity retxTimeout fixedIsn random) calls) := by
  refine ⟨final_iff ByteStream.step_drives _ ops, ?_⟩
  rw [final_iff call_drives]
  exact and_iff_left_of_imp staysClosing_of_shut

/-- FIN is sent behind SYN. -/
def closingCalls : List Call := [.fillWindow, .ack ⟨8⟩ 10, .stream .endInput, .fillWindow]

/-- A byte is written to a stream behind its end, which has been reached, and to the stream of a
sender that has sent FIN. -/
theorem written_behind_end :
    ¬ Final ByteStream.step id ByteStream.Op.data { capacity := 2 } [.endInput, .write [1]] ∧
      ¬ StaysClosing (new 2 1000 (some ⟨7⟩) 0) (closingCalls ++ [.stream (.write [1])]) := by
  constructor
  · intro h
    exact absurd (h.eof [.endInput] [.write [1]] [] rfl (by decide)) (by decide)
  · intro h
    exact h closingCalls [.stream (.write [1])] [] rfl (.inl (by decide)) (by decide)

end TCPSender

end Sponge
