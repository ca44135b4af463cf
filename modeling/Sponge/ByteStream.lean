import Mathlib.Algebra.Order.Ring.Nat
import Mathlib.Tactic.Common

/-!
# The byte stream

An in-order byte stream of bounded capacity. The buffer is the list of bytes
written and not yet popped; the counters `written` and `readden` and the flags
are the source's. `write` accepts a prefix of its argument (also after
`endInput`: the source does not test the flag there) and returns its length.
-/

namespace Sponge

structure ByteStream where
  capacity : Nat
  written : Nat := 0
  readden : Nat := 0
  inputEnd : Bool := false
  buffer : List UInt8 := []
  error : Bool := false
  deriving DecidableEq, Repr

namespace ByteStream

def bufferSize (s : ByteStream) : Nat := s.buffer.length

def remainingCapacity (s : ByteStream) : Nat := s.capacity - s.bufferSize

/-- Write as many bytes as fit; the second component is the number accepted. -/
def write (s : ByteStream) (data : List UInt8) : ByteStream × Nat :=
  let len := data.length
  let len := if len < s.capacity - s.bufferSize then len else s.capacity - s.bufferSize
  ({ s with written := s.written + len, buffer := s.buffer ++ data.take len }, len)

def endInput (s : ByteStream) : ByteStream := { s with inputEnd := true }

def setError (s : ByteStream) : ByteStream := { s with error := true }

def peekOutput (s : ByteStream) (len : Nat) : List UInt8 := s.buffer.take (min len s.bufferSize)

def popOutput (s : ByteStream) (len : Nat) : ByteStream :=
  let length := min len s.bufferSize
  { s with readden := s.readden + length, buffer := s.buffer.drop length }

def read (s : ByteStream) (len : Nat) : List UInt8 × ByteStream :=
  let length := min len s.bufferSize
  (s.peekOutput length, s.popOutput length)

def inputEnded (s : ByteStream) : Bool := s.inputEnd

def bufferEmpty (s : ByteStream) : Bool := s.bufferSize == 0

def eof (s : ByteStream) : Bool := s.bufferEmpty && s.inputEnded

def bytesWritten (s : ByteStream) : Nat := s.written

def bytesRead (s : ByteStream) : Nat := s.readden

/-! ## Fields after each operation -/

section
variable (s : ByteStream) (d : List UInt8) (n : Nat)

theorem write_snd : (s.write d).2 = min d.length s.remainingCapacity := by
  simp only [write, remainingCapacity]; split <;> omega

@[simp] theorem write_written : (s.write d).1.written = s.written + (s.write d).2 := rfl
@[simp] theorem write_buffer :
    (s.write d).1.buffer = s.buffer ++ d.take (s.write d).2 := rfl
@[simp] theorem write_capacity : (s.write d).1.capacity = s.capacity := rfl
@[simp] theorem write_readden : (s.write d).1.readden = s.readden := rfl
@[simp] theorem write_inputEnd : (s.write d).1.inputEnd = s.inputEnd := rfl
@[simp] theorem write_error : (s.write d).1.error = s.error := rfl

@[simp] theorem endInput_written : s.endInput.written = s.written := rfl
@[simp] theorem endInput_buffer : s.endInput.buffer = s.buffer := rfl
@[simp] theorem endInput_capacity : s.endInput.capacity = s.capacity := rfl
@[simp] theorem endInput_readden : s.endInput.readden = s.readden := rfl
@[simp] theorem endInput_inputEnd : s.endInput.inputEnd = true := rfl
@[simp] theorem endInput_error : s.endInput.error = s.error := rfl

@[simp] theorem setError_written : s.setError.written = s.written := rfl
@[simp] theorem setError_buffer : s.setError.buffer = s.buffer := rfl
@[simp] theorem setError_capacity : s.setError.capacity = s.capacity := rfl
@[simp] theorem setError_readden : s.setError.readden = s.readden := rfl
@[simp] theorem setError_inputEnd : s.setError.inputEnd = s.inputEnd := rfl
@[simp] theorem setError_error : s.setError.error = true := rfl

@[simp] theorem popOutput_written : (s.popOutput n).written = s.written := rfl
@[simp] theorem popOutput_capacity : (s.popOutput n).capacity = s.capacity := rfl
@[simp] theorem popOutput_inputEnd : (s.popOutput n).inputEnd = s.inputEnd := rfl
@[simp] theorem popOutput_error : (s.popOutput n).error = s.error := rfl
@[simp] theorem popOutput_readden :
    (s.popOutput n).readden = s.readden + min n s.buffer.length := rfl

@[simp] theorem popOutput_buffer : (s.popOutput n).buffer = s.buffer.drop n := by
  simp only [popOutput, bufferSize]
  rcases Nat.le_total n s.buffer.length with h | h
  · rw [Nat.min_eq_left h]
  · rw [Nat.min_eq_right h, List.drop_length, List.drop_of_length_le h]

@[simp] theorem peekOutput_eq : s.peekOutput n = s.buffer.take n := by
  simp only [peekOutput, bufferSize]
  rcases Nat.le_total n s.buffer.length with h | h
  · rw [Nat.min_eq_left h]
  · rw [Nat.min_eq_right h, List.take_length, List.take_of_length_le h]

/-- Reading is peeking and popping. -/
theorem read_eq : s.read n = (s.buffer.take n, s.popOutput n) := by
  have hp : s.popOutput (min n s.bufferSize) = s.popOutput n := by simp [popOutput]
  have ht : s.peekOutput (min n s.bufferSize) = s.buffer.take n := by
    rw [peekOutput_eq, bufferSize, ← List.take_eq_take_min]
  simp only [read, hp, ht]

theorem bufferEmpty_iff : s.bufferEmpty = true ↔ s.buffer = [] := by
  simp [bufferEmpty, bufferSize]

theorem eof_iff : s.eof = true ↔ s.buffer = [] ∧ s.inputEnd = true := by
  simp [eof, bufferEmpty_iff, inputEnded]

end

/-- The counters and the buffer agree, and the buffer fits. -/
structure WF (s : ByteStream) : Prop where
  fits : s.buffer.length ≤ s.capacity
  count : s.written = s.readden + s.buffer.length

theorem wf_mk (capacity : Nat) : WF { capacity := capacity } := ⟨Nat.zero_le _, rfl⟩

theorem WF.write {s : ByteStream} (h : s.WF) (d : List UInt8) : (s.write d).1.WF := by
  have hn := write_snd s d
  have hf := h.fits
  constructor
  · simp only [write_buffer, write_capacity, List.length_append, List.length_take]
    simp only [remainingCapacity, bufferSize] at hn
    omega
  · simp only [write_written, write_readden, write_buffer, List.length_append, List.length_take]
    have := h.count
    omega

theorem WF.popOutput {s : ByteStream} (h : s.WF) (n : Nat) : (s.popOutput n).WF := by
  have hf := h.fits
  have hc := h.count
  constructor
  · simp; omega
  · simp; omega

theorem WF.endInput {s : ByteStream} (h : s.WF) : s.endInput.WF := ⟨h.fits, h.count⟩

theorem WF.setError {s : ByteStream} (h : s.WF) : s.setError.WF := ⟨h.fits, h.count⟩

end ByteStream

end Sponge
