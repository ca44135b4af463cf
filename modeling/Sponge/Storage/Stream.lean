import Sponge.ByteStream
import Sponge.Storage.Buffer
import Sponge.WrappingIntegers

/-!
# The byte stream over its buffers

The `ByteStream` of the source keeps its contents in a `BufferList` and computes
with 64-bit sizes. `Represents` connects it with the stream of bytes the rest of
the development works with: the operations of the two keep it, and those of the
source do not throw (`write_represents`, `popOutput_represents`).

The calls of a run are recorded (`Record`): what was accepted has gone out or is
still there, in order, in every state (`bounded_fifo`).
-/

namespace Sponge.Storage

structure ByteStream where
  capacity : Nat
  written : Nat := 0
  readden : Nat := 0
  inputEnd : Bool := false
  buffer : BufferList := {}
  error : Bool := false
  deriving DecidableEq, Repr

namespace ByteStream

/-- The constructor; the capacity is a `size_t`. -/
def new (capacity : UInt64) : ByteStream := { capacity := capacity.toNat }

def bufferSize (s : ByteStream) : Nat := s.buffer.size

def remainingCapacity (s : ByteStream) : Nat := sub64 s.capacity s.buffer.size

def write (s : ByteStream) (data : List UInt8) : ByteStream × Nat :=
  let len := data.length
  let len := if len < sub64 s.capacity s.buffer.size then len else sub64 s.capacity s.buffer.size
  ({ s with
      written := (s.written + len) % 2 ^ 64
      buffer := s.buffer.append (BufferList.ofString (data.take len)) }, len)

def peekOutput (s : ByteStream) (len : Nat) : List UInt8 :=
  let length := min len s.buffer.size
  s.buffer.concatenate.take length

def popOutput (s : ByteStream) (len : Nat) : Except String ByteStream :=
  let length := min len s.buffer.size
  (s.buffer.removePrefix length).map fun buffer =>
    { s with readden := (s.readden + length) % 2 ^ 64, buffer := buffer }

def read (s : ByteStream) (len : Nat) : Except String (List UInt8 × ByteStream) :=
  let length := min len s.buffer.size
  (s.popOutput length).map (s.peekOutput length, ·)

def bytesWritten (s : ByteStream) : Nat := s.written

def bytesRead (s : ByteStream) : Nat := s.readden

/-- The buffers hold the bytes of the abstract stream, and the counters are its counters in 64
bits. -/
structure Represents (s : ByteStream) (a : Sponge.ByteStream) : Prop where
  wf : a.WF
  capacity_lt : a.capacity < 2 ^ 64
  capacity : s.capacity = a.capacity
  written : s.written = a.written % 2 ^ 64
  readden : s.readden = a.readden % 2 ^ 64
  inputEnd : s.inputEnd = a.inputEnd
  contents : s.buffer.concatenate = a.buffer
  error : s.error = a.error

section
variable {s : ByteStream} {a : Sponge.ByteStream}

theorem represents_new (capacity : UInt64) :
    Represents (new capacity) { capacity := capacity.toNat } where
  wf := ByteStream.wf_mk _
  capacity_lt := capacity.toNat_lt
  capacity := rfl
  written := rfl
  readden := rfl
  inputEnd := rfl
  contents := rfl
  error := rfl

theorem Represents.size (h : Represents s a) : s.buffer.size = a.bufferSize := by
  rw [BufferList.size_eq, h.contents]
  rfl

/-- The subtraction does not underflow. -/
theorem Represents.remaining (h : Represents s a) :
    sub64 s.capacity s.buffer.size = a.capacity - a.bufferSize := by
  have hfits := h.wf.fits
  have hlt := h.capacity_lt
  rw [h.capacity, h.size]
  simp only [Sponge.ByteStream.bufferSize]
  exact sub64_of_le hfits (by omega)

theorem Represents.counters (h : Represents s a) :
    sub64 s.bytesWritten s.bytesRead = s.bufferSize := by
  have hfits := h.wf.fits
  have hcount := h.wf.count
  have hlt := h.capacity_lt
  unfold bytesWritten bytesRead bufferSize sub64
  rw [h.written, h.readden, h.size, hcount]
  simp only [Sponge.ByteStream.bufferSize]
  omega

theorem write_represents (h : Represents s a) (data : List UInt8) :
    Represents (s.write data).1 (a.write data).1 ∧ (s.write data).2 = (a.write data).2 := by
  have hlen : (s.write data).2 = (a.write data).2 := by
    simp only [write, Sponge.ByteStream.write, h.remaining]
  refine ⟨?_, hlen⟩
  have hbuf : (s.write data).1.buffer.concatenate = (a.write data).1.buffer := by
    rw [Sponge.ByteStream.write_buffer, ← hlen, ← h.contents]
    simp only [write, BufferList.append_concatenate, BufferList.ofString_concatenate]
  have hwritten : (s.write data).1.written = (s.written + (s.write data).2) % 2 ^ 64 := rfl
  exact {
    wf := h.wf.write data
    capacity_lt := h.capacity_lt
    capacity := h.capacity
    written := by
      rw [hwritten, hlen, h.written, Sponge.ByteStream.write_written]
      exact Nat.mod_add_mod ..
    readden := h.readden
    inputEnd := h.inputEnd
    contents := hbuf
    error := h.error }

theorem peekOutput_represents (h : Represents s a) (n : Nat) :
    s.peekOutput n = a.peekOutput n := by
  unfold peekOutput Sponge.ByteStream.peekOutput
  rw [h.contents, h.size]

/-- `popOutput` does not throw. -/
theorem popOutput_represents (h : Represents s a) (n : Nat) :
    ∃ s', s.popOutput n = .ok s' ∧ Represents s' (a.popOutput n) := by
  obtain ⟨buffer, hr, hcontents⟩ :=
    s.buffer.removePrefix_spec (Nat.min_le_right n s.buffer.size)
  refine ⟨_, by rw [popOutput, hr]; rfl, ?_⟩
  exact {
    wf := h.wf.popOutput n
    capacity_lt := h.capacity_lt
    capacity := h.capacity
    written := h.written
    readden := by
      simp only [h.readden, h.size, Sponge.ByteStream.popOutput]
      exact Nat.mod_add_mod ..
    inputEnd := h.inputEnd
    contents := by
      simp only [hcontents, h.contents, h.size, Sponge.ByteStream.popOutput]
    error := h.error }

/-- `read` does not throw, and returns what the abstract one returns. -/
theorem read_represents (h : Represents s a) (n : Nat) :
    ∃ s', s.read n = .ok ((a.read n).1, s') ∧ Represents s' (a.read n).2 := by
  obtain ⟨s', hp, hrep⟩ := popOutput_represents h (min n s.buffer.size)
  refine ⟨s', ?_, ?_⟩
  · simp only [read, Sponge.ByteStream.read]
    rw [hp, peekOutput_represents h, h.size]
    rfl
  · unfold Sponge.ByteStream.read
    rw [h.size] at hrep
    exact hrep

end

/-! ## Runs -/

/-- The calls on a stream. -/
inductive Op where
  | write (data : List UInt8)
  | peekOutput (len : Nat)
  | popOutput (len : Nat)
  | read (len : Nat)
  deriving DecidableEq, Repr

/-- A stream with the bytes that `write` has accepted and those that were read or popped. -/
structure Record where
  stream : ByteStream
  accepted : List UInt8 := []
  taken : List UInt8 := []
  deriving DecidableEq, Repr

namespace Record

/-- The bytes that `popOutput` discards: as many from the front as the contents lose. -/
def discarded (before after : ByteStream) : List UInt8 :=
  before.buffer.concatenate.take (before.bufferSize - after.bufferSize)

def step (t : Record) : Op → Except String Record
  | .write data =>
    let (stream, len) := t.stream.write data
    .ok { t with stream := stream, accepted := t.accepted ++ data.take len }
  | .peekOutput _ => .ok t
  | .popOutput len =>
    (t.stream.popOutput len).map fun stream =>
      { t with stream := stream, taken := t.taken ++ discarded t.stream stream }
  | .read len =>
    (t.stream.read len).map fun (bytes, stream) =>
      { t with stream := stream, taken := t.taken ++ bytes }

/-- What has been accepted has been taken out or is in the buffers. -/
structure Fifo (t : Record) (a : Sponge.ByteStream) : Prop where
  represents : Represents t.stream a
  order : t.taken ++ a.buffer = t.accepted

section
variable {t : Record} {a : Sponge.ByteStream}

theorem discarded_eq {s s' : ByteStream} {n : Nat} (h : Represents s a)
    (h' : Represents s' (a.popOutput n)) : discarded s s' = a.buffer.take n := by
  unfold discarded bufferSize
  rw [h.contents, h.size, h'.size]
  simp only [Sponge.ByteStream.bufferSize, Sponge.ByteStream.popOutput_buffer, List.length_drop]
  rcases Nat.le_total n a.buffer.length with hle | hge
  · rw [Nat.sub_sub_self hle]
  · rw [Nat.sub_eq_zero_of_le hge, Nat.sub_zero, List.take_length, List.take_of_length_le hge]

/-- Every call keeps the order, and none throws. -/
theorem Fifo.step (h : t.Fifo a) (op : Op) :
    ∃ t' a', t.step op = .ok t' ∧ t'.Fifo a' ∧ a'.capacity = a.capacity := by
  have hrep := h.represents
  cases op with
  | write data =>
    obtain ⟨hw, hlen⟩ := write_represents hrep data
    refine ⟨_, (a.write data).1, rfl, ⟨hw, ?_⟩, rfl⟩
    rw [Sponge.ByteStream.write_buffer, ← List.append_assoc, h.order, ← hlen]
    rfl
  | peekOutput n => exact ⟨t, a, rfl, h, rfl⟩
  | popOutput n =>
    obtain ⟨s', hp, hs⟩ := popOutput_represents hrep n
    refine ⟨_, a.popOutput n, by rw [Record.step, hp]; rfl, ⟨hs, ?_⟩, rfl⟩
    simp only [discarded_eq hrep hs, Sponge.ByteStream.popOutput_buffer]
    rw [List.append_assoc, List.take_append_drop, h.order]
  | read n =>
    obtain ⟨s', hr, hs⟩ := read_represents hrep n
    refine ⟨_, (a.read n).2, by rw [Record.step, hr]; rfl, ⟨hs, ?_⟩, ?_⟩
    · simp only [Sponge.ByteStream.read_eq, Sponge.ByteStream.popOutput_buffer]
      rw [List.append_assoc, List.take_append_drop, h.order]
    · rw [Sponge.ByteStream.read_eq]
      rfl

theorem Fifo.run (h : t.Fifo a) (ops : List Op) :
    ∃ t' a', ops.foldlM Record.step t = .ok t' ∧ t'.Fifo a' ∧ a'.capacity = a.capacity := by
  induction ops generalizing t a with
  | nil => exact ⟨t, a, rfl, h, rfl⟩
  | cons op ops ih =>
    obtain ⟨t1, a1, hstep, h1, hcap1⟩ := h.step op
    obtain ⟨t2, a2, hrun, h2, hcap2⟩ := ih h1
    refine ⟨t2, a2, ?_, h2, hcap2.trans hcap1⟩
    rw [List.foldlM_cons, hstep]
    exact hrun

end

/-- **The byte stream is a bounded FIFO.** No run throws. In the state it leads to, the bytes read
or popped and the contents make up the bytes accepted; `peekOutput` shows the front of the
contents, `read` takes it off and returns it, `popOutput` takes it off; the counters differ by the
size of the contents, which keeps to the capacity, so that the room left is a proper difference,
and `write` accepts what fits into it. -/
theorem bounded_fifo (capacity : UInt64) (ops : List Op) :
    ∃ t, ops.foldlM step { stream := new capacity } = .ok t ∧
      t.taken ++ t.stream.buffer.concatenate = t.accepted ∧
      (∀ n, t.stream.peekOutput n =
        t.stream.buffer.concatenate.take (min n t.stream.bufferSize)) ∧
      (∀ n, ∃ s, t.stream.read n = .ok (t.stream.buffer.concatenate.take n, s) ∧
        s.buffer.concatenate = t.stream.buffer.concatenate.drop n) ∧
      (∀ n, ∃ s, t.stream.popOutput n = .ok s ∧
        s.buffer.concatenate = t.stream.buffer.concatenate.drop n) ∧
      t.stream.buffer.concatenate.length = t.stream.bufferSize ∧
      sub64 t.stream.bytesWritten t.stream.bytesRead = t.stream.bufferSize ∧
      t.stream.bufferSize ≤ capacity.toNat ∧
      t.stream.remainingCapacity = capacity.toNat - t.stream.bufferSize ∧
      ∀ data, (t.stream.write data).2 = min data.length t.stream.remainingCapacity := by
  have h0 : Fifo { stream := new capacity } { capacity := capacity.toNat } :=
    ⟨represents_new capacity, rfl⟩
  obtain ⟨t, a, hrun, h, hcap⟩ := h0.run ops
  have hrep := h.represents
  refine ⟨t, hrun, ?_, fun n => rfl, fun n => ?_, fun n => ?_, ?_, hrep.counters, ?_, ?_,
    fun data => ?_⟩
  · rw [hrep.contents, h.order]
  · obtain ⟨s, hread, hs⟩ := read_represents hrep n
    rw [Sponge.ByteStream.read_eq] at hread hs
    refine ⟨s, by rw [hread, hrep.contents], ?_⟩
    rw [hs.contents, Sponge.ByteStream.popOutput_buffer, hrep.contents]
  · obtain ⟨s, hpop, hs⟩ := popOutput_represents hrep n
    refine ⟨s, hpop, ?_⟩
    rw [hs.contents, Sponge.ByteStream.popOutput_buffer, hrep.contents]
  · rw [bufferSize, BufferList.size_eq]
  · have hfits := hrep.wf.fits
    rw [hcap] at hfits
    rw [bufferSize, hrep.size]
    exact hfits
  · rw [remainingCapacity, hrep.remaining, hcap, bufferSize, hrep.size]
  · rw [(write_represents hrep data).2, Sponge.ByteStream.write_snd, remainingCapacity,
      hrep.remaining]
    rfl

/-- A read, a write of one byte too many, and a pop. -/
def fourByteOps : List Op := [.write [1, 2, 3], .read 2, .write [4, 5, 6, 7], .popOutput 1]

theorem bounded_fifo_four : ∃ t s, fourByteOps.foldlM step { stream := new 4 } = .ok t ∧
    t.taken = [1, 2, 3] ∧ t.accepted = [1, 2, 3, 4, 5, 6] ∧ t.stream.read 2 = .ok ([4, 5], s) ∧
    s.buffer.concatenate = [6] := by
  obtain ⟨t, hrun, -, -, hread, -⟩ := bounded_fifo 4 fourByteOps
  obtain ⟨s, hs, hrest⟩ := hread 2
  cases hrun
  exact ⟨_, s, rfl, rfl, rfl, hs, hrest⟩

end Record

end ByteStream

end Sponge.Storage
