import Sponge.Wire.Codec

/-!
# File descriptors

Of a `FileDescriptor` the two flags and the two counters are kept that its
duplicates share. What a system call returns is an argument, `none` for a call
that fails; what reaches the device is returned beside the result.

`write` repeats a call as long as bytes are left, if it is told to. The kernel may
take as few of them as it likes: what gets to the device is the front of the
buffer, and all of it when the call returns (`write_device`). `Socket::shutdown`
counts as a call too.
-/

namespace Sponge

namespace BufferList

/-- `BufferViewList::remove_prefix`; that of `BufferList` is the same on the bytes. -/
def removePrefix : BufferList → Nat → Except String BufferList
  | [], n => if n > 0 then .error "BufferListView::remove_prefix" else .ok []
  | view :: views, n =>
    if n = 0 then .ok (view :: views)
    else if n < view.length then .ok (view.drop n :: views)
    else removePrefix views (n - view.length)

end BufferList

structure FileDescriptor where
  eof : Bool := false
  closed : Bool := false
  readCount : UInt32 := 0
  writeCount : UInt32 := 0
  deriving DecidableEq, Repr

namespace FileDescriptor

def registerRead (fd : FileDescriptor) : FileDescriptor :=
  { fd with readCount := fd.readCount + 1 }

def registerWrite (fd : FileDescriptor) : FileDescriptor :=
  { fd with writeCount := fd.writeCount + 1 }

/-- The maximum size of a read. -/
def BUFFER_SIZE : Nat := 1024 * 1024

/-- A read, for which the kernel has these bytes. -/
def read (fd : FileDescriptor) (limit : Nat) :
    Option (List UInt8) → Except String (List UInt8) × FileDescriptor
  | none => (.error "read", fd)
  | some bytes =>
    let fd := if limit > 0 ∧ bytes = [] then { fd with eof := true } else fd
    if bytes.length > min BUFFER_SIZE limit then (.error "read() read more than requested", fd)
    else (.ok bytes, fd.registerRead)

/-- `close`, of a descriptor that is open. -/
def close (fd : FileDescriptor) : FileDescriptor := { fd with eof := true, closed := true }

/-- What a call of `write` has come to: what it has written, what is left, and the bytes on the
device. -/
structure Writing where
  fd : FileDescriptor
  total : Nat := 0
  buffer : BufferList
  device : List UInt8 := []
  deriving DecidableEq, Repr

/-- One turn of the loop, of which the kernel takes `answer` bytes. -/
def writeTurn (w : Writing) : Option Nat → Except String Unit × Writing
  | none => (.error "writev", w)
  | some bytesWritten =>
    -- the bytes are on the device before they are counted
    let w := { w with device := w.device ++ w.buffer.flatten.take bytesWritten }
    if bytesWritten = 0 ∧ w.buffer.size ≠ 0 then
      (.error "write returned 0 given non-empty input buffer", w)
    else if bytesWritten > w.buffer.size then
      (.error "write wrote more than length of input buffer", w)
    else
      match w.buffer.removePrefix bytesWritten with
      | .error what => (.error what, { w with fd := w.fd.registerWrite })
      | .ok buffer => (.ok (), { w with
          fd := w.fd.registerWrite, buffer := buffer, total := w.total + bytesWritten })

/-- The loop, with a bound on its turns that it does not reach. -/
def writeLoop (writeAll : Bool) (answers : Nat → Option Nat) :
    Nat → Nat → Writing → Except String Unit × Writing
  | 0, _, w => (.ok (), w)
  | turns + 1, k, w =>
    match writeTurn w (answers k) with
    | (.error what, w) => (.error what, w)
    | (.ok (), w) =>
      if writeAll = true ∧ w.buffer.size ≠ 0 then writeLoop writeAll answers turns (k + 1) w
      else (.ok (), w)

/-- The number of bytes written, or how the call fails, with what it has come to by then. -/
def write (fd : FileDescriptor) (buffer : BufferList) (writeAll : Bool)
    (answers : Nat → Option Nat) : Except String Nat × Writing :=
  let result := writeLoop writeAll answers (buffer.size + 1) 0 { fd := fd, buffer := buffer }
  (result.1.map fun _ => result.2.total, result.2)

end FileDescriptor

/-- No more is removed than there is. -/
theorem BufferList.removePrefix_eq (b : BufferList) : ∀ {n : Nat}, n ≤ b.flatten.length →
    ∃ b', b.removePrefix n = .ok b' ∧ b'.flatten = b.flatten.drop n := by
  induction b with
  | nil =>
    intro n hn
    obtain rfl : n = 0 := Nat.le_zero.mp hn
    exact ⟨[], rfl, rfl⟩
  | cons view views ih =>
    intro n hn
    rw [List.flatten_cons, List.length_append] at hn
    rw [removePrefix]
    by_cases h0 : n = 0
    · exact ⟨view :: views, if_pos h0, by rw [h0, List.drop_zero]⟩
    rw [if_neg h0, List.flatten_cons, List.drop_append]
    by_cases hlt : n < view.length
    · refine ⟨view.drop n :: views, if_pos hlt, ?_⟩
      rw [List.flatten_cons, Nat.sub_eq_zero_of_le (Nat.le_of_lt hlt), List.drop_zero]
    · rw [if_neg hlt, List.drop_of_length_le (Nat.not_lt.mp hlt), List.nil_append]
      exact ih (by omega)

namespace FileDescriptor

/-- How a read fails. -/
def readFaults : List String := ["read", "read() read more than requested"]

/-- How a write fails: no more is removed from the buffer than there is. -/
def writeFaults : List String :=
  ["writev", "write returned 0 given non-empty input buffer",
    "write wrote more than length of input buffer"]

/-- A read gets no more than it asks for, and counts, or it fails. -/
theorem read_cases (fd : FileDescriptor) (limit : Nat) (answer : Option (List UInt8)) :
    (∃ what ∈ readFaults, (fd.read limit answer).1 = .error what) ∨
    ∃ bytes : List UInt8, (fd.read limit answer).1 = .ok bytes ∧ bytes.length ≤ limit ∧
      (fd.read limit answer).2.readCount = fd.readCount + 1 := by
  cases answer with
  | none => exact .inl ⟨_, List.mem_cons_self, rfl⟩
  | some bytes =>
    rw [read]
    split
    · exact .inl ⟨_, List.mem_cons_of_mem _ List.mem_cons_self, rfl⟩
    · rename_i hle
      refine .inr ⟨bytes, rfl, by omega, ?_⟩
      show (ite _ _ _ : FileDescriptor).readCount + 1 = _
      split <;> rfl

/-- A read returns what the kernel has. -/
theorem read_answer {fd : FileDescriptor} {limit : Nat}
    {answer : Option (List UInt8)} {bytes : List UInt8}
    (h : (fd.read limit answer).1 = .ok bytes) : answer = some bytes := by
  cases answer with
  | none => cases h
  | some bytes' =>
    rw [read] at h
    split at h
    · cases h
    · rw [Except.ok.inj h]

/-- Neither flag has changed. -/
def SameFlags (fd fd' : FileDescriptor) : Prop := fd'.eof = fd.eof ∧ fd'.closed = fd.closed

/-- Only a read without bytes reaches the end. -/
theorem read_ends (fd : FileDescriptor) (limit : Nat) (answer : Option (List UInt8)) :
    fd.SameFlags (fd.read limit answer).2 ∨
      (fd.read limit answer).1 = .ok [] ∧ (fd.read limit answer).2.eof = true ∧
        (fd.read limit answer).2.closed = fd.closed := by
  cases answer with
  | none => exact .inl ⟨rfl, rfl⟩
  | some bytes =>
    rw [read]
    by_cases hend : limit > 0 ∧ bytes = []
    · obtain ⟨hlimit, rfl⟩ := hend
      rw [if_neg (by simp), if_pos ⟨hlimit, rfl⟩]
      exact .inr ⟨rfl, rfl, rfl⟩
    · rw [if_neg hend]
      left
      split
      · exact ⟨rfl, rfl⟩
      · exact ⟨rfl, rfl⟩

/-- A read does not take back that the end has been reached. -/
theorem read_eof {fd : FileDescriptor} (h : fd.eof = true) (limit : Nat)
    (answer : Option (List UInt8)) : (fd.read limit answer).2.eof = true := by
  rcases fd.read_ends limit answer with hsame | ⟨-, hend, -⟩
  · exact hsame.1.trans h
  · exact hend

/-- The device has the front of `bytes`, and the rest is left. -/
structure Split (bytes : List UInt8) (w : Writing) : Prop where
  split : w.device ++ w.buffer.flatten = bytes
  total : w.total = w.device.length

section
variable {bytes : List UInt8} {w : Writing} {answer : Option Nat}

/-- A turn that succeeds writes something, unless nothing is left; one that fails leaves the front
of the bytes on the device. -/
theorem writeTurn_split (h : Split bytes w) :
    (∃ what ∈ writeFaults, (writeTurn w answer).1 = .error what ∧
      (writeTurn w answer).2.device <+: bytes) ∨
    (writeTurn w answer).1 = .ok () ∧ Split bytes (writeTurn w answer).2 ∧
      ((writeTurn w answer).2.buffer.size < w.buffer.size ∨
        (writeTurn w answer).2.buffer.size = 0) := by
  have hprefix : ∀ n, w.device ++ w.buffer.flatten.take n <+: bytes := by
    intro n
    rw [← h.split, List.prefix_append_right_inj]
    exact List.take_prefix ..
  cases answer with
  | none =>
    refine .inl ⟨_, List.mem_cons_self, rfl, ?_⟩
    rw [← h.split]
    exact List.prefix_append ..
  | some n =>
    rw [writeTurn]
    simp only
    by_cases hzero : n = 0 ∧ w.buffer.size ≠ 0
    · rw [if_pos hzero]
      exact .inl ⟨_, List.mem_cons_of_mem _ List.mem_cons_self, rfl, hprefix n⟩
    rw [if_neg hzero]
    by_cases hgt : n > w.buffer.size
    · rw [if_pos hgt]
      exact .inl ⟨_, List.mem_cons_of_mem _ (List.mem_cons_of_mem _ List.mem_cons_self), rfl,
        hprefix n⟩
    rw [if_neg hgt]
    have hle : n ≤ w.buffer.flatten.length := by
      rw [← BufferList.size_eq]
      omega
    obtain ⟨b', hb, hflat⟩ := w.buffer.removePrefix_eq hle
    rw [hb]
    refine .inr ⟨rfl, ⟨?_, ?_⟩, ?_⟩
    · rw [hflat, List.append_assoc, List.take_append_drop]
      exact h.split
    · show w.total + n = (w.device ++ w.buffer.flatten.take n).length
      rw [h.total, List.length_append, List.length_take_of_le hle]
    · rw [BufferList.size_eq, BufferList.size_eq, hflat, List.length_drop]
      rw [BufferList.size_eq] at hzero
      omega

theorem writeLoop_split (writeAll : Bool) (answers : Nat → Option Nat) (turns : Nat) :
    ∀ {k : Nat} {w : Writing}, Split bytes w → w.buffer.size < turns →
      (∃ what ∈ writeFaults, (writeLoop writeAll answers turns k w).1 = .error what ∧
        (writeLoop writeAll answers turns k w).2.device <+: bytes) ∨
      (writeLoop writeAll answers turns k w).1 = .ok () ∧
        Split bytes (writeLoop writeAll answers turns k w).2 ∧
        (writeAll = true → (writeLoop writeAll answers turns k w).2.buffer.size = 0) := by
  induction turns with
  | zero => exact fun _ hlt => absurd hlt (Nat.not_lt_zero _)
  | succ turns ih =>
    intro k w h hlt
    have hturn := @writeTurn_split _ _ (answers k) h
    rw [writeLoop]
    split <;> rename_i heq <;> rw [heq] at hturn
    · rcases hturn with ⟨what, hmem, hbad, hp⟩ | ⟨hok, -⟩
      · exact .inl ⟨what, hmem, hbad, hp⟩
      · cases hok
    · obtain ⟨what, -, hbad, -⟩ | ⟨-, hs, hless⟩ := hturn
      · cases hbad
      · split
        · rename_i hmore
          dsimp only at hless
          exact ih hs (by omega)
        · rename_i hdone
          refine .inr ⟨rfl, hs, fun hall => ?_⟩
          by_contra hne
          exact hdone ⟨hall, hne⟩

end

/-- A call fails, with the front of its buffer on the device, or returns how much is there. -/
theorem write_split (fd : FileDescriptor) (buffer : BufferList) (writeAll : Bool)
    (answers : Nat → Option Nat) :
    (∃ what ∈ writeFaults, (fd.write buffer writeAll answers).1 = .error what ∧
      (fd.write buffer writeAll answers).2.device <+: buffer.flatten) ∨
    (fd.write buffer writeAll answers).1 = .ok (fd.write buffer writeAll answers).2.device.length ∧
      Split buffer.flatten (fd.write buffer writeAll answers).2 ∧
      (writeAll = true → (fd.write buffer writeAll answers).2.buffer.size = 0) := by
  have h0 : Split buffer.flatten { fd := fd, buffer := buffer } := ⟨rfl, rfl⟩
  have hloop := writeLoop_split writeAll answers (buffer.size + 1) (k := 0) h0
    (Nat.lt_succ_self _)
  unfold write
  simp only
  rcases hloop with ⟨what, hmem, hbad, hp⟩ | ⟨hok, hs, hall⟩
  · exact .inl ⟨what, hmem, by rw [hbad]; rfl, hp⟩
  · exact .inr ⟨by rw [hok, ← hs.total]; rfl, hs, hall⟩

/-- **A write puts the front of its buffer on the device**, whatever the kernel takes at a time;
when it returns, as many bytes as it says, and all of them if it was told so. -/
theorem write_device (fd : FileDescriptor) (buffer : BufferList) (writeAll : Bool)
    (answers : Nat → Option Nat) :
    (fd.write buffer writeAll answers).2.device <+: buffer.flatten ∧
      ∀ total, (fd.write buffer writeAll answers).1 = .ok total →
        (fd.write buffer writeAll answers).2.device = buffer.flatten.take total ∧
        total ≤ buffer.flatten.length ∧
        (writeAll = true → (fd.write buffer writeAll answers).2.device = buffer.flatten ∧
          total = buffer.flatten.length) := by
  rcases write_split fd buffer writeAll answers with ⟨what, -, hbad, hp⟩ | ⟨hok, hs, hall⟩
  · refine ⟨hp, fun total htotal => ?_⟩
    rw [hbad] at htotal
    cases htotal
  · have hp : (fd.write buffer writeAll answers).2.device <+: buffer.flatten := ⟨_, hs.split⟩
    refine ⟨hp, fun total htotal => ?_⟩
    rw [hok] at htotal
    obtain rfl := Except.ok.inj htotal
    refine ⟨List.prefix_iff_eq_take.mp hp, hp.length_le, fun hw => ?_⟩
    have hnil := hall hw
    rw [BufferList.size_eq, List.length_eq_zero_iff] at hnil
    have hdev := hs.split
    rw [hnil, List.append_nil] at hdev
    rw [hdev]
    exact ⟨rfl, rfl⟩

/-- Three views of five bytes, of which the kernel takes four and then one. -/
example : (write {} [[1, 2], [], [3, 4, 5]] true fun k => some (if k = 0 then 4 else 1)).2.device =
    [1, 2, 3, 4, 5] := by decide

/-- A call that is not told to write everything makes one turn, and counts once. -/
theorem write_once (fd : FileDescriptor) (buffer : BufferList) (answers : Nat → Option Nat) :
    ((fd.write buffer false answers).2.fd = fd ∨
      (fd.write buffer false answers).2.fd = fd.registerWrite) ∧
    ∀ total, (fd.write buffer false answers).1 = .ok total →
      (fd.write buffer false answers).2.fd = fd.registerWrite := by
  have hturn : ∀ w : Writing, ((writeTurn w (answers 0)).2.fd = w.fd ∨
      (writeTurn w (answers 0)).2.fd = w.fd.registerWrite) ∧
      ((writeTurn w (answers 0)).1 = .ok () →
        (writeTurn w (answers 0)).2.fd = w.fd.registerWrite) := by
    intro w
    unfold writeTurn
    cases answers 0 with
    | none => exact ⟨.inl rfl, by rintro ⟨⟩⟩
    | some n =>
      simp only
      split
      · exact ⟨.inl rfl, by rintro ⟨⟩⟩
      · split
        · exact ⟨.inl rfl, by rintro ⟨⟩⟩
        · split
          · exact ⟨.inr rfl, by rintro ⟨⟩⟩
          · exact ⟨.inr rfl, fun _ => rfl⟩
  have hw := hturn { fd := fd, buffer := buffer }
  unfold write writeLoop
  simp only
  split <;> rename_i heq <;> rw [heq] at hw
  · exact ⟨hw.1, by rintro _ ⟨⟩⟩
  · rw [if_neg (by rintro ⟨⟨⟩, -⟩)]
    exact ⟨hw.1, fun _ _ => hw.2 rfl⟩

/-- A call for the front of some bytes fails, or takes the front of them. -/
theorem write_front (fd : FileDescriptor) (bytes : List UInt8) (n : Nat)
    (answers : Nat → Option Nat) :
    (∃ what ∈ writeFaults, (fd.write [bytes.take n] false answers).1 = .error what ∧
      ((fd.write [bytes.take n] false answers).2.fd = fd ∨
        (fd.write [bytes.take n] false answers).2.fd = fd.registerWrite)) ∨
    answers 0 ≠ none ∧ ∃ m, (fd.write [bytes.take n] false answers).1 = .ok m ∧
      (fd.write [bytes.take n] false answers).2.device = bytes.take m ∧
      (fd.write [bytes.take n] false answers).2.fd = fd.registerWrite := by
  have honce := write_once fd [bytes.take n] answers
  rcases write_split fd [bytes.take n] false answers with ⟨what, hmem, hbad, -⟩ | ⟨hok, hs, -⟩
  · exact .inl ⟨what, hmem, hbad, honce.1⟩
  · have hp : (fd.write [bytes.take n] false answers).2.device <+: [bytes.take n].flatten :=
      ⟨_, hs.split⟩
    rw [List.flatten_singleton] at hp
    refine .inr ⟨fun hnone => ?_, _, hok,
      List.prefix_iff_eq_take.mp (hp.trans (List.take_prefix ..)), honce.2 _ hok⟩
    rw [write, writeLoop, hnone] at hok
    cases hok

end FileDescriptor

/-! ## Sockets -/

namespace Socket

inductive How where
  | SHUT_RD
  | SHUT_WR
  | SHUT_RDWR
  deriving DecidableEq, Repr

/-- `done` is whether the system call succeeds. -/
def shutdown (fd : FileDescriptor) (how : How) (done : Bool) :
    Except String Unit × FileDescriptor :=
  if done then
    (.ok (), match how with
      | .SHUT_RD => fd.registerRead
      | .SHUT_WR => fd.registerWrite
      | .SHUT_RDWR => fd.registerRead.registerWrite)
  else (.error "shutdown", fd)

theorem shutdown_flags (fd : FileDescriptor) (how : How) (done : Bool) :
    fd.SameFlags (shutdown fd how done).2 := by
  cases done <;> cases how <;> exact ⟨rfl, rfl⟩

end Socket

end Sponge
