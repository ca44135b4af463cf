import Sponge.Util.EventLoop
import Sponge.ByteStream

/-!
# Copying in both directions

`bidirectional_stream_copy` runs an event loop with four rules: two byte streams
of a mebibyte lie between the standard input and a socket and between the socket
and the standard output. What `poll` and the calls that the callbacks make return
is given for each turn of the loop (`Kernel`).

A `Relay` is one direction, with what has been read and written, and whether its
sink was cancelled before the stream was shut down (`lost`): observations, which
feed back into nothing. `copies_faithfully` says what the function does to the
bytes, in every run.
-/

namespace Sponge

/-- One direction: the stream, and the flag that says that its sink has been shut down. -/
structure Relay where
  stream : ByteStream := { capacity := 1048576 }
  shutdown : Bool := false
  read : List UInt8 := []
  written : List UInt8 := []
  lost : Bool := false
  deriving DecidableEq, Repr

namespace Relay

def MAX_COPY_LENGTH : Nat := 65536

/-- From a descriptor into the stream. -/
def fill (r : Relay) (fd : FileDescriptor) (answer : Option (List UInt8)) :
    Except String Unit × Relay × FileDescriptor :=
  match fd.read r.stream.remainingCapacity answer with
  | (.error what, fd) => (.error what, r, fd)
  | (.ok bytes, fd) =>
    let stream := (r.stream.write bytes).1
    (.ok (), { r with
      stream := if fd.eof then stream.endInput else stream, read := r.read ++ bytes }, fd)

/-- From the stream to a descriptor, which `finish` shuts down at the end of the stream. Bytes of
a call that fails are not counted as written. -/
def drain (r : Relay) (fd : FileDescriptor) (answer : Option Nat)
    (finish : FileDescriptor → Except String Unit × FileDescriptor) :
    Except String Unit × Relay × FileDescriptor :=
  let bytesToWrite := min MAX_COPY_LENGTH r.stream.bufferSize
  let wrote := fd.write [r.stream.peekOutput bytesToWrite] false fun _ => answer
  match wrote.1 with
  | .error what => (.error what, r, wrote.2.fd)
  | .ok bytesWritten =>
    let r := { r with
      stream := r.stream.popOutput bytesWritten, written := r.written ++ wrote.2.device }
    if r.stream.eof then
      match finish wrote.2.fd with
      | (.error what, fd) => (.error what, r, fd)
      | (.ok (), fd) => (.ok (), { r with shutdown := true }, fd)
    else (.ok (), r, wrote.2.fd)

def endInput (r : Relay) : Relay := { r with stream := r.stream.endInput }

/-- Nothing more goes to the sink. -/
def lose (r : Relay) : Relay := { r.endInput with lost := r.lost || !r.shutdown }

/-- Whether there is room, in a stream without error. -/
def wantsMore (r : Relay) : Bool := !r.stream.error && decide (r.stream.remainingCapacity > 0)

def pending (r : Relay) : Bool := !r.stream.bufferEmpty || (r.stream.eof && !r.shutdown)

end Relay

structure StreamCopy where
  socket : FileDescriptor
  input : FileDescriptor := {}
  output : FileDescriptor := {}
  outbound : Relay := {}
  inbound : Relay := {}
  deriving DecidableEq, Repr

namespace StreamCopy

/-- What the system calls of one turn return: of a call for bytes, what has been read; of
`writev`, how much has been taken; of `shutdown` and `close`, whether they succeed. -/
structure Kernel where
  poll : EventLoop.PollResult
  input : Option (List UInt8) := none
  socket : Option (List UInt8) := none
  toSocket : Option Nat := none
  output : Option Nat := none
  shutdown : Bool := true
  close : Bool := true
  deriving DecidableEq, Repr

/-- The rules, in the order in which they are added. -/
inductive Rules where
  | stdin
  | toSocket
  | fromSocket
  | stdout
  deriving DecidableEq, Repr

def rules : List Rules := [.stdin, .toSocket, .fromSocket, .stdout]

/-- `FileDescriptor::close`, of which the system call may fail. -/
def closeOutput (done : Bool) (fd : FileDescriptor) : Except String Unit × FileDescriptor :=
  if done then (.ok (), fd.close) else (.error "close", fd)

def rule (k : Kernel) : Rules → EventLoop.Rule StreamCopy String
  | .stdin =>
    { fd := fun s => s.input
      direction := .input
      callback := fun s =>
        let filled := s.outbound.fill s.input k.input
        (filled.1, { s with outbound := filled.2.1, input := filled.2.2 })
      interest := fun s => s.outbound.wantsMore && !s.inbound.stream.error
      cancel := fun s => { s with outbound := s.outbound.endInput } }
  | .toSocket =>
    { fd := fun s => s.socket
      direction := .output
      callback := fun s =>
        let drained := s.outbound.drain s.socket k.toSocket
          fun fd => Socket.shutdown fd .SHUT_WR k.shutdown
        (drained.1, { s with outbound := drained.2.1, socket := drained.2.2 })
      interest := fun s => s.outbound.pending
      cancel := fun s => { s with outbound := s.outbound.lose } }
  | .fromSocket =>
    { fd := fun s => s.socket
      direction := .input
      callback := fun s =>
        let filled := s.inbound.fill s.socket k.socket
        (filled.1, { s with inbound := filled.2.1, socket := filled.2.2 })
      interest := fun s => s.inbound.wantsMore && !s.outbound.stream.error
      cancel := fun s => { s with inbound := s.inbound.endInput } }
  | .stdout =>
    { fd := fun s => s.output
      direction := .output
      callback := fun s =>
        let drained := s.inbound.drain s.output k.output (closeOutput k.close)
        (drained.1, { s with inbound := drained.2.1, output := drained.2.2 })
      interest := fun s => s.inbound.pending
      cancel := fun s => { s with inbound := s.inbound.lose } }

/-- The function in its loop: how it has ended, if it has. -/
structure Copying where
  rules : List Rules := rules
  state : StreamCopy
  ended : Option (Except String Unit) := none

/-- One turn of the loop. -/
def turn (c : Copying) (k : Kernel) : Copying :=
  if c.ended.isSome then c
  else
    let waited := EventLoop.waitNextEvent (rule k) id c.rules k.poll c.state
    { rules := waited.2.1
      state := waited.2.2
      ended := match waited.1 with
        | .error what => some (.error what)
        | .ok .exit => some (.ok ())
        | .ok _ => none }

/-- `bidirectional_stream_copy`, for the turns that the kernel answers. -/
def bidirectionalStreamCopy (socket : FileDescriptor) (ks : List Kernel) : Copying :=
  Lib.run turn { state := { socket := socket } } ks

end StreamCopy

/-! ## One direction -/

namespace Relay

/-- What has been read is what has been written and what the stream holds; at the shutdown the
stream has ended, and nothing is left in it. -/
structure Inv (r : Relay) : Prop where
  split : r.written ++ r.stream.buffer = r.read
  fits : r.stream.buffer.length ≤ r.stream.capacity
  capacity : r.stream.capacity = 1048576
  error : r.stream.error = false
  shutdown : r.shutdown = true →
    r.stream.inputEnd = true ∧ r.stream.buffer = [] ∧ r.lost = false

/-- The stream has not been ended, unless its source or its sink has. -/
def Open (r : Relay) (source : FileDescriptor) : Prop :=
  r.stream.inputEnd = true → source.eof = true ∨ r.lost = true

/-- What is read now will be written, or the sink is lost. -/
def Takes (r : Relay) : Prop := r.stream.inputEnd = false ∨ r.lost = true

section
variable {r : Relay} {fd : FileDescriptor}

theorem inv_new : Inv {} := ⟨rfl, Nat.zero_le _, rfl, rfl, by rintro ⟨⟩⟩

theorem Inv.takes_shutdown (h : r.Inv) (ht : r.Takes) : r.shutdown = false := by
  by_contra hs
  obtain ⟨hend, -, hlost⟩ := h.shutdown (by simpa using hs)
  rcases ht with ht | ht
  · rw [ht] at hend
    cases hend
  · rw [ht] at hlost
    cases hlost

theorem Inv.endInput (h : r.Inv) : r.endInput.Inv :=
  ⟨h.split, h.fits, h.capacity, h.error, fun hs => ⟨rfl, (h.shutdown hs).2⟩⟩

theorem Inv.lose (h : r.Inv) : r.lose.Inv := by
  refine ⟨h.split, h.fits, h.capacity, h.error, fun hs => ?_⟩
  have hs : r.shutdown = true := hs
  obtain ⟨-, hbuffer, hlost⟩ := h.shutdown hs
  refine ⟨rfl, hbuffer, ?_⟩
  show (r.lost || !r.shutdown) = false
  rw [hlost, hs]
  rfl

/-- A relay whose sink has gone has been shut down, or is lost. -/
theorem lose_gone (r : Relay) : r.lose.lost = true ∨ r.lose.shutdown = true := by
  show (r.lost || !r.shutdown) = true ∨ r.shutdown = true
  cases r.shutdown <;> simp

/-- The relay with `bytes` read, and `eof` the end of the source. -/
def received (r : Relay) (bytes : List UInt8) (eof : Bool) : Relay :=
  { r with
    stream := if eof then (r.stream.write bytes).1.endInput else (r.stream.write bytes).1
    read := r.read ++ bytes }

/-- The relay with `n` bytes written. -/
def sent (r : Relay) (n : Nat) : Relay :=
  { r with stream := r.stream.popOutput n, written := r.written ++ r.stream.buffer.take n }

/-- A read fails, or all that it returns goes into the stream. -/
theorem fill_cases (r : Relay) (fd : FileDescriptor) (answer : Option (List UInt8)) :
    (∃ what ∈ FileDescriptor.readFaults, ∃ fd' : FileDescriptor,
      r.fill fd answer = (.error what, r, fd') ∧ (fd.eof = true → fd'.eof = true)) ∨
    ∃ (bytes : List UInt8) (fd' : FileDescriptor),
      r.fill fd answer = (.ok (), r.received bytes fd'.eof, fd') ∧
      (fd.eof = true → fd'.eof = true) ∧ bytes.length ≤ r.stream.remainingCapacity ∧
      fd'.readCount = fd.readCount + 1 := by
  have hread := fd.read_cases r.stream.remainingCapacity answer
  have heof := fun h : fd.eof = true => FileDescriptor.read_eof h r.stream.remainingCapacity answer
  rw [fill]
  split <;> rename_i fd' heq <;> rw [heq] at hread heof
  · rcases hread with ⟨what, hmem, hw⟩ | ⟨bytes, hb, -⟩
    · obtain rfl := Except.error.inj hw
      exact .inl ⟨_, hmem, fd', rfl, heof⟩
    · cases hb
  · rcases hread with ⟨what, -, hw⟩ | ⟨bytes, hb, hle, hcount⟩
    · cases hw
    · obtain rfl := Except.ok.inj hb
      exact .inr ⟨_, fd', rfl, heof, hle, hcount⟩

/-- A write fails, or what it has taken leaves the stream; at its end the descriptor is
finished. -/
theorem drain_cases (r : Relay) (fd : FileDescriptor) (answer : Option Nat)
    (finish : FileDescriptor → Except String Unit × FileDescriptor) :
    (∃ what ∈ FileDescriptor.writeFaults, ∃ fd' : FileDescriptor,
      r.drain fd answer finish = (.error what, r, fd') ∧ (fd' = fd ∨ fd' = fd.registerWrite)) ∨
    answer ≠ none ∧ ∃ n, ((r.sent n).stream.eof = false ∧
        r.drain fd answer finish = (.ok (), r.sent n, fd.registerWrite)) ∨
      ((r.sent n).stream.eof = true ∧
        ((∃ what fd', finish fd.registerWrite = (.error what, fd') ∧
          r.drain fd answer finish = (.error what, r.sent n, fd')) ∨
        ∃ fd', finish fd.registerWrite = (.ok (), fd') ∧
          r.drain fd answer finish = (.ok (), { r.sent n with shutdown := true }, fd'))) := by
  have hwrite := fd.write_front r.stream.buffer (min MAX_COPY_LENGTH r.stream.bufferSize)
    fun _ => answer
  rw [← ByteStream.peekOutput_eq] at hwrite
  rw [drain]
  simp only
  rcases hwrite with ⟨what, hmem, hbad, hfd⟩ | ⟨hsome, n, hok, hdevice, hfd⟩
  · rw [hbad]
    exact .inl ⟨what, hmem, _, rfl, hfd⟩
  · rw [hok, hfd, hdevice]
    refine .inr ⟨hsome, n, ?_⟩
    show _ = _ ∧ (if (r.sent n).stream.eof = true then _ else _) = _ ∨ _
    cases heof : (r.sent n).stream.eof with
    | false => exact .inl ⟨rfl, if_neg Bool.false_ne_true⟩
    | true =>
      refine .inr ⟨rfl, ?_⟩
      cases hf : finish fd.registerWrite with
      | mk done fd' =>
        cases done with
        | error what => exact .inl ⟨what, fd', rfl, if_pos heof⟩
        | ok _ => exact .inr ⟨fd', rfl, if_pos heof⟩

theorem received_inputEnd (r : Relay) (bytes : List UInt8) (eof : Bool) :
    (r.received bytes eof).stream.inputEnd = (r.stream.inputEnd || eof) := by
  cases eof with
  | true => exact (Bool.or_true _).symm
  | false => exact (Bool.or_false _).symm

theorem received_buffer {bytes : List UInt8} (hle : bytes.length ≤ r.stream.remainingCapacity)
    (eof : Bool) : (r.received bytes eof).stream.buffer = r.stream.buffer ++ bytes := by
  have hbuffer : (r.stream.write bytes).1.buffer = r.stream.buffer ++ bytes := by
    rw [ByteStream.write_buffer, ByteStream.write_snd, Nat.min_eq_left hle, List.take_length]
  cases eof with
  | true => exact hbuffer
  | false => exact hbuffer

theorem Inv.received (h : r.Inv) (ht : r.Takes) {bytes : List UInt8}
    (hle : bytes.length ≤ r.stream.remainingCapacity) (eof : Bool) :
    (r.received bytes eof).Inv := by
  have hcapacity : (r.received bytes eof).stream.capacity = r.stream.capacity := by
    cases eof <;> rfl
  have herror : (r.received bytes eof).stream.error = r.stream.error := by
    cases eof <;> rfl
  refine ⟨?_, ?_, hcapacity.trans h.capacity, herror.trans h.error, fun hs => ?_⟩
  · rw [received_buffer hle]
    show r.written ++ _ = r.read ++ bytes
    rw [← List.append_assoc, h.split]
  · have hfits := h.fits
    rw [received_buffer hle, hcapacity, List.length_append]
    rw [ByteStream.remainingCapacity, ByteStream.bufferSize] at hle
    omega
  · have hs : r.shutdown = true := hs
    rw [h.takes_shutdown ht] at hs
    cases hs

theorem Inv.sent (h : r.Inv) (n : Nat) : (r.sent n).Inv := by
  refine ⟨?_, ?_, h.capacity, h.error, fun hs => ?_⟩
  · show r.written ++ r.stream.buffer.take n ++ (r.stream.popOutput n).buffer = r.read
    rw [ByteStream.popOutput_buffer, List.append_assoc, List.take_append_drop]
    exact h.split
  · show (r.stream.popOutput n).buffer.length ≤ r.stream.capacity
    have hfits := h.fits
    rw [ByteStream.popOutput_buffer, List.length_drop]
    omega
  · have hs : r.shutdown = true := hs
    obtain ⟨hend, hbuffer, hlost⟩ := h.shutdown hs
    refine ⟨hend, ?_, hlost⟩
    show (r.stream.popOutput n).buffer = []
    rw [ByteStream.popOutput_buffer, hbuffer, List.drop_nil]

theorem Inv.finished (h : r.Inv) (heof : r.stream.eof = true) (hlost : r.lost = false) :
    Inv { r with shutdown := true } := by
  obtain ⟨hbuffer, hend⟩ := (ByteStream.eof_iff _).mp heof
  exact ⟨h.split, h.fits, h.capacity, h.error, fun _ => ⟨hend, hbuffer, hlost⟩⟩

/-- What the source's rule does to a relay, as far as the sink's knows. -/
structure Fed (r t : Relay) : Prop where
  lost : t.lost = r.lost
  shutdown : t.shutdown = r.shutdown

/-- What the sink's rule does to a relay, as far as the source's knows. -/
structure Drained (r t : Relay) : Prop where
  ended : r.stream.inputEnd = true → t.stream.inputEnd = true
  ends : t.stream.inputEnd = true → r.stream.inputEnd = true ∨ t.lost = true
  lost : r.lost = true → t.lost = true

theorem Drained.open {t : Relay} {source : FileDescriptor} (h : r.Drained t)
    (ho : r.Open source) : t.Open source := by
  intro hend
  rcases h.ends hend with hr | hlost
  · exact (ho hr).imp_right h.lost
  · exact .inr hlost

theorem Drained.takes {t : Relay} (h : r.Drained t) (ht : r.Takes) : t.Takes := by
  rcases ht with hr | hlost
  · cases hend : t.stream.inputEnd with
    | false => exact .inl hend
    | true =>
      refine .inr ((h.ends hend).resolve_left ?_)
      rw [hr]
      exact Bool.false_ne_true
  · exact .inr (h.lost hlost)

theorem Inv.drained_lose (h : r.Inv) : r.Drained r.lose := by
  refine ⟨fun _ => rfl, fun _ => ?_, fun hlost => ?_⟩
  · cases hs : r.shutdown with
    | true => exact .inl (h.shutdown hs).1
    | false =>
      refine .inr ?_
      show (r.lost || !r.shutdown) = true
      rw [hs, Bool.not_false, Bool.or_true]
  · show (r.lost || !r.shutdown) = true
    rw [hlost, Bool.true_or]

theorem Open.fill (ho : r.Open fd) (answer : Option (List UInt8)) :
    (r.fill fd answer).2.1.Open (r.fill fd answer).2.2 := by
  rcases r.fill_cases fd answer with ⟨what, -, fd', heq, heof⟩ | ⟨bytes, fd', heq, heof, -⟩
  · rw [heq]
    exact fun hend => (ho hend).imp_left heof
  · rw [heq]
    intro hend
    rw [received_inputEnd, Bool.or_eq_true] at hend
    rcases hend with hend | hend
    · exact (ho hend).imp_left heof
    · exact .inl hend

/-- What a call of the source's rule keeps. -/
theorem Inv.fill (h : r.Inv) (ht : r.Takes) (ho : r.Open fd) (answer : Option (List UInt8)) :
    (r.fill fd answer).2.1.Inv ∧ (r.fill fd answer).2.1.Open (r.fill fd answer).2.2 ∧
      r.Fed (r.fill fd answer).2.1 := by
  refine (and_left_comm.mp ⟨ho.fill answer, ?_⟩)
  rcases r.fill_cases fd answer with ⟨what, -, fd', heq, -⟩ | ⟨bytes, fd', heq, -, hle, -⟩
  · rw [heq]
    exact ⟨h, rfl, rfl⟩
  · rw [heq]
    exact ⟨h.received ht hle _, rfl, rfl⟩

/-- What a call of the sink's rule keeps. -/
theorem Inv.drain (h : r.Inv) (hlost : r.lost = false) (fd : FileDescriptor) (answer : Option Nat)
    (finish : FileDescriptor → Except String Unit × FileDescriptor) :
    (r.drain fd answer finish).2.1.Inv ∧ (r.drain fd answer finish).2.1.lost = false ∧
      r.Drained (r.drain fd answer finish).2.1 := by
  have hsame : ∀ t : Relay, t.stream.inputEnd = r.stream.inputEnd → t.lost = r.lost →
      r.Drained t := fun t hend hl =>
    ⟨fun he => hend.trans he, fun he => .inl (hend.symm.trans he), fun he => hl.trans he⟩
  rcases r.drain_cases fd answer finish with ⟨what, -, fd', heq, -⟩ |
    ⟨-, n, ⟨-, heq⟩ | ⟨heof, ⟨what, fd', -, heq⟩ | ⟨fd', -, heq⟩⟩⟩
  · rw [heq]
    exact ⟨h, hlost, hsame _ rfl rfl⟩
  · rw [heq]
    exact ⟨h.sent n, hlost, hsame _ rfl rfl⟩
  · rw [heq]
    exact ⟨h.sent n, hlost, hsame _ rfl rfl⟩
  · rw [heq]
    exact ⟨(h.sent n).finished heof hlost, hlost, hsame _ rfl rfl⟩

theorem fill_fault {answer : Option (List UInt8)} {what : String}
    (hw : (r.fill fd answer).1 = .error what) : what ∈ FileDescriptor.readFaults := by
  rcases r.fill_cases fd answer with ⟨what', hmem, fd', heq, -⟩ | ⟨bytes, fd', heq, -⟩
  · rw [heq] at hw
    rw [← Except.error.inj hw]
    exact hmem
  · rw [heq] at hw
    cases hw

theorem fill_served {answer : Option (List UInt8)} (hok : (r.fill fd answer).1 = .ok ()) :
    (r.fill fd answer).2.2.readCount = fd.readCount + 1 := by
  rcases r.fill_cases fd answer with ⟨what, -, fd', heq, -⟩ | ⟨bytes, fd', heq, -, -, hcount⟩
  · rw [heq] at hok
    cases hok
  · rw [heq]
    exact hcount

theorem drain_fault {answer : Option Nat}
    {finish : FileDescriptor → Except String Unit × FileDescriptor} {what : String}
    (hw : (r.drain fd answer finish).1 = .error what) :
    what ∈ FileDescriptor.writeFaults ∨ ∃ fd', (finish fd').1 = .error what := by
  rcases r.drain_cases fd answer finish with ⟨what', hmem, fd', heq, -⟩ |
    ⟨-, n, ⟨-, heq⟩ | ⟨-, ⟨what', fd', hf, heq⟩ | ⟨fd', -, heq⟩⟩⟩
  · rw [heq] at hw
    rw [← Except.error.inj hw]
    exact .inl hmem
  · rw [heq] at hw
    cases hw
  · rw [heq] at hw
    exact .inr ⟨_, by rw [hf]; exact hw⟩
  · rw [heq] at hw
    cases hw

theorem drain_fd (r : Relay) (fd : FileDescriptor) (answer : Option Nat)
    (finish : FileDescriptor → Except String Unit × FileDescriptor) :
    (r.drain fd answer finish).2.2 = fd ∨ (r.drain fd answer finish).2.2 = fd.registerWrite ∨
      (r.drain fd answer finish).2.2 = (finish fd.registerWrite).2 := by
  rcases r.drain_cases fd answer finish with ⟨what, -, fd', heq, hfd⟩ |
    ⟨-, n, ⟨-, heq⟩ | ⟨-, ⟨what, fd', hf, heq⟩ | ⟨fd', hf, heq⟩⟩⟩
  · rw [heq]
    exact hfd.imp_right .inl
  · rw [heq]
    exact .inr (.inl rfl)
  · rw [heq, hf]
    exact .inr (.inr rfl)
  · rw [heq, hf]
    exact .inr (.inr rfl)

theorem drain_served {answer : Option Nat}
    {finish : FileDescriptor → Except String Unit × FileDescriptor}
    (hok : (r.drain fd answer finish).1 = .ok ()) :
    (r.drain fd answer finish).2.2 = fd.registerWrite ∨
      (r.drain fd answer finish).2.2 = (finish fd.registerWrite).2 := by
  rcases r.drain_cases fd answer finish with ⟨what, -, fd', heq, -⟩ |
    ⟨-, n, ⟨-, heq⟩ | ⟨-, ⟨what, fd', -, heq⟩ | ⟨fd', hf, heq⟩⟩⟩
  · rw [heq] at hok
    cases hok
  · rw [heq]
    exact .inl rfl
  · rw [heq] at hok
    cases hok
  · rw [heq, hf]
    exact .inr rfl

end

end Relay

/-! ## The loop -/

namespace StreamCopy

/-- How the function fails. -/
def faults : List String :=
  FileDescriptor.readFaults ++ FileDescriptor.writeFaults ++
    ["shutdown", "close", EventLoop.polledError]

/-- What is true of a relay while the rule is in the list, and after it was cancelled; what the
rule finds out when it is interested, and when it is not. -/
def contract : EventLoop.Contract Rules StreamCopy String where
  rules := rules
  inv s := s.outbound.Inv ∧ s.inbound.Inv
  live
    | .stdin, s => s.outbound.Open s.input
    | .toSocket, s => s.outbound.lost = false
    | .fromSocket, s => s.inbound.Open s.socket
    | .stdout, s => s.inbound.lost = false
  gone
    | .stdin, s => s.outbound.stream.inputEnd = true
    | .toSocket, s => s.outbound.lost = true ∨ s.outbound.shutdown = true
    | .fromSocket, s => s.inbound.stream.inputEnd = true
    | .stdout, s => s.inbound.lost = true ∨ s.inbound.shutdown = true
  asked
    | .stdin, s => s.outbound.Takes
    | .fromSocket, s => s.inbound.Takes
    | _, _ => True
  idle
    | .stdin, s => s.outbound.stream.remainingCapacity = 0
    | .toSocket, s => s.outbound.pending = false
    | .fromSocket, s => s.inbound.stream.remainingCapacity = 0
    | .stdout, s => s.inbound.pending = false
  fault what := what ∈ faults

section
variable {s : StreamCopy} {r : Relay} {fd : FileDescriptor}

theorem stays_stdin (hr : s.outbound.Fed r) :
    contract.Stays .stdin s { s with outbound := r, input := fd } where
  live
    | .stdin, hj, _ => absurd rfl hj
    | .toSocket, _, h => hr.lost.trans h
    | .fromSocket, _, h => h
    | .stdout, _, h => h
  gone
    | .stdin, hj, _ => absurd rfl hj
    | .toSocket, _, h => h.imp hr.lost.trans hr.shutdown.trans
    | .fromSocket, _, h => h
    | .stdout, _, h => h
  asked
    | .stdin, hj, _, _ => absurd rfl hj
    | .toSocket, _, _, h => h
    | .fromSocket, _, _, h => h
    | .stdout, _, _, h => h

theorem stays_fromSocket (hr : s.inbound.Fed r) :
    contract.Stays .fromSocket s { s with inbound := r, socket := fd } where
  live
    | .stdin, _, h => h
    | .toSocket, _, h => h
    | .fromSocket, hj, _ => absurd rfl hj
    | .stdout, _, h => hr.lost.trans h
  gone
    | .stdin, _, h => h
    | .toSocket, _, h => h
    | .fromSocket, hj, _ => absurd rfl hj
    | .stdout, _, h => h.imp hr.lost.trans hr.shutdown.trans
  asked
    | .stdin, _, _, h => h
    | .toSocket, _, _, h => h
    | .fromSocket, hj, _, _ => absurd rfl hj
    | .stdout, _, _, h => h

/-- The sink of one direction is the source of the other, of which it does not undo the end. -/
theorem stays_toSocket (hr : s.outbound.Drained r) (heof : s.socket.eof = true → fd.eof = true) :
    contract.Stays .toSocket s { s with outbound := r, socket := fd } where
  live
    | .stdin, _, h => hr.open h
    | .toSocket, hj, _ => absurd rfl hj
    | .fromSocket, _, h => fun hend => (h hend).imp_left heof
    | .stdout, _, h => h
  gone
    | .stdin, _, h => hr.ended h
    | .toSocket, hj, _ => absurd rfl hj
    | .fromSocket, _, h => h
    | .stdout, _, h => h
  asked
    | .stdin, _, _, h => hr.takes h
    | .toSocket, hj, _, _ => absurd rfl hj
    | .fromSocket, _, _, h => h
    | .stdout, _, _, h => h

theorem stays_stdout (hr : s.inbound.Drained r) :
    contract.Stays .stdout s { s with inbound := r, output := fd } where
  live
    | .stdin, _, h => h
    | .toSocket, _, h => h
    | .fromSocket, _, h => hr.open h
    | .stdout, hj, _ => absurd rfl hj
  gone
    | .stdin, _, h => h
    | .toSocket, _, h => h
    | .fromSocket, _, h => hr.ended h
    | .stdout, hj, _ => absurd rfl hj
  asked
    | .stdin, _, _, h => h
    | .toSocket, _, _, h => h
    | .fromSocket, _, _, h => hr.takes h
    | .stdout, hj, _, _ => absurd rfl hj

theorem wantsMore_idle (h : r.Inv) {other : Relay} (ho : other.Inv)
    (hw : (r.wantsMore && !other.stream.error) = false) : r.stream.remainingCapacity = 0 := by
  rw [Relay.wantsMore, h.error, ho.error] at hw
  simpa using hw

theorem open_takes (ho : r.Open fd) (heof : fd.eof = false) : r.Takes := by
  cases hend : r.stream.inputEnd with
  | false => exact .inl hend
  | true =>
    refine .inr ((ho hend).resolve_left ?_)
    rw [heof]
    exact Bool.false_ne_true

end

theorem keeps (k : Kernel) : EventLoop.Keeps (rule k) id contract where
  nodup := by decide
  asked
    | .stdin, s, _, hl, hd, _ => open_takes hl (by
        simp only [EventLoop.Rule.dead, rule, Bool.or_eq_false_iff] at hd
        simpa using hd.1)
    | .toSocket, _, _, _, _, _ => trivial
    | .fromSocket, s, _, hl, hd, _ => open_takes hl (by
        simp only [EventLoop.Rule.dead, rule, Bool.or_eq_false_iff] at hd
        simpa using hd.1)
    | .stdout, _, _, _, _, _ => trivial
  idle
    | .stdin, _, hi, _, _, hw => wantsMore_idle hi.1 hi.2 hw
    | .toSocket, _, _, _, _, hw => hw
    | .fromSocket, _, hi, _, _, hw => wantsMore_idle hi.2 hi.1 hw
    | .stdout, _, _, _, _, hw => hw
  callback
    | .stdin, s, hi, hl, hq => by
      obtain ⟨hinv, hopen, hfed⟩ := hi.1.fill hq hl k.input
      exact ⟨⟨hinv, hi.2⟩, hopen, stays_stdin hfed⟩
    | .toSocket, s, hi, hl, _ => by
      obtain ⟨hinv, hlost, hdrained⟩ := hi.1.drain hl s.socket k.toSocket
        fun fd => Socket.shutdown fd .SHUT_WR k.shutdown
      refine ⟨⟨hinv, hi.2⟩, hlost, stays_toSocket hdrained fun heof => ?_⟩
      rcases s.outbound.drain_fd s.socket k.toSocket
        fun fd => Socket.shutdown fd .SHUT_WR k.shutdown with hfd | hfd | hfd
      · rw [hfd]
        exact heof
      · rw [hfd]
        exact heof
      · rw [hfd]
        exact (Socket.shutdown_flags ..).1.trans heof
    | .fromSocket, s, hi, hl, hq => by
      obtain ⟨hinv, hopen, hfed⟩ := hi.2.fill hq hl k.socket
      exact ⟨⟨hi.1, hinv⟩, hopen, stays_fromSocket hfed⟩
    | .stdout, s, hi, hl, _ => by
      obtain ⟨hinv, hlost, hdrained⟩ := hi.2.drain hl s.output k.output (closeOutput k.close)
      exact ⟨⟨hi.1, hinv⟩, hlost, stays_stdout hdrained⟩
  fails
    | .stdin, s, what, _, _, _, hw =>
      List.mem_append_left _ (List.mem_append_left _ (Relay.fill_fault hw))
    | .toSocket, s, what, _, _, _, hw => by
      rcases Relay.drain_fault hw with hmem | ⟨fd', hf⟩
      · exact List.mem_append_left _ (List.mem_append_right _ hmem)
      · rw [Socket.shutdown] at hf
        split at hf
        · cases hf
        · rw [← Except.error.inj hf]
          show "shutdown" ∈ faults
          decide
    | .fromSocket, s, what, _, _, _, hw =>
      List.mem_append_left _ (List.mem_append_left _ (Relay.fill_fault hw))
    | .stdout, s, what, _, _, _, hw => by
      rcases Relay.drain_fault hw with hmem | ⟨fd', hf⟩
      · exact List.mem_append_left _ (List.mem_append_right _ hmem)
      · rw [closeOutput] at hf
        split at hf
        · cases hf
        · rw [← Except.error.inj hf]
          show "close" ∈ faults
          decide
  busy
    | .stdin, s, _, _, _, hok => .inl (by
        show s.input.readCount ≠ (s.outbound.fill s.input k.input).2.2.readCount
        rw [Relay.fill_served hok]
        exact (EventLoop.served_ne _).1)
    | .toSocket, s, _, _, _, hok => .inl (by
        show s.socket.writeCount ≠ (s.outbound.drain s.socket k.toSocket _).2.2.writeCount
        rcases Relay.drain_served hok with hfd | hfd
        · rw [hfd]
          exact (EventLoop.served_ne _).1
        · rw [hfd, Socket.shutdown]
          split
          · exact (EventLoop.served_ne _).2
          · exact (EventLoop.served_ne _).1)
    | .fromSocket, s, _, _, _, hok => .inl (by
        show s.socket.readCount ≠ (s.inbound.fill s.socket k.socket).2.2.readCount
        rw [Relay.fill_served hok]
        exact (EventLoop.served_ne _).1)
    | .stdout, s, _, _, _, hok => .inl (by
        show s.output.writeCount ≠ (s.inbound.drain s.output k.output _).2.2.writeCount
        rcases Relay.drain_served hok with hfd | hfd
        · rw [hfd]
          exact (EventLoop.served_ne _).1
        · rw [hfd, closeOutput]
          split
          · exact (EventLoop.served_ne _).1
          · exact (EventLoop.served_ne _).1)
  cancel
    | .stdin, s, hi, _ => ⟨⟨hi.1.endInput, hi.2⟩, rfl, stays_stdin ⟨rfl, rfl⟩⟩
    | .toSocket, s, hi, _ =>
      ⟨⟨hi.1.lose, hi.2⟩, Relay.lose_gone _, stays_toSocket hi.1.drained_lose fun h => h⟩
    | .fromSocket, s, hi, _ => ⟨⟨hi.1, hi.2.endInput⟩, rfl, stays_fromSocket ⟨rfl, rfl⟩⟩
    | .stdout, s, hi, _ =>
      ⟨⟨hi.1, hi.2.lose⟩, Relay.lose_gone _, stays_stdout hi.2.drained_lose⟩
  cancel_idle i j s hsub hinv hl hidle := by
    cases i <;> cases j <;> first | exact hidle | exact absurd hsub (by decide)
  polled := show EventLoop.polledError ∈ faults by decide

/-- The contract holds, and the function fails in no other way. -/
structure Copied (c : Copying) : Prop where
  holds : contract.Holds c.rules c.state
  fault : ∀ what, c.ended = some (.error what) → what ∈ faults

/-- When the function has returned, no rule that is left is interested. -/
def Returned (c : Copying) : Prop :=
  c.ended = some (.ok ()) → ∀ i ∈ c.rules, contract.idle i c.state

theorem copied_start (socket : FileDescriptor) :
    Copied { state := { socket := socket } } := by
  refine ⟨⟨List.Sublist.refl _, ⟨Relay.inv_new, Relay.inv_new⟩, ?_, ?_⟩, by rintro _ ⟨⟩⟩
  · intro i _
    cases i with
    | stdin | fromSocket =>
      intro hend
      cases hend
    | toSocket | stdout => rfl
  · exact fun i hi hout => absurd hi hout

theorem Copied.turn {c : Copying} (h : Copied c) (k : Kernel) :
    Copied (turn c k) ∧ (Returned c → k.poll ≠ .interrupted → Returned (turn c k)) := by
  rw [StreamCopy.turn]
  split
  · exact ⟨h, fun hr _ => hr⟩
  · obtain ⟨hholds, hfault, hidle⟩ := (keeps k).wait h.holds k.poll
    refine ⟨⟨hholds, fun what hw => ?_⟩, fun _ hne hok => hidle ?_ hne⟩
    · simp only at hw
      split at hw
      · rename_i what' heq
        rw [← Except.error.inj (Option.some.inj hw)]
        exact hfault what' heq
      · cases hw
      · cases hw
    · simp only at hok
      split at hok
      · cases hok
      · rename_i heq
        exact heq
      · cases hok

/-- The rules that are left when the function has returned leave no direction half done. -/
theorem Copied.done {c : Copying} (h : Copied c) (hr : Returned c)
    (hended : c.ended = some (.ok ())) :
    (c.state.outbound.shutdown = true ∨ c.state.outbound.lost = true) ∧
      (c.state.inbound.shutdown = true ∨ c.state.inbound.lost = true) := by
  have hidle := hr hended
  -- an idle sink has an empty stream, so an idle source would have room
  have hrelay : ∀ (r : Relay) (source sink : Rules), r.Inv →
      (source ∈ c.rules → r.stream.remainingCapacity = 0) →
      (source ∉ c.rules → r.stream.inputEnd = true) →
      (sink ∈ c.rules → r.pending = false) →
      (sink ∉ c.rules → r.lost = true ∨ r.shutdown = true) →
      r.shutdown = true ∨ r.lost = true := by
    intro r source sink hinv hfull hended hpending hgone
    by_cases hsink : sink ∈ c.rules
    · have hp := hpending hsink
      rw [Relay.pending, Bool.or_eq_false_iff, Bool.not_eq_false',
        ByteStream.bufferEmpty_iff] at hp
      obtain ⟨hempty, hp⟩ := hp
      by_cases hsource : source ∈ c.rules
      · have hroom := hfull hsource
        rw [ByteStream.remainingCapacity, ByteStream.bufferSize, hempty, hinv.capacity] at hroom
        cases hroom
      · have heof := (ByteStream.eof_iff r.stream).mpr ⟨hempty, hended hsource⟩
        rw [heof] at hp
        exact .inl (by simpa using hp)
    · exact (hgone hsink).symm
  obtain ⟨hout, hin⟩ := h.holds.inv
  have hgone := h.holds.gone
  exact ⟨hrelay _ .stdin .toSocket hout (hidle .stdin) (hgone .stdin (by decide))
      (hidle .toSocket) (hgone .toSocket (by decide)),
    hrelay _ .fromSocket .stdout hin (hidle .fromSocket) (hgone .fromSocket (by decide))
      (hidle .stdout) (hgone .stdout (by decide))⟩

/-- **The copy is faithful**, whatever the kernel answers: in each direction what has been written
and what is in the stream is what has been read, and the sink is shut down only after all of it.
The loop does not fail for its own rules; and when it returns without having been interrupted,
each direction has been shut down or has lost its sink. -/
theorem copies_faithfully (socket : FileDescriptor) (ks : List Kernel) :
    let c := bidirectionalStreamCopy socket ks
    (∀ r ∈ [c.state.outbound, c.state.inbound],
      r.written ++ r.stream.buffer = r.read ∧ r.stream.buffer.length ≤ 1048576 ∧
      (r.shutdown = true → r.stream.inputEnd = true ∧ r.written = r.read)) ∧
    (∀ what, c.ended = some (.error what) → what ∈ faults ∧ what ≠ EventLoop.busyWait) ∧
    ((∀ k ∈ ks, k.poll ≠ .interrupted) → c.ended = some (.ok ()) →
      ∀ r ∈ [c.state.outbound, c.state.inbound], r.shutdown = true ∨ r.lost = true) := by
  have h : Copied (bidirectionalStreamCopy socket ks) :=
    Lib.run_inv (copied_start socket) (fun _ k h => (h.turn k).1) ks
  have hrelay : ∀ r : Relay, r.Inv →
      r.written ++ r.stream.buffer = r.read ∧ r.stream.buffer.length ≤ 1048576 ∧
      (r.shutdown = true → r.stream.inputEnd = true ∧ r.written = r.read) := by
    intro r hr
    refine ⟨hr.split, hr.capacity ▸ hr.fits, fun hs => ?_⟩
    obtain ⟨hend, hbuffer, -⟩ := hr.shutdown hs
    refine ⟨hend, ?_⟩
    rw [← hr.split, hbuffer, List.append_nil]
  refine ⟨?_, fun what hw => ⟨h.fault what hw, ?_⟩, fun hks hended => ?_⟩
  · rw [List.forall_mem_cons, List.forall_mem_singleton]
    exact ⟨hrelay _ h.holds.inv.1, hrelay _ h.holds.inv.2⟩
  · rintro rfl
    exact absurd (h.fault _ hw) (by decide)
  · have hr : Copied (bidirectionalStreamCopy socket ks) ∧
        Returned (bidirectionalStreamCopy socket ks) :=
      Lib.Along.inv (Lib.Along.and_forall (Lib.along_of_forall fun _ _ => trivial) hks)
        (I := fun c => Copied c ∧ Returned c) ⟨copied_start socket, by rintro ⟨⟩⟩
        fun _ k hc hk => ⟨(hc.1.turn k).1, (hc.1.turn k).2 hc.2 hk.2⟩
    rw [List.forall_mem_cons, List.forall_mem_singleton]
    exact h.done hr.2 hended

/-- Two bytes go out, one by one, and one comes in. -/
def shortCopy : List Kernel :=
  [{ poll := .ready [{ pollIn := true }, {}, { pollIn := true }], input := some [104, 105],
     socket := some [111] },
   { poll := .ready [{ pollIn := true }, { pollOut := true }, { pollIn := true },
       { pollOut := true }],
     input := some [], toSocket := some 1, socket := some [], output := some 1 },
   { poll := .ready [{ pollOut := true }], toSocket := some 1 },
   { poll := .timeout }]

theorem copies_shortCopy :
    let c := bidirectionalStreamCopy {} shortCopy
    c.ended = some (.ok ()) ∧ c.state.outbound.written = [104, 105] ∧
      c.state.inbound.written = [111] ∧
      ∀ r ∈ [c.state.outbound, c.state.inbound], r.shutdown = true ∨ r.lost = true := by
  have hended : (bidirectionalStreamCopy {} shortCopy).ended = some (.ok ()) := by decide
  exact ⟨hended, by decide, by decide, (copies_faithfully {} shortCopy).2.2 (by decide) hended⟩

end StreamCopy

end Sponge
