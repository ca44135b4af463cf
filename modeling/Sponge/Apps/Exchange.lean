import Sponge.Apps.StreamCopy
import Sponge.Lib.Books

/-!
# What the copy exchanges with its socket

In a turn of its loop the copy reads from its socket once at most, the bytes that
the kernel has for it, and what it has written to the socket is not taken back
(`turn_exchange`). As long as a hang-up is reported together with input, it ends
its inbound stream only when a read has told it to, or the output is lost
(`turn_told`).
-/

namespace Sponge

open Lib

namespace Relay

section
variable {r : Relay} {fd : FileDescriptor}

theorem fill_fd (r : Relay) (fd : FileDescriptor) (answer : Option (List UInt8)) :
    (r.fill fd answer).2.2 = (fd.read r.stream.remainingCapacity answer).2 := by
  unfold fill
  split <;> rename_i heq <;> rw [heq]

/-- A call of the source's rule reads what the kernel has, or nothing. -/
theorem fill_books (r : Relay) (fd : FileDescriptor) (answer : Option (List UInt8)) :
    ((r.fill fd answer).2.1.written = r.written ∧ (r.fill fd answer).2.1.shutdown = r.shutdown) ∧
      ((r.fill fd answer).2.1.read = r.read ∧ (r.fill fd answer).2.2.eof = fd.eof ∨
      (∃ bytes ∈ answer, (r.fill fd answer).2.1.read = r.read ++ bytes) ∧
        ((r.fill fd answer).2.2.eof = true → fd.eof = true ∨ answer = some [])) := by
  have hanswer : ∀ bytes, (fd.read r.stream.remainingCapacity answer).1 = .ok bytes →
      answer = some bytes := fun _ => FileDescriptor.read_answer
  have hends := fd.read_ends r.stream.remainingCapacity answer
  unfold fill
  split <;> rename_i heq <;> rw [heq] at hanswer hends
  · obtain ⟨heof, -⟩ := hends.resolve_right fun h => nomatch h.1
    exact ⟨⟨rfl, rfl⟩, .inl ⟨rfl, heof⟩⟩
  · refine ⟨⟨rfl, rfl⟩, .inr ⟨⟨_, hanswer _ rfl, rfl⟩, fun heof => ?_⟩⟩
    rcases hends with ⟨hsame, -⟩ | ⟨hnil, -⟩
    · exact .inl (hsame.symm.trans heof)
    · exact .inr (hanswer _ hnil)

/-- A call of the sink's rule reads nothing, and writes only what the kernel takes. -/
theorem drain_books (r : Relay) (fd : FileDescriptor) (answer : Option Nat)
    (finish : FileDescriptor → Except String Unit × FileDescriptor) :
    (r.drain fd answer finish).2.1.read = r.read ∧
      r.written <+: (r.drain fd answer finish).2.1.written ∧
      (r.shutdown = true → (r.drain fd answer finish).2.1.shutdown = true) ∧
      (answer = none → (r.drain fd answer finish).2.1.written = r.written) := by
  rcases r.drain_cases fd answer finish with ⟨what, -, fd', heq, -⟩ |
    ⟨hsome, n, ⟨-, heq⟩ | ⟨-, ⟨what, fd', -, heq⟩ | ⟨fd', -, heq⟩⟩⟩ <;> rw [heq]
  · exact ⟨rfl, List.prefix_rfl, id, fun _ => rfl⟩
  · exact ⟨rfl, List.prefix_append .., id, fun hnone => absurd hnone hsome⟩
  · exact ⟨rfl, List.prefix_append .., id, fun hnone => absurd hnone hsome⟩
  · exact ⟨rfl, List.prefix_append .., fun _ => rfl, fun hnone => absurd hnone hsome⟩

/-- A call of the sink's rule does not end the stream, and shuts down only one that has ended. -/
theorem drain_ends (r : Relay) (fd : FileDescriptor) (answer : Option Nat)
    (finish : FileDescriptor → Except String Unit × FileDescriptor) :
    (r.drain fd answer finish).2.1.stream.inputEnd = r.stream.inputEnd ∧
      (r.drain fd answer finish).2.1.lost = r.lost ∧
      ((r.drain fd answer finish).2.1.shutdown = true →
        r.shutdown = true ∨ r.stream.inputEnd = true) := by
  rcases r.drain_cases fd answer finish with ⟨what, -, fd', heq, -⟩ |
    ⟨-, n, ⟨-, heq⟩ | ⟨heof, ⟨what, fd', -, heq⟩ | ⟨fd', -, heq⟩⟩⟩ <;> rw [heq]
  · exact ⟨rfl, rfl, .inl⟩
  · exact ⟨rfl, rfl, .inl⟩
  · exact ⟨rfl, rfl, .inl⟩
  · refine ⟨rfl, rfl, fun _ => .inr ?_⟩
    rw [ByteStream.eof, Bool.and_eq_true] at heof
    exact heof.2

end

end Relay

namespace StreamCopy

open Lib.Books (Grows Takes)

/-- What has been taken from the socket, and given to it. -/
def books (s : StreamCopy) : Books UInt8 where
  taken := s.inbound.read
  told := s.socket.eof
  given := s.outbound.written
  ended := s.outbound.shutdown

/-- The inbound stream has not been ended, unless the socket has ended or the output is lost. -/
structure Told (s : StreamCopy) : Prop where
  closed : s.socket.closed = false
  ends : s.inbound.Open s.socket
  shutdown : s.inbound.shutdown = true → s.inbound.stream.inputEnd = true

section
variable {k : Kernel} {c : Copying} {s : StreamCopy}

theorem grows_cancel (k : Kernel) (i : Rules) (s : StreamCopy) :
    s.books.Grows ((rule k i).cancel s).books := by
  cases i <;> exact Grows.refl _

theorem sameFlags_toSocket (s : StreamCopy) (answer : Option Nat) (done : Bool) :
    s.socket.SameFlags (s.outbound.drain s.socket answer
      fun fd => Socket.shutdown fd .SHUT_WR done).2.2 := by
  rcases s.outbound.drain_fd s.socket answer fun fd => Socket.shutdown fd .SHUT_WR done
    with hfd | hfd | hfd <;> rw [hfd]
  · exact ⟨rfl, rfl⟩
  · exact ⟨rfl, rfl⟩
  · exact Socket.shutdown_flags s.socket.registerWrite .SHUT_WR done

theorem grows_callback {i : Rules} (hi : i ≠ .fromSocket) (k : Kernel) (s : StreamCopy) :
    s.books.Grows ((rule k i).callback s).2.books := by
  cases i with
  | stdin =>
    obtain ⟨hwritten, hshut⟩ := (s.outbound.fill_books s.input k.input).1
    exact ⟨rfl, rfl, ⟨[], (List.append_nil _).trans hwritten.symm⟩, hshut.trans⟩
  | toSocket =>
    obtain ⟨-, hwritten, hshut, -⟩ := s.outbound.drain_books s.socket k.toSocket
      fun fd => Socket.shutdown fd .SHUT_WR k.shutdown
    exact ⟨rfl, (sameFlags_toSocket s k.toSocket k.shutdown).1, hwritten, hshut⟩
  | fromSocket => exact absurd rfl hi
  | stdout =>
    exact ⟨(s.inbound.drain_books s.output k.output _).1, rfl, List.prefix_rfl, id⟩

theorem exchange_fromSocket (k : Kernel) (s : StreamCopy) :
    s.books.Grows ((rule k .fromSocket).callback s).2.books ∨
      s.books.Takes k.socket ((rule k .fromSocket).callback s).2.books :=
  (s.inbound.fill_books s.socket k.socket).2.imp
    (fun h => ⟨h.1, h.2, List.prefix_rfl, id⟩) fun h => ⟨h.1, h.2, List.prefix_rfl, id⟩

/-- **What a turn exchanges.** The copy takes once at most, the bytes that the kernel has for
it. -/
theorem turn_exchange (hn : c.rules.Nodup) (k : Kernel) :
    c.state.books.Grows (turn c k).state.books ∨
      c.state.books.Takes k.socket (turn c k).state.books := by
  rw [turn]
  split
  · exact .inl (Grows.refl _)
  · exact EventLoop.wait_once (i := .fromSocket) (P := fun t => c.state.books.Grows t.books)
      (Q := fun t => c.state.books.Takes k.socket t.books) hn
      (fun j t ht => ht.trans (grows_cancel k j t)) (fun j t ht => ht.grows (grows_cancel k j t))
      (fun j hj t ht => ht.trans (grows_callback hj k t))
      (fun j hj t ht => ht.grows (grows_callback hj k t))
      (fun t ht => (exchange_fromSocket k t).imp ht.trans ht.takes) k.poll (Grows.refl _)

/-- A kernel that takes nothing is given nothing. -/
theorem turn_silent (hk : k.toSocket = none) :
    (turn c k).state.books.given = c.state.books.given := by
  rw [turn]
  split
  · rfl
  · refine EventLoop.wait_inv (P := fun t : StreamCopy => t.books.given = c.state.books.given)
      (fun j t ht => ?_) (fun j t ht => Eq.trans ?_ ht) k.poll rfl
    · cases j <;> exact ht
    · cases j with
      | stdin => exact (t.outbound.fill_books t.input k.input).1.1
      | toSocket => exact (t.outbound.drain_books t.socket k.toSocket _).2.2.2 hk
      | fromSocket | stdout => rfl

theorem told_stdout (ht : s.Told) : ((rule k .stdout).cancel s).Told ∧
    ((rule k .stdout).callback s).2.Told := by
  refine ⟨⟨ht.closed, fun _ => ?_, fun _ => rfl⟩, ⟨ht.closed, ?_, ?_⟩⟩
  · show s.socket.eof = true ∨ (s.inbound.lost || !s.inbound.shutdown) = true
    cases hs : s.inbound.shutdown with
    | false => exact .inr (Bool.or_true _)
    | true =>
      refine (ht.ends (ht.shutdown hs)).imp_right fun hlost => ?_
      rw [hlost, Bool.true_or]
  · obtain ⟨hend, hlost, -⟩ := s.inbound.drain_ends s.output k.output (closeOutput k.close)
    exact fun he => (ht.ends (hend.symm.trans he)).imp_right hlost.trans
  · obtain ⟨hend, -, hshut⟩ := s.inbound.drain_ends s.output k.output (closeOutput k.close)
    exact fun hs => hend.trans ((hshut hs).elim ht.shutdown id)

theorem told_callback (k : Kernel) (i : Rules) (ht : s.Told) :
    ((rule k i).callback s).2.Told := by
  cases i with
  | stdin => exact ⟨ht.closed, ht.ends, ht.shutdown⟩
  | toSocket =>
    obtain ⟨heof, hclosed⟩ := sameFlags_toSocket s k.toSocket k.shutdown
    exact ⟨hclosed.trans ht.closed, fun he => (ht.ends he).imp_left heof.trans, ht.shutdown⟩
  | fromSocket =>
    refine ⟨?_, ht.ends.fill k.socket, fun hs => ?_⟩
    · show (s.inbound.fill s.socket k.socket).2.2.closed = false
      rw [Relay.fill_fd]
      rcases s.socket.read_ends s.inbound.stream.remainingCapacity k.socket
        with ⟨-, hclosed⟩ | ⟨-, -, hclosed⟩
      · exact hclosed.trans ht.closed
      · exact hclosed.trans ht.closed
    · have hend := ht.shutdown ((s.inbound.fill_books s.socket k.socket).1.2.symm.trans hs)
      show (s.inbound.fill s.socket k.socket).2.1.stream.inputEnd = true
      rcases s.inbound.fill_cases s.socket k.socket with ⟨what, -, fd', heq, -⟩ |
        ⟨bytes, fd', heq, -⟩ <;> rw [heq]
      · exact hend
      · rw [Relay.received_inputEnd, hend, Bool.true_or]
  | stdout => exact (told_stdout ht).2

/-- **When the copy ends its inbound stream.** It has been told to by a read, or has lost its
output, if a hang-up of the socket is reported together with input. -/
theorem turn_told (hup : EventLoop.ReadableHup (rule k) c.rules .fromSocket c.state k.poll)
    (ht : c.state.Told) : (turn c k).state.Told := by
  rw [turn]
  split
  · exact ht
  · refine EventLoop.wait_dead (i := .fromSocket) (P := Told) rfl (fun j hj t ht => ?_)
      (fun t ht hdead => ⟨ht.closed, fun _ => .inl ?_, fun _ => rfl⟩)
      (fun j t ht => told_callback k j ht) hup ht
    · cases j with
      | stdin => exact ⟨ht.closed, ht.ends, ht.shutdown⟩
      | toSocket => exact ⟨ht.closed, ht.ends, ht.shutdown⟩
      | fromSocket => exact absurd rfl hj
      | stdout => exact (told_stdout ht).1
    · exact EventLoop.Rule.dead_eof hdead ht.closed

end

end StreamCopy

end Sponge
