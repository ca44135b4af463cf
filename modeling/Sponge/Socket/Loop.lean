import Sponge.Internet.Safety
import Sponge.Socket.Model

/-!
# What the loop of a socket keeps

`FullStack.Inv` is what holds between two calls of the loops: the log is a run of
the internet without a late write, each connection has been written what was
taken from its application, and each application has been given what was read
from its connection. The four rules keep it (`keeps`), and so does every event
(`Inv.step`).
-/

namespace Sponge

open Lib EventLoop

/-! ## Frames -/

namespace Internet

section
variable {s : Internet} {x : Side} {ev : Event}

theorem reads_step (s : Internet) (ev : Event) (x : Side) :
    (s.host x).endpoint.reads <+: ((s.step ev).host x).endpoint.reads := by
  rcases step_endpoint s ev x with heq | ⟨op, heard, -, heq⟩
  · exact heq ▸ List.prefix_rfl
  · rw [heq]
    exact List.prefix_append ..

/-- An outbound stream that has ended stays so. -/
theorem ended_step (ev : Event)
    (h : (s.host x).endpoint.conn.sender.stream.inputEnded = true) :
    ((s.step ev).host x).endpoint.conn.sender.stream.inputEnded = true := by
  rcases step_endpoint s ev x with heq | ⟨op, heard, -, heq⟩
  · rw [heq]
    exact h
  · rw [heq]
    refine (TCPConnection.step_outbound _ op).trans ?_
    rw [show (s.host x).endpoint.conn.sender.stream.inputEnd = true from h, Bool.true_or]

theorem error_step (ev : Event) (hi : (s.host x).endpoint.conn.receiver.Inv)
    (h : (s.host x).endpoint.conn.inboundStream.error = true) :
    ((s.step ev).host x).endpoint.conn.inboundStream.error = true := by
  rcases step_endpoint s ev x with heq | ⟨op, heard, -, heq⟩
  · rw [heq]
    exact h
  · rw [heq]
    exact TCPConnection.step_inbound_error _ op hi h

/-- Nothing is written after the end. -/
theorem wrote_ended (hw : s.NoLateWrite ev)
    (h : (s.host x).endpoint.conn.sender.stream.inputEnded = true) :
    ((s.step ev).host x).endpoint.wrote = (s.host x).endpoint.wrote := by
  rcases step_endpoint s ev x with heq | ⟨op, heard, hcall, heq⟩
  · rw [heq]
  · rw [heq]
    show (s.host x).endpoint.wrote ++ (s.host x).endpoint.writes op = _
    rw [Endpoint.writes_eq_nil, List.append_nil]
    rintro data rfl
    cases ev with
    | write z data' =>
      obtain ⟨rfl, -⟩ := hcall
      rw [show (s.host x).endpoint.conn.sender.stream.inputEnded = false from hw] at h
      cases h
    | connect _ | endInputStream _ | tick _ _ | read _ _ => cases hcall.2
    | receive _ _ =>
      obtain ⟨-, seg, hop⟩ := hcall
      cases hop
    | flush _ | age _ _ | arrive _ _ _ | route _ | ageRouter _ _ _ => cases hcall

/-- The event is no call of an application. -/
def Event.Quiet : Event → Prop
  | .write _ _ | .endInputStream _ | .read _ _ => False
  | .connect _ | .tick _ _ | .receive _ _ | .flush _ | .age _ _ | .arrive _ _ _ | .route _
  | .ageRouter _ _ _ => True

theorem Event.Quiet.noLateWrite (h : ev.Quiet) (s : Internet) : s.NoLateWrite ev := by
  cases ev with
  | write _ _ => exact h.elim
  | connect _ | endInputStream _ | tick _ _ | read _ _ | receive _ _ | flush _ | age _ _
  | arrive _ _ _ | route _ | ageRouter _ _ _ => trivial

/-- A quiet event writes nothing, reads nothing and ends nothing. -/
theorem Event.Quiet.step (h : ev.Quiet) (s : Internet) (x : Side) :
    ((s.step ev).host x).endpoint.wrote = (s.host x).endpoint.wrote ∧
      ((s.step ev).host x).endpoint.reads = (s.host x).endpoint.reads ∧
      ((s.step ev).host x).endpoint.conn.sender.stream.inputEnded =
        (s.host x).endpoint.conn.sender.stream.inputEnded := by
  have hquiet : ∀ (e : Endpoint) (op : TCPConnection.Op) (heard : Nat), ev.Calls x op →
      (e.step op heard).wrote = e.wrote ∧ (e.step op heard).reads = e.reads ∧
        (e.step op heard).conn.sender.stream.inputEnded = e.conn.sender.stream.inputEnded := by
    intro e op heard hcall
    have hop : e.writes op = [] ∧ e.readsOf op = [] ∧ op ≠ .endInputStream := by
      cases ev with
      | write _ _ | endInputStream _ | read _ _ => exact h.elim
      | connect _ | tick _ _ =>
        obtain ⟨-, rfl⟩ := hcall
        exact ⟨rfl, rfl, by rintro ⟨⟩⟩
      | receive _ _ =>
        obtain ⟨-, seg, rfl⟩ := hcall
        exact ⟨rfl, rfl, by rintro ⟨⟩⟩
      | flush _ | age _ _ | arrive _ _ _ | route _ | ageRouter _ _ _ => cases hcall
    obtain ⟨hwrites, hreads, hne⟩ := hop
    refine ⟨?_, ?_, (TCPConnection.step_outbound e.conn op).trans ?_⟩
    · show e.wrote ++ e.writes op = e.wrote
      rw [hwrites, List.append_nil]
    · show e.reads ++ e.readsOf op = e.reads
      rw [hreads, List.append_nil]
    · rw [decide_eq_false hne, Bool.or_false]
      rfl
  rcases step_endpoint s ev x with heq | ⟨op, heard, hcall, heq⟩
  · rw [heq]
    exact ⟨rfl, rfl, rfl⟩
  · rw [heq]
    exact hquiet _ op heard hcall

end

end Internet

/-- The sockets are as far as each other: their descriptors, rules and phases may differ. -/
structure TCPSpongeSocket.Same (k k' : TCPSpongeSocket) : Prop where
  taken : k'.taken = k.taken
  given : k'.given = k.given
  outboundShutdown : k'.outboundShutdown = k.outboundShutdown
  inboundShutdown : k'.inboundShutdown = k.inboundShutdown

/-- The loop does not fail for its own rules, nor because the connection has taken less than it has
room for. -/
def SocketFault.Foreign (fault : SocketFault) : Prop :=
  fault ≠ .acceptedLess ∧ fault ≠ .eventLoop busyWait

theorem TCPSpongeSocket.same_refl (k : TCPSpongeSocket) : k.Same k := ⟨rfl, rfl, rfl, rfl⟩

namespace FullStack

section
variable (s : FullStack) (x : Side) (f : TCPSpongeSocket → TCPSpongeSocket) (ev : Internet.Event)

@[simp] theorem socket_update : (s.update x f).socket x = f (s.socket x) := by cases x <;> rfl

@[simp] theorem socket_update_other : (s.update x f).socket x.other = s.socket x.other := by
  cases x <;> rfl

@[simp] theorem update_internet : (s.update x f).internet = s.internet := by cases x <;> rfl

@[simp] theorem update_events : (s.update x f).events = s.events := by cases x <;> rfl

@[simp] theorem does_internet : (s.does x ev).internet = s.internet.step ev := update_internet ..

@[simp] theorem does_events : (s.does x ev).events = s.events ++ [ev] := update_events ..

theorem update_same (hf : ∀ k : TCPSpongeSocket, k.Same (f k)) (z : Side) :
    (s.socket z).Same ((s.update x f).socket z) := by
  rcases side_cases x z with rfl | rfl
  · rw [socket_update]
    exact hf _
  · rw [socket_update_other]
    exact (s.socket x.other).same_refl

theorem does_same (z : Side) : (s.socket z).Same ((s.does x ev).socket z) := by
  refine update_same (s.passes ev) x _ (fun _ => ?_) z
  exact ⟨rfl, rfl, rfl, rfl⟩

end

/-- Nothing out of reach, and no early FIN, has been delivered to `x`. -/
def Untruncated (i0 : Internet) (x : Side) (s : FullStack) : Prop :=
  Along Internet.step Internet.InReach i0 s.events ∧ Short s.internet.system ∧
    Along Internet.step (Internet.NoEarlyFin x) i0 s.events

/-- What holds between two calls of the loops. -/
structure Inv (isn : Side → WrappingInt32) (i0 : Internet) (s : FullStack) : Prop where
  ran : Internet.Ran isn i0 s.events s.internet
  taken : ∀ x, (s.socket x).taken = (s.internet.host x).endpoint.wrote
  given : ∀ x, (s.socket x).given = (s.internet.host x).endpoint.reads
  outbound : ∀ x, (s.conn x).sender.stream.inputEnded = (s.socket x).outboundShutdown
  inbound : ∀ x, (s.socket x).inboundShutdown = true → (s.conn x).inboundStream.error = false →
    s.Untruncated i0 x →
    (s.internet.host x).endpoint.reads = (s.internet.host x.other).endpoint.wrote ∧
      (s.conn x.other).sender.stream.inputEnded = true

section
variable {isn : Side → WrappingInt32} {i0 : Internet} {s s' : FullStack} {x : Side}
  {ev : Internet.Event}

theorem Inv.same (h : s.Inv isn i0) (hi : s'.internet = s.internet) (he : s'.events = s.events)
    (hs : ∀ z, (s.socket z).Same (s'.socket z)) : s'.Inv isn i0 where
  ran := by
    rw [hi, he]
    exact h.ran
  taken z := by
    rw [(hs z).taken, hi]
    exact h.taken z
  given z := by
    rw [(hs z).given, hi]
    exact h.given z
  outbound z := by
    rw [(hs z).outboundShutdown, conn, hi]
    exact h.outbound z
  inbound z := by
    unfold Untruncated conn
    rw [(hs z).inboundShutdown, hi, he]
    exact h.inbound z

/-- **The step.** Once an application has been told the end of the stream, it has been given all
of it, and no more is written. -/
theorem Inv.next (h : s.Inv isn i0) (hw : s.internet.NoLateWrite ev)
    (hi : s'.internet = s.internet.step ev) (he : s'.events = s.events ++ [ev])
    (ht : ∀ z, (s'.socket z).taken = (s'.internet.host z).endpoint.wrote)
    (hg : ∀ z, (s'.socket z).given = (s'.internet.host z).endpoint.reads)
    (ho : ∀ z, (s'.conn z).sender.stream.inputEnded = (s'.socket z).outboundShutdown)
    (hs : ∀ z, (s'.socket z).inboundShutdown = (s.socket z).inboundShutdown) :
    s'.Inv isn i0 := by
  have hran : Internet.Ran isn i0 s'.events s'.internet := by
    rw [hi, he]
    exact h.ran.step hw
  refine ⟨hran, ht, hg, ho, fun z hshut herr hclean => ?_⟩
  obtain ⟨hr', hshort', hfin'⟩ := hclean
  have hprefix := hran.received hr' hshort' z
  rw [he] at hr' hfin'
  rw [conn, hi] at herr
  rw [hi] at hshort' hprefix
  obtain ⟨hr, -⟩ := (Internet.along_snoc h.ran.run).mp hr'
  obtain ⟨hfin, -⟩ := (Internet.along_snoc h.ran.run).mp hfin'
  have hshort := Internet.short_step hshort'
  have hinv := ((h.ran.linked hr hshort).1.hears z).inv
  rw [Internet.system_endpoint] at hinv
  have herr0 : (s.conn z).inboundStream.error = false := by
    by_contra hn
    rw [Internet.error_step ev hinv (Bool.eq_true_of_not_eq_false hn)] at herr
    cases herr
  obtain ⟨heq, hend⟩ := h.inbound z ((hs z).symm.trans hshut) herr0 ⟨hr, hshort, hfin⟩
  unfold conn at hend ⊢
  rw [hi]
  refine ⟨?_, Internet.ended_step ev hend⟩
  -- what is read lies between what was read, which is everything, and what is written
  have hwrote := Internet.wrote_ended (x := z.other) hw hend
  have hreads := Internet.reads_step s.internet ev z
  have hle : ((s.internet.step ev).host z).endpoint.reads <+:
      ((s.internet.step ev).host z.other).endpoint.wrote := (List.prefix_append ..).trans hprefix
  rw [hwrote] at hle ⊢
  refine hle.eq_of_length (Nat.le_antisymm hle.length_le ?_)
  rw [← heq]
  exact hreads.length_le

/-- A quiet event changes nothing that an application sees. -/
theorem Inv.quiet (h : s.Inv isn i0) (hq : ev.Quiet) (hi : s'.internet = s.internet.step ev)
    (he : s'.events = s.events ++ [ev]) (hs : ∀ z, (s.socket z).Same (s'.socket z)) :
    s'.Inv isn i0 := by
  refine h.next (hq.noLateWrite _) hi he (fun z => ?_) (fun z => ?_) (fun z => ?_) fun z =>
    (hs z).inboundShutdown
  · rw [(hs z).taken, hi, (hq.step s.internet z).1]
    exact h.taken z
  · rw [(hs z).given, hi, (hq.step s.internet z).2.1]
    exact h.given z
  · rw [(hs z).outboundShutdown, conn, hi, (hq.step s.internet z).2.2]
    exact h.outbound z

theorem Inv.does (h : s.Inv isn i0) (hq : ev.Quiet) (x : Side) : (s.does x ev).Inv isn i0 :=
  h.quiet hq (does_internet ..) (does_events ..) (does_same s x ev)

theorem Inv.passes (h : s.Inv isn i0) (hq : ev.Quiet) : (s.passes ev).Inv isn i0 :=
  h.quiet hq rfl rfl fun z => by cases z <;> exact TCPSpongeSocket.same_refl _

theorem Inv.update {f : TCPSpongeSocket → TCPSpongeSocket} (h : s.Inv isn i0)
    (hf : ∀ k : TCPSpongeSocket, k.Same (f k)) (x : Side) : (s.update x f).Inv isn i0 :=
  h.same (update_internet ..) (update_events ..) (update_same s x f hf)

/-- The call of an operation by `x`, which keeps its books. -/
theorem Inv.called (h : s.Inv isn i0) (hw : s.internet.NoLateWrite ev) (op : TCPConnection.Op)
    (hev : s.internet.step ev = s.internet.call x op) (hi : s'.internet = s.internet.step ev)
    (he : s'.events = s.events ++ [ev])
    (hother : (s.socket x.other).Same (s'.socket x.other))
    (ht : (s'.socket x).taken = (s.socket x).taken ++ (s.internet.host x).endpoint.writes op)
    (hg : (s'.socket x).given = (s.socket x).given ++ (s.internet.host x).endpoint.readsOf op)
    (ho : (s'.socket x).outboundShutdown =
      ((s.socket x).outboundShutdown || decide (op = .endInputStream)))
    (hs : (s'.socket x).inboundShutdown = (s.socket x).inboundShutdown) : s'.Inv isn i0 := by
  obtain ⟨hself, hrest⟩ := Internet.endpoint_call s.internet x op
  rw [← hev, ← hi] at hself hrest
  refine h.next hw hi he (fun z => ?_) (fun z => ?_) (fun z => ?_) fun z => ?_ <;>
    rcases side_cases x z with rfl | rfl
  · rw [ht, hself, h.taken]
    rfl
  · rw [hother.taken, hrest]
    exact h.taken x.other
  · rw [hg, hself, h.given]
    rfl
  · rw [hother.given, hrest]
    exact h.given x.other
  · rw [ho, conn, hself, ← h.outbound]
    exact TCPConnection.step_outbound ..
  · rw [hother.outboundShutdown, conn, hrest]
    exact h.outbound x.other
  · exact hs
  · exact hother.inboundShutdown

/-- The end may be told when the stream has ended and is empty, or has failed. -/
theorem Inv.shut (h : s.Inv isn i0) {f : TCPSpongeSocket → TCPSpongeSocket}
    (hf : ∀ k : TCPSpongeSocket, (f k).taken = k.taken ∧ (f k).given = k.given ∧
      (f k).outboundShutdown = k.outboundShutdown)
    (hend : (s.conn x).inboundStream.eof = true ∨ (s.conn x).inboundStream.error = true) :
    (s.update x f).Inv isn i0 := by
  have hother := (s.socket x.other).same_refl
  refine ⟨?_, fun z => ?_, fun z => ?_, fun z => ?_, fun z => ?_⟩
  · rw [update_internet, update_events]
    exact h.ran
  · rw [update_internet, ← h.taken]
    rcases side_cases x z with rfl | rfl
    · rw [socket_update, (hf _).1]
    · rw [socket_update_other]
  · rw [update_internet, ← h.given]
    rcases side_cases x z with rfl | rfl
    · rw [socket_update, (hf _).2.1]
    · rw [socket_update_other]
  · rw [conn, update_internet]
    refine (h.outbound z).trans ?_
    rcases side_cases x z with rfl | rfl
    · rw [socket_update, (hf _).2.2]
    · rw [socket_update_other]
  · unfold Untruncated conn
    rw [update_internet, update_events]
    rcases side_cases x z with rfl | rfl
    · intro _ herr hclean
      obtain ⟨hr, hs, hfin⟩ := hclean
      have heof := hend.resolve_right (ne_true_of_eq_false herr)
      obtain ⟨hbuffer, hended⟩ := (ByteStream.eof_iff _).mp heof
      obtain ⟨hreceived, hother⟩ := h.ran.ended hr hs hfin hended
      refine ⟨?_, hother⟩
      rw [← hreceived]
      unfold Endpoint.received
      rw [show (s.internet.host z).endpoint.conn.inboundStream.buffer = [] from hbuffer,
        List.append_nil]
    · rw [socket_update_other]
      exact h.inbound x.other

theorem Inv.endOutbound (h : s.Inv isn i0) (x : Side) : (s.endOutbound x).Inv isn i0 := by
  have hd := does_same s x (.endInputStream x)
  refine h.called (show s.internet.NoLateWrite (.endInputStream x) from trivial) .endInputStream
    rfl ((update_internet ..).trans (does_internet ..))
    ((update_events ..).trans (does_events ..)) ?_ ?_ ?_ ?_ ?_
  · unfold FullStack.endOutbound
    rw [socket_update_other]
    exact hd x.other
  · unfold FullStack.endOutbound
    rw [socket_update, Endpoint.writes, List.append_nil]
    exact (hd x).taken
  · unfold FullStack.endOutbound
    rw [socket_update, Endpoint.readsOf, List.append_nil]
    exact (hd x).given
  · unfold FullStack.endOutbound
    rw [socket_update]
    exact (Bool.or_true _).symm
  · unfold FullStack.endOutbound
    rw [socket_update]
    exact (hd x).inboundShutdown

/-! ## The rules -/

theorem Inv.readDatagram (h : s.Inv isn i0) (x : Side) (k : Kernel) :
    (readDatagram x k s).2.Inv isn i0 := by
  unfold FullStack.readDatagram
  split
  · dsimp only
    refine h.update (fun _ => ?_) x
    exact ⟨rfl, rfl, rfl, rfl⟩
  · refine Inv.does (h.update (fun _ => ?_) x)
      (show Internet.Event.Quiet (.receive x k.frame) from trivial) x
    exact ⟨rfl, rfl, rfl, rfl⟩

theorem Inv.writeDatagrams (h : s.Inv isn i0) (x : Side) : (writeDatagrams x s).2.Inv isn i0 :=
  h.does (show Internet.Event.Quiet (.flush x) from trivial) x

/-- The connection takes all that it has room for. -/
theorem write_all {c : TCPConnection} {data : List UInt8}
    (h : data.length ≤ c.remainingOutboundCapacity) : (c.write data).2 = data.length :=
  (ByteStream.write_snd ..).trans (Nat.min_eq_left h)

/-- What rule 2 can do: the read fails, or the connection gets all of it, and its end if that has
come. -/
theorem readData_cases (x : Side) (k : Kernel) (s : FullStack) :
    (∃ what fd, readData x k s = (.error (.systemCall what),
      s.update x fun sock => { sock with threadData := fd })) ∨
    ∃ (data : List UInt8) (fd : FileDescriptor),
      data.length ≤ (s.conn x).remainingOutboundCapacity ∧
      fd.readCount = (s.socket x).threadData.readCount + 1 ∧
      let t := (s.update x fun sock =>
        { sock with threadData := fd, taken := sock.taken ++ data }).does x (.write x data)
      readData x k s = (.ok (), t) ∨ readData x k s = (.ok (), t.endOutbound x) := by
  have hread := (s.socket x).threadData.read_cases (s.conn x).remainingOutboundCapacity k.data
  unfold readData
  split <;> rename_i fd heq <;> rw [heq] at hread
  · exact .inl ⟨_, fd, rfl⟩
  · rcases hread with ⟨what, -, hw⟩ | ⟨data, hb, hle, hcount⟩
    · cases hw
    · obtain rfl := Except.ok.inj hb
      refine .inr ⟨_, fd, hle, hcount, ?_⟩
      simp only
      rw [if_neg (not_not.mpr (write_all hle))]
      split
      · exact .inr rfl
      · exact .inl rfl

theorem Inv.readData (h : s.Inv isn i0) (hopen : (s.socket x).outboundShutdown = false)
    (k : Kernel) : (readData x k s).2.Inv isn i0 := by
  rcases readData_cases x k s with ⟨what, fd, heq⟩ | ⟨data, fd, hle, -, hcase⟩
  · rw [heq]
    dsimp only
    refine h.update (fun _ => ?_) x
    exact ⟨rfl, rfl, rfl, rfl⟩
  · have hw : s.internet.NoLateWrite (.write x data) := (h.outbound x).trans hopen
    have hd := does_same (s.update x fun sock =>
      { sock with threadData := fd, taken := sock.taken ++ data }) x (.write x data)
    have hself := hd x
    have hother := hd x.other
    rw [socket_update] at hself
    rw [socket_update_other] at hother
    have ht := h.called hw (.write data) rfl
      ((does_internet ..).trans (by rw [update_internet]))
      ((does_events ..).trans (by rw [update_events])) hother
      (hself.taken.trans (by
        show _ ++ data = _ ++ data.take ((s.conn x).write data).2
        rw [write_all hle, List.take_length]))
      (hself.given.trans (List.append_nil _).symm)
      (hself.outboundShutdown.trans (Bool.or_false _).symm) hself.inboundShutdown
    rcases hcase with heq | heq
    · rw [heq]
      exact ht
    · rw [heq]
      exact ht.endOutbound x

/-- What rule 3 can do: the write fails, or what it has taken leaves the stream; at the end of
that, the application is told. -/
theorem writeData_cases (x : Side) (k : Kernel) (s : FullStack) :
    (∃ what fd, (s.socket x).threadData.SameFlags fd ∧ writeData x k s =
      (.error (.systemCall what), s.update x fun sock => { sock with threadData := fd })) ∨
    k.inbound ≠ none ∧ ∃ n, let fd := (s.socket x).threadData.registerWrite
      let t := (s.update x fun sock => { sock with
        threadData := fd
        given := sock.given ++ (s.conn x).inboundStream.buffer.take n }).does x (.read x n)
      writeData x k s = (.ok (), t) ∨
      ((t.conn x).inboundStream.eof = true ∨ (t.conn x).inboundStream.error = true) ∧
        ((∃ what, writeData x k s = (.error (.systemCall what),
          t.update x fun sock => { sock with threadData := fd })) ∨
        writeData x k s = (.ok (), t.update x fun sock => { sock with
          threadData := fd.registerWrite, inboundShutdown := true })) := by
  have hwrite := (s.socket x).threadData.write_front (s.conn x).inboundStream.buffer
    (min 65536 (s.conn x).inboundStream.bufferSize) fun _ => k.inbound
  rw [← ByteStream.peekOutput_eq] at hwrite
  unfold writeData
  simp only
  rcases hwrite with ⟨what, -, hbad, hfd⟩ | ⟨hsome, n, hok, hdevice, hfd⟩
  · rw [hbad]
    refine .inl ⟨what, _, ?_, rfl⟩
    rcases hfd with hfd | hfd <;> rw [hfd] <;> exact ⟨rfl, rfl⟩
  · rw [hok, hdevice, hfd]
    refine .inr ⟨hsome, n, ?_⟩
    simp only
    split
    · rename_i hend
      rw [Bool.or_eq_true] at hend
      refine .inr ⟨hend, ?_⟩
      cases k.shutdown with
      | true => exact .inr rfl
      | false => exact .inl ⟨_, rfl⟩
    · exact .inl rfl

theorem Inv.writeData (h : s.Inv isn i0) (x : Side) (k : Kernel) :
    (writeData x k s).2.Inv isn i0 := by
  rcases writeData_cases x k s with ⟨what, fd, -, heq⟩ | ⟨-, n, hcase⟩
  · rw [heq]
    dsimp only
    refine h.update (fun _ => ?_) x
    exact ⟨rfl, rfl, rfl, rfl⟩
  · simp only at hcase
    have hd := does_same (s.update x fun sock => { sock with
      threadData := (s.socket x).threadData.registerWrite
      given := sock.given ++ (s.conn x).inboundStream.buffer.take n }) x (.read x n)
    have hself := hd x
    have hother := hd x.other
    rw [socket_update] at hself
    rw [socket_update_other] at hother
    have ht := h.called (show s.internet.NoLateWrite (.read x n) from trivial) (.read n) rfl
      ((does_internet ..).trans (by rw [update_internet]))
      ((does_events ..).trans (by rw [update_events])) hother
      (hself.taken.trans (List.append_nil _).symm)
      (hself.given.trans (by
        rw [Endpoint.readsOf, ByteStream.read_eq]
        rfl))
      (hself.outboundShutdown.trans (Bool.or_false _).symm) hself.inboundShutdown
    rcases hcase with heq | ⟨hend, ⟨what, heq⟩ | heq⟩
    · rw [heq]
      exact ht
    · rw [heq]
      dsimp only
      refine ht.update (fun _ => ?_) x
      exact ⟨rfl, rfl, rfl, rfl⟩
    · rw [heq]
      dsimp only
      refine ht.shut (fun _ => ?_) hend
      exact ⟨rfl, rfl, rfl⟩

/-- What is left in the queue is left by a call that fails. -/
theorem flush_done {h : Host} (hok : h.flush.1 = .ok ()) : h.flush.2.segmentsOut = [] := by
  have hloop : ∀ (segs : List TCPSegment) (a : TCPOverIPv4OverEthernetAdapter),
      (Host.flushLoop segs a).1 = .ok () → (Host.flushLoop segs a).2.1 = [] := by
    intro segs
    induction segs with
    | nil => exact fun _ _ => rfl
    | cons seg segs ih =>
      intro a ha
      rw [Host.flushLoop] at ha ⊢
      split at ha
      · exact ih _ ha
      · cases ha
  exact hloop _ _ hok

theorem writeDatagrams_done (hok : (FullStack.writeDatagrams x s).1 = .ok ()) :
    ((FullStack.writeDatagrams x s).2.internet.host x).segmentsOut = [] := by
  have hflush : (s.internet.host x).flush.1 = .ok () := by
    unfold FullStack.writeDatagrams at hok
    cases hf : (s.internet.host x).flush.1 with
    | error fault =>
      rw [hf] at hok
      cases hok
    | ok _ => rfl
  have hempty := flush_done hflush
  unfold FullStack.writeDatagrams
  rw [does_internet]
  show ((s.internet.hostAfter x (s.internet.host x).flush).host x).segmentsOut = []
  generalize (s.internet.host x).flush = flushed at hflush hempty
  obtain ⟨done, host⟩ := flushed
  obtain rfl : done = .ok () := hflush
  show ((s.internet.setHost x host).host x).segmentsOut = []
  rw [Internet.host_setHost]
  exact hempty

end

/-! ## The loop -/

/-- What the rules of `x` leave alone: the other socket, and the phase of their own. -/
def rest (s : FullStack) (x : Side) : TCPSpongeSocket × Phase :=
  (s.socket x.other, (s.socket x).phase)

def contract (isn : Side → WrappingInt32) (i0 : Internet) (x : Side)
    (rest : TCPSpongeSocket × Phase) : Contract SocketRule FullStack SocketFault where
  rules := [.datagramIn, .dataIn, .dataOut, .datagramOut]
  inv s := s.Inv isn i0 ∧ s.rest x = rest
  asked
    | .dataIn, s => (s.socket x).outboundShutdown = false
    | .datagramIn, _ | .dataOut, _ | .datagramOut, _ => True
  fault fault := SocketFault.Foreign fault

section
variable {isn : Side → WrappingInt32} {i0 : Internet} {s : FullStack} {x : Side} {k : Kernel}
  {rest : TCPSpongeSocket × Phase}

theorem rest_update {f : TCPSpongeSocket → TCPSpongeSocket}
    (hf : (f (s.socket x)).phase = (s.socket x).phase) : (s.update x f).rest x = s.rest x := by
  unfold FullStack.rest
  rw [socket_update, socket_update_other, hf]

theorem rest_does (s : FullStack) (x : Side) (ev : Internet.Event) :
    (s.does x ev).rest x = s.rest x := by cases x <;> rfl

theorem rest_endOutbound (s : FullStack) (x : Side) : (s.endOutbound x).rest x = s.rest x := by
  unfold FullStack.endOutbound
  rw [rest_update (by rfl), rest_does]

theorem callback_rest (x : Side) (k : Kernel) (i : SocketRule) (s : FullStack) :
    (((rule x k i).callback s).2.rest x) = s.rest x := by
  cases i with
  | datagramIn =>
    show (readDatagram x k s).2.rest x = _
    unfold readDatagram
    split
    · exact rest_update rfl
    · exact (rest_does ..).trans (rest_update rfl)
  | dataIn =>
    show (readData x k s).2.rest x = _
    rcases readData_cases x k s with ⟨what, fd, heq⟩ | ⟨data, fd, -, -, heq | heq⟩
    · rw [heq]
      exact rest_update rfl
    · rw [heq]
      exact (rest_does ..).trans (rest_update rfl)
    · rw [heq]
      exact (rest_endOutbound ..).trans ((rest_does ..).trans (rest_update rfl))
  | dataOut =>
    show (writeData x k s).2.rest x = _
    rcases writeData_cases x k s with ⟨what, fd, -, heq⟩ |
      ⟨-, n, heq | ⟨-, ⟨what, heq⟩ | heq⟩⟩
    · rw [heq]
      exact rest_update rfl
    · rw [heq]
      exact (rest_does ..).trans (rest_update rfl)
    · rw [heq]
      exact (rest_update rfl).trans ((rest_does ..).trans (rest_update rfl))
    · rw [heq]
      exact (rest_update rfl).trans ((rest_does ..).trans (rest_update rfl))
  | datagramOut => exact rest_does s x _

theorem does_threadData (s : FullStack) (x : Side) (ev : Internet.Event) :
    ((s.does x ev).socket x).threadData = (s.socket x).threadData ∧
      ((s.does x ev).socket x).datagramAdapter.readCount =
        (s.socket x).datagramAdapter.readCount := by
  unfold does
  rw [socket_update]
  cases x <;> exact ⟨rfl, rfl⟩

theorem foreign_systemCall (what : String) : SocketFault.Foreign (.systemCall what) :=
  ⟨by rintro ⟨⟩, by rintro ⟨⟩⟩

theorem foreign_adapter {result : Except Fault Unit} {fault : SocketFault}
    (h : result.mapError .adapter = .error fault) : fault.Foreign := by
  cases result with
  | ok _ => cases h
  | error fault' =>
    rw [← Except.error.inj h]
    exact ⟨by rintro ⟨⟩, by rintro ⟨⟩⟩

/-- Rule 1 reads its descriptor, or fails. -/
theorem readDatagram_served (x : Side) (k : Kernel) (s : FullStack) :
    ((readDatagram x k s).1 = .ok () → ((readDatagram x k s).2.socket x).datagramAdapter.readCount =
      (s.socket x).datagramAdapter.readCount + 1) ∧
    (∀ fault, (readDatagram x k s).1 = .error fault → fault.Foreign) ∧
    ((readDatagram x k s).2.socket x).outboundShutdown = (s.socket x).outboundShutdown := by
  have hread := (s.socket x).datagramAdapter.read_cases SIZE_MAX s.internet.wire[k.frame]?
  unfold readDatagram
  split <;> rename_i fd heq <;> rw [heq] at hread
  · refine ⟨by rintro ⟨⟩, ?_, ?_⟩
    · rintro _ ⟨⟩
      exact foreign_systemCall _
    · simp only [socket_update]
  · rcases hread with ⟨what, -, hw⟩ | ⟨bytes, -, -, hcount⟩
    · cases hw
    · refine ⟨fun _ => ?_, fun fault hf => foreign_adapter hf, ?_⟩
      · simp only [(does_threadData ..).2, socket_update]
        exact hcount
      · refine (does_same _ x _ x).outboundShutdown.trans ?_
        rw [socket_update]

/-- Rule 2 reads its descriptor, or fails. -/
theorem readData_served (x : Side) (k : Kernel) (s : FullStack) :
    ((readData x k s).1 = .ok () → ((readData x k s).2.socket x).threadData.readCount =
      (s.socket x).threadData.readCount + 1) ∧
    ∀ fault, (readData x k s).1 = .error fault → fault.Foreign := by
  rcases readData_cases x k s with ⟨what, fd, heq⟩ | ⟨data, fd, -, hcount, hcase⟩
  · rw [heq]
    refine ⟨by rintro ⟨⟩, ?_⟩
    rintro _ ⟨⟩
    exact foreign_systemCall _
  · simp only at hcase
    rcases hcase with heq | heq
    · rw [heq]
      refine ⟨fun _ => ?_, by rintro _ ⟨⟩⟩
      rw [(does_threadData ..).1, socket_update]
      exact hcount
    · rw [heq]
      refine ⟨fun _ => ?_, by rintro _ ⟨⟩⟩
      unfold FullStack.endOutbound
      rw [socket_update]
      simp only [(does_threadData ..).1, socket_update]
      exact hcount

/-- Rule 3 writes to its descriptor, or fails. -/
theorem writeData_served (x : Side) (k : Kernel) (s : FullStack) :
    ((writeData x k s).1 = .ok () → ((writeData x k s).2.socket x).threadData.writeCount ≠
      (s.socket x).threadData.writeCount) ∧
    (∀ fault, (writeData x k s).1 = .error fault → fault.Foreign) ∧
    ((writeData x k s).2.socket x).outboundShutdown = (s.socket x).outboundShutdown := by
  rcases writeData_cases x k s with ⟨what, fd, -, heq⟩ | ⟨-, n, hcase⟩
  · rw [heq]
    refine ⟨by rintro ⟨⟩, ?_, ?_⟩
    · rintro _ ⟨⟩
      exact foreign_systemCall _
    · rw [socket_update]
  · simp only at hcase
    rcases hcase with heq | ⟨-, ⟨what, heq⟩ | heq⟩
    · rw [heq]
      refine ⟨fun _ => ?_, by rintro _ ⟨⟩, ?_⟩
      · rw [(does_threadData ..).1, socket_update]
        exact (served_ne _).1.symm
      · refine (does_same _ x _ x).outboundShutdown.trans ?_
        rw [socket_update]
    · rw [heq]
      refine ⟨by rintro ⟨⟩, ?_, ?_⟩
      · rintro _ ⟨⟩
        exact foreign_systemCall _
      · rw [socket_update]
        refine (does_same _ x _ x).outboundShutdown.trans ?_
        rw [socket_update]
    · rw [heq]
      refine ⟨fun _ => ?_, by rintro _ ⟨⟩, ?_⟩
      · rw [socket_update]
        exact (served_ne _).2.symm
      · rw [socket_update]
        refine (does_same _ x _ x).outboundShutdown.trans ?_
        rw [socket_update]

/-- Nothing is known of the other rules that a call of `i` could undo, but that rule 2 still may
write. -/
theorem stays {i : SocketRule} {t : FullStack}
    (h : i ≠ .dataIn → (t.socket x).outboundShutdown = (s.socket x).outboundShutdown) :
    (contract isn i0 x rest).Stays i s t where
  live _ _ _ := trivial
  gone _ _ _ := trivial
  asked
    | .dataIn, hj, _, hopen => (h hj.symm).trans hopen
    | .datagramIn, _, _, _ | .dataOut, _, _, _ | .datagramOut, _, _, _ => trivial

theorem keeps (isn : Side → WrappingInt32) (i0 : Internet) (x : Side) (k : Kernel)
    (rest : TCPSpongeSocket × Phase) :
    Keeps (rule x k) .eventLoop (contract isn i0 x rest) where
  nodup := show [SocketRule.datagramIn, .dataIn, .dataOut, .datagramOut].Nodup by decide
  asked
    | .dataIn, s, _, _, _, hi => by
      simp only [rule, Bool.and_eq_true, Bool.not_eq_true'] at hi
      exact hi.1.2
    | .datagramIn, _, _, _, _, _ | .dataOut, _, _, _, _, _ | .datagramOut, _, _, _, _, _ => trivial
  idle _ _ _ _ _ _ := trivial
  callback i s hs _ hq := by
    refine ⟨⟨?_, (callback_rest x k i s).trans hs.2⟩, trivial, stays fun hne => ?_⟩
    · cases i with
      | datagramIn => exact hs.1.readDatagram x k
      | dataIn => exact hs.1.readData hq k
      | dataOut => exact hs.1.writeData x k
      | datagramOut => exact hs.1.writeDatagrams x
    · cases i with
      | datagramIn => exact (readDatagram_served x k s).2.2
      | dataIn => exact absurd rfl hne
      | dataOut => exact (writeData_served x k s).2.2
      | datagramOut => exact (does_same s x _ x).outboundShutdown
  fails
    | .datagramIn, s, fault, _, _, _, hf => (readDatagram_served x k s).2.1 fault hf
    | .dataIn, s, fault, _, _, _, hf => (readData_served x k s).2 fault hf
    | .dataOut, s, fault, _, _, _, hf => (writeData_served x k s).2.1 fault hf
    | .datagramOut, s, fault, _, _, _, hf => foreign_adapter hf
  busy
    | .datagramIn, s, _, _, _, hok => .inl fun heq =>
      (served_ne _).1 (heq.trans ((readDatagram_served x k s).1 hok))
    | .dataIn, s, _, _, _, hok => .inl fun heq =>
      (served_ne _).1 (heq.trans ((readData_served x k s).1 hok))
    | .dataOut, s, _, _, _, hok => .inl fun heq => (writeData_served x k s).1 hok heq.symm
    | .datagramOut, s, _, _, _, hok => .inr (by
      show (!((FullStack.writeDatagrams x s).2.internet.host x).segmentsOut.isEmpty) = false
      rw [writeDatagrams_done hok]
      rfl)
  cancel
    | .dataIn, s, hs, _ =>
      ⟨⟨hs.1.endOutbound x, (rest_endOutbound s x).trans hs.2⟩, trivial,
        stays fun h => absurd rfl h⟩
    | .datagramIn, s, hs, _ | .dataOut, s, hs, _ | .datagramOut, s, hs, _ =>
      ⟨hs, trivial, stays fun _ => rfl⟩
  cancel_idle _ _ _ _ _ _ _ := trivial
  polled := ⟨by rintro ⟨⟩, by decide⟩

end

/-! ## All events -/

/-- The invariant with the books of the loops: each has some of its rules, and has not failed for
its own. -/
structure Sound (isn : Side → WrappingInt32) (i0 : Internet) (s : FullStack) : Prop where
  inv : s.Inv isn i0
  rules : ∀ x, (s.socket x).rules.Sublist [.datagramIn, .dataIn, .dataOut, .datagramOut]
  fault : ∀ x fault, (s.socket x).phase = .ended (.error fault) → fault.Foreign

section
variable {isn : Side → WrappingInt32} {i0 : Internet} {s s' : FullStack} {x : Side}

/-- A change on the side of `x` that leaves the other socket alone. -/
theorem Sound.change (h : s.Sound isn i0) (hinv : s'.Inv isn i0)
    (hother : s'.socket x.other = s.socket x.other)
    (hrules : (s'.socket x).rules.Sublist [.datagramIn, .dataIn, .dataOut, .datagramOut])
    (hfault : ∀ fault, (s'.socket x).phase = .ended (.error fault) → fault.Foreign) :
    s'.Sound isn i0 := by
  refine ⟨hinv, fun z => ?_, fun z => ?_⟩ <;> rcases side_cases x z with rfl | rfl
  · exact hrules
  · rw [hother]
    exact h.rules x.other
  · exact hfault
  · rw [hother]
    exact h.fault x.other

theorem Sound.update_phase (h : s.Sound isn i0) (x : Side) {phase : Phase}
    (hp : ∀ fault, phase = .ended (.error fault) → fault.Foreign) :
    (s.update x fun sock => { sock with phase := phase }).Sound isn i0 := by
  refine h.change (x := x) ?_ (socket_update_other ..) ?_ ?_
  · refine h.inv.update (fun _ => ?_) x
    exact ⟨rfl, rfl, rfl, rfl⟩
  · rw [socket_update]
    exact h.rules x
  · rw [socket_update]
    exact hp

theorem Sound.does (h : s.Sound isn i0) {ev : Internet.Event} (hq : ev.Quiet) (x : Side) :
    (s.does x ev).Sound isn i0 := by
  have hrules : ((s.does x ev).socket x).rules = (s.socket x).rules := by cases x <;> rfl
  obtain ⟨hother, hphase⟩ := Prod.mk.inj (rest_does s x ev)
  refine h.change (h.inv.does hq x) hother ?_ ?_
  · rw [hrules]
    exact h.rules x
  · rw [hphase]
    exact h.fault x

theorem Sound.passes (h : s.Sound isn i0) {ev : Internet.Event} (hq : ev.Quiet) :
    (s.passes ev).Sound isn i0 :=
  ⟨h.inv.passes hq, fun z => by cases z; exacts [h.rules .a, h.rules .b],
    fun z => by cases z; exacts [h.fault .a, h.fault .b]⟩

/-- A turn: the loop waits, and time passes. -/
theorem Sound.tcpLoop (h : s.Sound isn i0) (x : Side) (k : Kernel) {next : Phase}
    (hrun : ∀ fault, (s.socket x).phase ≠ .ended (.error fault))
    (hnext : ∀ fault, next ≠ .ended (.error fault)) : (s.tcpLoop x k next).Sound isn i0 := by
  have hk : (contract isn i0 x (s.rest x)).Holds (s.socket x).rules s :=
    ⟨h.rules x, ⟨h.inv, rfl⟩, fun _ _ => trivial, fun _ _ _ => trivial⟩
  obtain ⟨hholds, hfault, -⟩ := (keeps isn i0 x k (s.rest x)).wait hk k.poll
  unfold FullStack.tcpLoop
  simp only
  generalize waitNextEvent (rule x k) .eventLoop (s.socket x).rules k.poll s = waited
    at hholds hfault
  obtain ⟨result, rules, t⟩ := waited
  obtain ⟨hinv, hrest⟩ := hholds.inv
  obtain ⟨hother, hphase⟩ := Prod.mk.inj hrest
  have hwaited : (t.update x fun sock => { sock with rules := rules }).Sound isn i0 := by
    refine h.change (x := x) ?_ ((socket_update_other ..).trans hother) ?_ ?_
    · refine hinv.update (fun _ => ?_) x
      exact ⟨rfl, rfl, rfl, rfl⟩
    · rw [socket_update]
      exact hholds.sublist
    · rw [socket_update]
      exact fun fault hp => absurd (hphase.symm.trans hp) (hrun fault)
  cases result with
  | error fault =>
    refine hwaited.update_phase x fun fault' hp => ?_
    rw [← Except.error.inj (Phase.ended.inj hp)]
    exact hfault fault rfl
  | ok result =>
    simp only
    split
    · exact hwaited.update_phase x fun fault hp => absurd hp (hnext fault)
    · split
      · have hticked := hwaited.does (show Internet.Event.Quiet (.tick x k.elapsed) from trivial) x
        have haged := hticked.does (show Internet.Event.Quiet (.age x k.elapsed) from trivial) x
        split
        · refine haged.update_phase x fun fault hp => ?_
          rw [← Except.error.inj (Phase.ended.inj hp)]
          exact ⟨by rintro ⟨⟩, by rintro ⟨⟩⟩
        · exact haged
      · exact hwaited

theorem Sound.turn (h : s.Sound isn i0) (x : Side) (k : Kernel) : (s.turn x k).Sound isn i0 := by
  have hrunning : (s.update x fun sock => { sock with phase := .running }).Sound isn i0 :=
    h.update_phase x fun _ hp => by cases hp
  unfold FullStack.turn
  split <;> rename_i hphase
  · exact h
  · exact h
  · split
    · exact h.tcpLoop x k (fun fault hp => by rw [hphase] at hp; cases hp) fun _ hp => by cases hp
    · exact hrunning
  · split
    · exact h.tcpLoop x k (fun fault hp => by rw [hphase] at hp; cases hp) fun _ hp => by cases hp
    · exact hrunning
  · exact h.tcpLoop x k (fun fault hp => by rw [hphase] at hp; cases hp) fun _ hp => by cases hp

/-- **The invariant of the whole.** -/
theorem Sound.step (h : s.Sound isn i0) (ev : Event) : (s.step ev).Sound isn i0 := by
  cases ev with
  | connect x =>
    show (s.connect x).Sound isn i0
    unfold FullStack.connect
    split
    · exact (h.does (show Internet.Event.Quiet (.connect x) from trivial) x).update_phase x
        fun _ hp => by cases hp
    all_goals exact h
  | listenAndAccept x =>
    show (s.listenAndAccept x).Sound isn i0
    unfold FullStack.listenAndAccept
    split
    · exact h.update_phase x fun _ hp => by cases hp
    all_goals exact h
  | turn x k => exact h.turn x k
  | arrive i n k => exact h.passes trivial
  | route i => exact h.passes trivial
  | ageRouter i n ms => exact h.passes trivial

/-- Nothing has been written, read or ended at the start. -/
theorem system_mk {cfgA cfgB : TCPConfig} {randomA randomB : UInt32} {s : System}
    (h : System.mk? cfgA cfgB randomA randomB = some s) (x : Side) :
    (s.endpoint x).wrote = [] ∧ (s.endpoint x).reads = [] ∧
      (s.endpoint x).conn.sender.stream.inputEnded = false := by
  simp only [System.mk?, TCPConnection.mk?, Option.bind_eq_bind, Option.bind_eq_some_iff,
    Option.map_eq_some_iff, Option.pure_def, Option.some.injEq] at h
  obtain ⟨a, ⟨_, _, rfl⟩, b, ⟨_, _, rfl⟩, rfl⟩ := h
  cases x <;> exact ⟨rfl, rfl, rfl⟩

theorem sound_mk {cfgA cfgB : HostConfig} {routers : List Router}
    (h0 : mk? cfgA cfgB routers = some s) (ha : NoEcho cfgA.adapter cfgA.adapter)
    (hb : NoEcho cfgB.adapter cfgB.adapter) (hidle : ∀ r ∈ routers, r.Idle) :
    s.Sound (fun x => (s.internet.system.endpoint x).conn.sender.isn) s.internet := by
  simp only [mk?, Option.map_eq_some_iff] at h0
  obtain ⟨i0, hmk, rfl⟩ := h0
  have hstart := fun x => system_mk (Internet.traced_mk hmk ha hb hidle).2 x
  simp only [Internet.system_endpoint] at hstart
  have hnew : ∀ x, socket { internet := i0 } x = {} := fun x => by cases x <;> rfl
  refine ⟨⟨Internet.ran_mk hmk ha hb hidle, fun x => ?_, fun x => ?_, fun x => ?_, fun x => ?_⟩,
    fun x => ?_, fun x => ?_⟩ <;> rw [hnew]
  · exact (hstart x).1.symm
  · exact (hstart x).2.1.symm
  · exact (hstart x).2.2
  · rintro ⟨⟩
  · rintro _ ⟨⟩

end

end FullStack

end Sponge
