import Sponge.Lib.Books
import Sponge.Socket.Loop

/-!
# What a socket exchanges with its application

A turn changes a socket in `wait_next_event` only, and that of the other side not at
all (`step_cases`). There a socket reads from its application once at most, the
bytes that the kernel has for it, and what it has given to the application is not
taken back (`step_exchange`). As long as a hang-up is reported together with input,
it ends the outbound stream only when a read has told it to (`step_told`).
-/

namespace Sponge

open Lib EventLoop

/-- What has to do with the application has not changed. -/
structure TCPSpongeSocket.Unmoved (k k' : TCPSpongeSocket) : Prop extends k.Same k' where
  threadData : k'.threadData = k.threadData

/-- What a socket has taken from its application, and given to it. -/
def TCPSpongeSocket.books (k : TCPSpongeSocket) : Books UInt8 where
  taken := k.taken
  told := k.threadData.eof
  given := k.given
  ended := k.inboundShutdown

/-- The outbound stream has not been ended, unless the application has ended. -/
def TCPSpongeSocket.Told (k : TCPSpongeSocket) : Prop :=
  k.threadData.closed = false ∧ (k.outboundShutdown = true → k.threadData.eof = true)

namespace TCPSpongeSocket

open Lib.Books (Grows)

variable {k k' k'' : TCPSpongeSocket}

theorem unmoved_refl (k : TCPSpongeSocket) : k.Unmoved k := ⟨k.same_refl, rfl⟩

theorem Unmoved.trans (h : k.Unmoved k') (h' : k'.Unmoved k'') : k.Unmoved k'' where
  taken := h'.taken.trans h.taken
  given := h'.given.trans h.given
  outboundShutdown := h'.outboundShutdown.trans h.outboundShutdown
  inboundShutdown := h'.inboundShutdown.trans h.inboundShutdown
  threadData := h'.threadData.trans h.threadData

theorem Unmoved.books (h : k.Unmoved k') : k'.books = k.books := by
  unfold TCPSpongeSocket.books
  rw [h.taken, h.given, h.threadData, h.inboundShutdown]

theorem Unmoved.told (h : k.Unmoved k') (ht : k.Told) : k'.Told := by
  unfold Told
  rw [h.threadData, h.outboundShutdown]
  exact ht

/-- The end that has been told is not taken back. -/
theorem Told.mono (h : k.Told) (hclosed : k'.threadData.closed = k.threadData.closed)
    (heof : k.threadData.eof = true → k'.threadData.eof = true)
    (hout : k'.outboundShutdown = k.outboundShutdown) : k'.Told := by
  refine ⟨hclosed.trans h.1, fun ho => heof (h.2 ?_)⟩
  rw [← hout]
  exact ho

end TCPSpongeSocket

namespace FullStack

open Lib.Books (Grows Takes)
open TCPSpongeSocket (Unmoved unmoved_refl Told)

def books (s : FullStack) (x : Side) : Books UInt8 := (s.socket x).books

/-- What `wait_next_event` leaves. -/
def waited (s : FullStack) (x : Side) (k : Kernel) : FullStack :=
  (waitNextEvent (rule x k) .eventLoop (s.socket x).rules k.poll s).2.2

section
variable {s : FullStack} {x z : Side} {k : Kernel}

/-! ## The steps -/

theorem unmoved_update {f : TCPSpongeSocket → TCPSpongeSocket} (x : Side)
    (hf : (s.socket x).Unmoved (f (s.socket x))) (z : Side) :
    (s.socket z).Unmoved ((s.update x f).socket z) := by
  rcases side_cases x z with rfl | rfl
  · rw [socket_update]
    exact hf
  · rw [socket_update_other]
    exact unmoved_refl _

theorem unmoved_does (s : FullStack) (x : Side) (ev : Internet.Event) (z : Side) :
    (s.socket z).Unmoved ((s.does x ev).socket z) :=
  unmoved_update (s := s.passes ev) x ⟨⟨rfl, rfl, rfl, rfl⟩, rfl⟩ z

theorem unmoved_tcpLoop (s : FullStack) (x : Side) (k : Kernel) (next : Phase) (z : Side) :
    ((s.waited x k).socket z).Unmoved ((s.tcpLoop x k next).socket z) := by
  unfold waited FullStack.tcpLoop
  simp only
  generalize waitNextEvent (rule x k) .eventLoop (s.socket x).rules k.poll s = waited
  obtain ⟨result, rules, t⟩ := waited
  have hrules : (t.socket z).Unmoved ((t.update x fun sock =>
      { sock with rules := rules }).socket z) :=
    unmoved_update x ⟨⟨rfl, rfl, rfl, rfl⟩, rfl⟩ z
  have hphase : ∀ (t : FullStack) phase, (t.socket z).Unmoved
      ((t.update x fun sock => { sock with phase := phase }).socket z) :=
    fun _ _ => unmoved_update x ⟨⟨rfl, rfl, rfl, rfl⟩, rfl⟩ z
  cases result with
  | error fault => exact hrules.trans (hphase ..)
  | ok result =>
    simp only
    split
    · exact hrules.trans (hphase ..)
    · split
      · have haged := (hrules.trans (unmoved_does _ x (.tick x k.elapsed) z)).trans
          (unmoved_does _ x (.age x k.elapsed) z)
        split
        · exact haged.trans (hphase ..)
        · exact haged
      · exact hrules

/-- The other socket stays as it is. -/
theorem waited_other (s : FullStack) (x : Side) (k : Kernel) :
    (s.waited x k).socket x.other = s.socket x.other :=
  wait_inv (P := fun t => t.socket x.other = s.socket x.other)
    (fun j t ht => by
      cases j with
      | dataIn => exact (congrArg Prod.fst (rest_endOutbound t x)).trans ht
      | datagramIn | dataOut | datagramOut => exact ht)
    (fun j t ht => (congrArg Prod.fst (callback_rest x k j t)).trans ht) k.poll rfl

/-- What a step can do to a socket. -/
theorem step_cases (s : FullStack) (ev : Event) (z : Side) :
    (s.socket z).Unmoved ((s.step ev).socket z) ∨
      ∃ k, ev = .turn z k ∧ ((s.waited z k).socket z).Unmoved ((s.step ev).socket z) := by
  have hpasses : ∀ ev, (s.socket z).Unmoved ((s.passes ev).socket z) := fun _ => by
    cases z <;> exact unmoved_refl _
  have hphase : ∀ (t : FullStack) x phase, (t.socket z).Unmoved
      ((t.update x fun sock => { sock with phase := phase }).socket z) :=
    fun _ x _ => unmoved_update x ⟨⟨rfl, rfl, rfl, rfl⟩, rfl⟩ z
  cases ev with
  | connect x =>
    left
    show (s.socket z).Unmoved ((s.connect x).socket z)
    unfold FullStack.connect
    split
    · exact (unmoved_does s x _ z).trans (hphase ..)
    all_goals exact unmoved_refl _
  | listenAndAccept x =>
    left
    show (s.socket z).Unmoved ((s.listenAndAccept x).socket z)
    unfold FullStack.listenAndAccept
    split
    · exact hphase ..
    all_goals exact unmoved_refl _
  | turn x k =>
    have hloop : ∀ next, (s.socket z).Unmoved ((s.tcpLoop x k next).socket z) ∨
        ∃ k', Event.turn x k = .turn z k' ∧
          ((s.waited z k').socket z).Unmoved ((s.tcpLoop x k next).socket z) := by
      intro next
      have hu := unmoved_tcpLoop s x k next z
      rcases side_cases x z with rfl | rfl
      · exact .inr ⟨k, rfl, hu⟩
      · rw [waited_other] at hu
        exact .inl hu
    show (s.socket z).Unmoved ((s.turn x k).socket z) ∨
      ∃ k', _ ∧ ((s.waited z k').socket z).Unmoved ((s.turn x k).socket z)
    unfold FullStack.turn
    split
    · exact .inl (unmoved_refl _)
    · exact .inl (unmoved_refl _)
    · split
      · exact hloop _
      · exact .inl (hphase ..)
    · split
      · exact hloop _
      · exact .inl (hphase ..)
    · exact hloop _
  | arrive i n k => exact .inl (hpasses _)
  | route i => exact .inl (hpasses _)
  | ageRouter i n ms => exact .inl (hpasses _)

/-! ## The books -/

theorem grows_update {f : TCPSpongeSocket → TCPSpongeSocket}
    (hf : (s.books x).Grows (f (s.socket x)).books) :
    (s.books x).Grows ((s.update x f).books x) := by
  unfold books
  rw [socket_update]
  exact hf

theorem grows_does (s : FullStack) (x : Side) (ev : Internet.Event) :
    (s.books x).Grows ((s.does x ev).books x) := by
  unfold books
  rw [(unmoved_does s x ev x).books]
  exact Grows.refl _

theorem grows_endOutbound (s : FullStack) (x : Side) :
    (s.books x).Grows ((s.endOutbound x).books x) :=
  (grows_does s x _).trans (grows_update (Grows.refl _))

/-- No cancellation is seen. -/
theorem grows_cancel (x : Side) (k : Kernel) (i : SocketRule) (s : FullStack) :
    (s.books x).Grows (((rule x k i).cancel s).books x) := by
  cases i with
  | dataIn => exact grows_endOutbound s x
  | datagramIn | dataOut | datagramOut => exact Grows.refl _

/-- Rule 2 takes what the kernel has, or nothing. -/
theorem exchange_readData (x : Side) (k : Kernel) (s : FullStack) :
    (s.books x).Grows ((readData x k s).2.books x) ∨
      (s.books x).Takes k.data ((readData x k s).2.books x) := by
  have hanswer : ∀ bytes, ((s.socket x).threadData.read (s.conn x).remainingOutboundCapacity
      k.data).1 = .ok bytes → k.data = some bytes := fun _ => FileDescriptor.read_answer
  have hends := (s.socket x).threadData.read_ends (s.conn x).remainingOutboundCapacity k.data
  unfold readData
  split <;> rename_i fd heq <;> rw [heq] at hanswer hends
  · obtain ⟨heof, -⟩ := hends.resolve_right fun h => nomatch h.1
    exact .inl (grows_update ⟨rfl, heof, List.prefix_rfl, id⟩)
  · rename_i bytes
    right
    have htold : fd.eof = true → (s.socket x).threadData.eof = true ∨ k.data = some [] := by
      intro heof
      rcases hends with ⟨hsame, -⟩ | ⟨hnil, -⟩
      · exact .inl (hsame.symm.trans heof)
      · exact .inr (hanswer _ hnil)
    have ht : (s.books x).Takes k.data (((s.update x fun sock =>
        { sock with threadData := fd, taken := sock.taken ++ bytes }).does x
          (.write x bytes)).books x) := by
      refine Takes.grows ?_ (grows_does _ x _)
      unfold books
      rw [socket_update]
      exact ⟨⟨bytes, hanswer bytes rfl, rfl⟩, htold, List.prefix_rfl, id⟩
    simp only
    split
    · exact ht
    · split
      · exact ht.grows (grows_endOutbound _ x)
      · exact ht

theorem grows_callback {i : SocketRule} (hi : i ≠ .dataIn) (x : Side) (k : Kernel)
    (s : FullStack) : (s.books x).Grows (((rule x k i).callback s).2.books x) := by
  cases i with
  | dataIn => exact absurd rfl hi
  | datagramIn =>
    show (s.books x).Grows ((readDatagram x k s).2.books x)
    unfold readDatagram
    split
    · exact grows_update (Grows.refl _)
    · exact (grows_update (Grows.refl _)).trans (grows_does _ x _)
  | dataOut =>
    show (s.books x).Grows ((writeData x k s).2.books x)
    rcases writeData_cases x k s with ⟨what, fd, hsame, heq⟩ | ⟨-, n, hcase⟩
    · rw [heq]
      exact grows_update ⟨rfl, hsame.1, List.prefix_rfl, id⟩
    · have ht : (s.books x).Grows (((s.update x fun sock => { sock with
          threadData := (s.socket x).threadData.registerWrite
          given := sock.given ++ (s.conn x).inboundStream.buffer.take n }).does x
            (.read x n)).books x) :=
        (grows_update ⟨rfl, rfl, List.prefix_append .., id⟩).trans (grows_does _ x _)
      have htold := ht.told
      rcases hcase with heq | ⟨-, ⟨what, heq⟩ | heq⟩ <;> rw [heq]
      · exact ht
      · refine ht.trans (grows_update ⟨rfl, ?_, List.prefix_rfl, id⟩)
        exact htold.symm
      · refine ht.trans (grows_update ⟨rfl, ?_, List.prefix_rfl, fun _ => rfl⟩)
        exact htold.symm
  | datagramOut => exact grows_does s x _

/-- **What a step exchanges.** Only a turn of its own loop makes a socket take something, the bytes
that the kernel has for it. -/
theorem step_exchange (hn : ∀ x, (s.socket x).rules.Nodup) (ev : Event) (z : Side) :
    (s.books z).Grows ((s.step ev).books z) ∨
      ∃ k, ev = .turn z k ∧ (s.books z).Takes k.data ((s.step ev).books z) := by
  rcases step_cases s ev z with hu | ⟨k, rfl, hu⟩ <;> unfold books <;> rw [hu.books]
  · exact .inl (Grows.refl _)
  · have hwait : (s.books z).Grows ((s.waited z k).books z) ∨
        (s.books z).Takes k.data ((s.waited z k).books z) :=
      wait_once (i := .dataIn) (P := fun t => (s.books z).Grows (t.books z))
        (Q := fun t => (s.books z).Takes k.data (t.books z)) (hn z)
        (fun j t ht => ht.trans (grows_cancel z k j t))
        (fun j t ht => ht.grows (grows_cancel z k j t))
        (fun j hj t ht => ht.trans (grows_callback hj z k t))
        (fun j hj t ht => ht.grows (grows_callback hj z k t))
        (fun t ht => (exchange_readData z k t).imp ht.trans ht.takes) k.poll (Grows.refl _)
    exact hwait.imp_right fun ht => ⟨k, rfl, ht⟩

/-! ## The ends -/

theorem given_update {f : TCPSpongeSocket → TCPSpongeSocket}
    (hf : (f (s.socket x)).given = (s.socket x).given) :
    ((s.update x f).socket x).given = (s.socket x).given := by
  rw [socket_update]
  exact hf

/-- **What a step does not give.** A kernel that takes nothing is given nothing. -/
theorem step_silent (ev : Event) (hk : ∀ k, ev = .turn z k → k.inbound = none) :
    ((s.step ev).books z).given = (s.books z).given := by
  rcases step_cases s ev z with hu | ⟨k, rfl, hu⟩
  · exact hu.given
  · refine hu.given.trans ?_
    have hdoes : ∀ (t : FullStack) ev, ((t.does z ev).socket z).given = (t.socket z).given :=
      fun t ev => (unmoved_does t z ev z).given
    have hend : ∀ t : FullStack, ((t.endOutbound z).socket z).given = (t.socket z).given :=
      fun t => (given_update (by rfl)).trans (hdoes t _)
    refine wait_inv (P := fun t : FullStack => (t.socket z).given = (s.socket z).given)
      (fun j t ht => ?_) (fun j t ht => ?_) k.poll rfl
    · cases j with
      | dataIn => exact (hend t).trans ht
      | datagramIn | dataOut | datagramOut => exact ht
    · refine Eq.trans ?_ ht
      cases j with
      | datagramIn =>
        show ((readDatagram z k t).2.socket z).given = _
        unfold readDatagram
        split
        · exact given_update rfl
        · exact (hdoes ..).trans (given_update rfl)
      | dataIn =>
        show ((readData z k t).2.socket z).given = _
        rcases readData_cases z k t with ⟨what, fd, heq⟩ | ⟨data, fd, -, -, heq | heq⟩ <;>
          rw [heq]
        · exact given_update rfl
        · exact (hdoes ..).trans (given_update rfl)
        · exact (hend _).trans ((hdoes ..).trans (given_update rfl))
      | dataOut =>
        show ((writeData z k t).2.socket z).given = _
        rcases writeData_cases z k t with ⟨what, fd, -, heq⟩ | ⟨hsome, -⟩
        · rw [heq]
          exact given_update rfl
        · exact absurd (hk k rfl) hsome
      | datagramOut => exact hdoes t _

theorem told_update {f : TCPSpongeSocket → TCPSpongeSocket} (hf : (f (s.socket x)).Told) :
    ((s.update x f).socket x).Told := by
  rw [socket_update]
  exact hf

theorem told_endOutbound (ht : (s.socket x).Told) (heof : (s.socket x).threadData.eof = true) :
    ((s.endOutbound x).socket x).Told := by
  have hd := (unmoved_does s x (.endInputStream x) x).threadData
  refine told_update ⟨?_, fun _ => ?_⟩
  · show ((s.does x _).socket x).threadData.closed = false
    rw [hd]
    exact ht.1
  · show ((s.does x _).socket x).threadData.eof = true
    rw [hd]
    exact heof

theorem told_callback (x : Side) (k : Kernel) (i : SocketRule) (ht : (s.socket x).Told) :
    (((rule x k i).callback s).2.socket x).Told := by
  have hdoes : ∀ {t : FullStack} ev, (t.socket x).Told → ((t.does x ev).socket x).Told :=
    fun {t} ev => (unmoved_does t x ev x).told
  cases i with
  | datagramIn =>
    show ((readDatagram x k s).2.socket x).Told
    unfold readDatagram
    split
    · exact told_update ht
    · exact hdoes _ (told_update ht)
  | dataIn =>
    have hends := (s.socket x).threadData.read_ends (s.conn x).remainingOutboundCapacity k.data
    show ((readData x k s).2.socket x).Told
    unfold readData
    split <;> rename_i fd heq <;> rw [heq] at hends
    · obtain ⟨heof, hclosed⟩ := hends.resolve_right fun h => nomatch h.1
      exact told_update (ht.mono hclosed heof.trans rfl)
    · rename_i bytes
      have hclosed : fd.closed = (s.socket x).threadData.closed :=
        hends.elim And.right fun h => h.2.2
      have heof : (s.socket x).threadData.eof = true → fd.eof = true := fun he =>
        hends.elim (fun h => h.1.trans he) fun h => h.2.1
      have hread : (((s.update x fun sock =>
          { sock with threadData := fd, taken := sock.taken ++ bytes }).does x
            (.write x bytes)).socket x).Told :=
        hdoes _ (told_update (ht.mono hclosed heof rfl))
      simp only
      split
      · exact hread
      · split
        · rename_i hfd
          refine told_endOutbound hread ?_
          rw [(does_threadData ..).1, socket_update]
          exact hfd
        · exact hread
  | dataOut =>
    show ((writeData x k s).2.socket x).Told
    rcases writeData_cases x k s with ⟨what, fd, ⟨heof, hclosed⟩, heq⟩ | ⟨-, n, hcase⟩
    · rw [heq]
      exact told_update (ht.mono hclosed heof.trans rfl)
    · have hwrite : (((s.update x fun sock => { sock with
          threadData := (s.socket x).threadData.registerWrite
          given := sock.given ++ (s.conn x).inboundStream.buffer.take n }).does x
            (.read x n)).socket x).Told :=
        hdoes _ (told_update (ht.mono rfl id rfl))
      have hd := (does_threadData (s.update x fun sock => { sock with
          threadData := (s.socket x).threadData.registerWrite
          given := sock.given ++ (s.conn x).inboundStream.buffer.take n }) x (.read x n)).1
      rw [socket_update] at hd
      have hclosed := (congrArg FileDescriptor.closed hd).symm
      have heof := (congrArg FileDescriptor.eof hd).symm
      rcases hcase with heq | ⟨-, ⟨what, heq⟩ | heq⟩ <;> rw [heq]
      · exact hwrite
      · exact told_update (hwrite.mono hclosed heof.trans rfl)
      · exact told_update (hwrite.mono hclosed heof.trans rfl)
  | datagramOut => exact hdoes _ ht

/-- **When a socket ends its stream.** It has been told to by a read, if a hang-up is reported
together with input. -/
theorem step_told (ev : Event) (hup : ∀ k, ev = .turn z k →
      ReadableHup (rule z k) (s.socket z).rules .dataIn s k.poll) (ht : (s.socket z).Told) :
    ((s.step ev).socket z).Told := by
  rcases step_cases s ev z with hu | ⟨k, rfl, hu⟩
  · exact hu.told ht
  · refine hu.told (wait_dead (i := .dataIn) (P := fun t => (t.socket z).Told) rfl
      (fun j hj t ht => ?_) (fun t ht hdead => told_endOutbound ht (Rule.dead_eof hdead ht.1))
      (fun j t ht => told_callback z k j ht) (hup k rfl) ht)
    cases j with
    | dataIn => exact absurd rfl hj
    | datagramIn | dataOut | datagramOut => exact ht

end

end FullStack

end Sponge
