import Sponge.Apps.Exchange
import Sponge.Socket.Delivery
import Sponge.Socket.Exchange

/-!
# The whole program

Each of two hosts runs the program of lab 7: once its socket is connected, it
copies between its standard streams and the socket, whose loop runs beside it in a
thread. The program and the thread each hold one end of a pair of local sockets,
which hands over in order what has been put in, as much at a time as it likes
(`Piped`).

From the standard input of the one host to the standard output of the other lie
two such copies, two pairs, two loops, two connections, and an internet. What
comes out is at all times a prefix of what has gone in (`stdout_prefix_stdin`); and
where the pairs tell the end only when it has come (`Honest`), a host that has
closed its standard output has written all that there is (`stdout_eq_stdin`).
-/

namespace Sponge

open Lib

/-- Two hosts that run the program. -/
structure Lab7 where
  stack : FullStack
  a : StreamCopy.Copying := { state := { socket := {} } }
  b : StreamCopy.Copying := { state := { socket := {} } }

namespace Lab7

def copying (s : Lab7) : Side → StreamCopy.Copying
  | .a => s.a
  | .b => s.b

def setCopying (s : Lab7) (x : Side) (c : StreamCopy.Copying) : Lab7 :=
  match x with
  | .a => { s with a := c }
  | .b => { s with b := c }

/-- Something happens to the sockets or between them, or the copy of `x` has a turn. -/
inductive Event where
  | stack (ev : FullStack.Event)
  | copy (x : Side) (k : StreamCopy.Kernel)
  deriving DecidableEq, Repr

/-- The copy starts when `connect` or `listen_and_accept` has returned. -/
def step (s : Lab7) : Event → Lab7
  | .stack ev => { s with stack := s.stack.step ev }
  | .copy x k =>
    match (s.stack.socket x).phase with
    | .idle | .connecting | .accepting => s
    | .running | .ended _ => s.setCopying x (StreamCopy.turn (s.copying x) k)

def mk? (cfgA cfgB : HostConfig) (routers : List Router) : Option Lab7 :=
  (FullStack.mk? cfgA cfgB routers).map fun stack => { stack := stack }

/-! ## How the program is set up -/

def randomHostEthernetAddress (rd : EthernetAddress) : EthernetAddress where
  bytes := rd.bytes.modify 0 fun byte => (byte ||| 0x02) &&& 0xfe
  length_eq := by rw [List.length_modify, rd.length_eq]

def randomRouterEthernetAddress (rd : EthernetAddress) : EthernetAddress where
  bytes := ((rd.bytes.set 0 0x02).set 1 0).set 2 0
  length_eq := by simp only [List.length_set, rd.length_eq]

/-- What the program draws at random. -/
structure Draws where
  host : EthernetAddress
  hostSide : EthernetAddress
  internetSide : EthernetAddress
  /-- The port, of a client. -/
  port : UInt16 := 0
  isn : UInt32 := 0

/-- 192.168.0.50 behind 192.168.0.1, or 172.16.0.100 behind 172.16.0.1. -/
def host (isClient : Bool) (rd : Draws) : HostConfig :=
  if isClient then
    { random := rd.isn
      ethAddress := randomHostEthernetAddress rd.host
      ipAddress := ⟨0xc0a80032⟩
      nextHop := ⟨0xc0a80001⟩
      adapter := { cfg := { source := ⟨0xc0a80032, rd.port⟩, destination := ⟨0xac100064, 1234⟩ } } }
  else
    { random := rd.isn
      ethAddress := randomHostEthernetAddress rd.host
      ipAddress := ⟨0xac100064⟩
      nextHop := ⟨0xac100001⟩
      adapter := { cfg := { source := ⟨0xac100064, 1234⟩ }, listen := true } }

/-- The router of a host, which knows the other by its address on the internet side. -/
def router (isClient : Bool) (rd : Draws) : Router :=
  let iface := fun (rd : EthernetAddress) ip => ({ interface := {
    ethernetAddress := randomRouterEthernetAddress rd, ipAddress := ip } } : AsyncNetworkInterface)
  if isClient then
    let (hostSide, router) := ({} : Router).addInterface (iface rd.hostSide ⟨0xc0a80001⟩)
    let (internetSide, router) := router.addInterface (iface rd.internetSide ⟨0x0a0000c0⟩)
    let router := router.addRoute 0xc0a80000 16 none hostSide
    let router := router.addRoute 0x0a000000 8 none internetSide
    router.addRoute 0xac100000 12 (some ⟨0x0a0000ac⟩) internetSide
  else
    let (hostSide, router) := ({} : Router).addInterface (iface rd.hostSide ⟨0xac100001⟩)
    let (internetSide, router) := router.addInterface (iface rd.internetSide ⟨0x0a0000ac⟩)
    let router := router.addRoute 0xac100000 12 none hostSide
    let router := router.addRoute 0x0a000000 8 none internetSide
    router.addRoute 0xc0a80000 16 (some ⟨0x0a0000c0⟩) internetSide

/-- A client and a server, each behind its router. -/
def programBody (client server : Draws) : Option Lab7 :=
  mk? (host true client) (host false server) [router true client, router false server]

/-! ## What the pairs promise -/

/-- What is read from the pair of local sockets is the front of what is in it. -/
def Piped (s : Lab7) : Event → Prop
  | .stack (.turn x k) => ∀ bytes ∈ k.data,
      (s.stack.socket x).taken ++ bytes <+: (s.copying x).state.outbound.written
  | .stack _ => True
  | .copy x k => ∀ bytes ∈ k.socket,
      (s.copying x).state.inbound.read ++ bytes <+: (s.stack.socket x).given

instance (s : Lab7) : ∀ ev, Decidable (s.Piped ev)
  | .stack (.turn _ k) => inferInstanceAs (Decidable (∀ bytes ∈ k.data, _))
  | .stack (.connect _) | .stack (.listenAndAccept _) | .stack (.arrive _ _ _)
  | .stack (.route _) | .stack (.ageRouter _ _ _) => isTrue trivial
  | .copy _ k => inferInstanceAs (Decidable (∀ bytes ∈ k.socket, _))

/-- The pair tells the end only when the other party has ended and everything is taken, and takes
nothing after that; and it reports a hang-up together with input. -/
def Honest (s : Lab7) : Event → Prop
  | .stack (.turn x k) =>
    (k.data = some [] → (s.copying x).state.outbound.shutdown = true ∧
      (s.stack.socket x).taken = (s.copying x).state.outbound.written) ∧
    ((s.stack.socket x).inboundShutdown = true → k.inbound = none) ∧
    EventLoop.ReadableHup (FullStack.rule x k) (s.stack.socket x).rules .dataIn s.stack k.poll
  | .stack _ => True
  | .copy x k =>
    (k.socket = some [] → (s.stack.socket x).inboundShutdown = true ∧
      (s.copying x).state.inbound.read = (s.stack.socket x).given) ∧
    ((s.copying x).state.outbound.shutdown = true → k.toSocket = none) ∧
    EventLoop.ReadableHup (StreamCopy.rule k) (s.copying x).rules .fromSocket
      (s.copying x).state k.poll

instance (s : Lab7) : ∀ ev, Decidable (s.Honest ev)
  | .stack (.turn _ _) => inferInstanceAs (Decidable (_ ∧ _ ∧ _))
  | .stack (.connect _) | .stack (.listenAndAccept _) | .stack (.arrive _ _ _)
  | .stack (.route _) | .stack (.ageRouter _ _ _) => isTrue trivial
  | .copy _ _ => inferInstanceAs (Decidable (_ ∧ _ ∧ _))

/-! ## What holds in every run -/

/-- The sockets and the copies are sound, and the pairs between them are. -/
structure Composed (isn : Side → WrappingInt32) (i0 : Internet) (s : Lab7) : Prop where
  stack : s.stack.Sound isn i0
  copied : ∀ x, StreamCopy.Copied (s.copying x)
  joined : ∀ x, Books.Joined (s.stack.books x) (s.copying x).state.books

/-- Who has been told the end has taken everything; and nobody has ended without having been
told. -/
structure Finished (s : Lab7) : Prop where
  sockets : ∀ x, Books.Heard (s.stack.books x) (s.copying x).state.books
  copies : ∀ x, Books.Heard (s.copying x).state.books (s.stack.books x)
  told : ∀ x, (s.stack.socket x).Told
  copyTold : ∀ x, (s.copying x).state.Told

section
variable {isn : Side → WrappingInt32} {i0 : Internet} {s : Lab7} {x z : Side}

@[simp] theorem copying_setCopying (s : Lab7) (x : Side) (c : StreamCopy.Copying) :
    (s.setCopying x c).copying x = c := by cases x <;> rfl

@[simp] theorem copying_setCopying_other (s : Lab7) (x : Side) (c : StreamCopy.Copying) :
    (s.setCopying x c).copying x.other = s.copying x.other := by cases x <;> rfl

@[simp] theorem stack_setCopying (s : Lab7) (x : Side) (c : StreamCopy.Copying) :
    (s.setCopying x c).stack = s.stack := by cases x <;> rfl

theorem Composed.stack_nodup (h : s.Composed isn i0) (x : Side) :
    (s.stack.socket x).rules.Nodup :=
  List.Nodup.sublist (h.stack.rules x) (by decide)

theorem Composed.copy_nodup (h : s.Composed isn i0) (x : Side) : (s.copying x).rules.Nodup :=
  List.Nodup.sublist (h.copied x).holds.sublist (by decide)

/-- What the copy of `x` can do. -/
theorem copy_cases (s : Lab7) (x : Side) (k : StreamCopy.Kernel) :
    s.step (.copy x k) = s ∨
      s.step (.copy x k) = s.setCopying x (StreamCopy.turn (s.copying x) k) := by
  rw [step]
  split <;> simp

theorem Composed.stack_step (h : s.Composed isn i0) (ev : FullStack.Event)
    (hp : s.Piped (.stack ev)) : (s.step (.stack ev)).Composed isn i0 := by
  refine ⟨h.stack.step ev, h.copied, fun z => ?_⟩
  rcases FullStack.step_exchange h.stack_nodup ev z with hg | ⟨k, rfl, ht⟩
  · exact (h.joined z).grows hg
  · exact (h.joined z).takes ht hp

theorem Composed.copy_step (h : s.Composed isn i0) (x : Side) (k : StreamCopy.Kernel)
    (hp : s.Piped (.copy x k)) : (s.step (.copy x k)).Composed isn i0 := by
  rcases s.copy_cases x k with heq | heq <;> rw [heq]
  · exact h
  refine ⟨?_, fun z => ?_, fun z => ?_⟩
  · rw [stack_setCopying]
    exact h.stack
  · rcases side_cases x z with rfl | rfl
    · rw [copying_setCopying]
      exact ((h.copied _).turn k).1
    · rw [copying_setCopying_other]
      exact h.copied x.other
  · rw [stack_setCopying]
    rcases side_cases x z with rfl | rfl
    · rw [copying_setCopying]
      have hj := (h.joined z).symm
      rcases StreamCopy.turn_exchange (h.copy_nodup z) k with hg | ht
      · exact (hj.grows hg).symm
      · exact (hj.takes ht hp).symm
    · rw [copying_setCopying_other]
      exact h.joined x.other

theorem Composed.step (h : s.Composed isn i0) (ev : Event) (hp : s.Piped ev) :
    (s.step ev).Composed isn i0 := by
  cases ev with
  | stack ev => exact h.stack_step ev hp
  | copy x k => exact h.copy_step x k hp

theorem composed_mk {cfgA cfgB : HostConfig} {routers : List Router}
    (h0 : mk? cfgA cfgB routers = some s) (ha : NoEcho cfgA.adapter cfgA.adapter)
    (hb : NoEcho cfgB.adapter cfgB.adapter) (hidle : ∀ r ∈ routers, r.Idle) :
    s.Composed (fun x => (s.stack.internet.system.endpoint x).conn.sender.isn)
      s.stack.internet := by
  simp only [mk?, Option.map_eq_some_iff] at h0
  obtain ⟨stack, hmk, rfl⟩ := h0
  refine ⟨FullStack.sound_mk hmk ha hb hidle, fun x => ?_, fun x => ?_⟩
  · cases x <;> exact StreamCopy.copied_start {}
  · simp only [FullStack.mk?, Option.map_eq_some_iff] at hmk
    obtain ⟨internet, -, rfl⟩ := hmk
    cases x <;> exact ⟨List.prefix_rfl, List.prefix_rfl⟩

theorem Finished.stack_step (h : s.Finished) (hc : s.Composed isn i0) (ev : FullStack.Event)
    (hp : s.Piped (.stack ev)) (hh : s.Honest (.stack ev)) : (s.step (.stack ev)).Finished := by
  refine ⟨fun z => ?_, fun z => ?_, fun z => ?_, h.copyTold⟩
  · rcases FullStack.step_exchange hc.stack_nodup ev z with hg | ⟨k, rfl, ht⟩
    · exact (h.sockets z).grows hg
    · exact (h.sockets z).takes ht hp hh.1
  · have hended : (s.stack.books z).ended = true → ((s.stack.step ev).books z).ended = true := by
      rcases FullStack.step_exchange hc.stack_nodup ev z with hg | ⟨k, rfl, ht⟩
      · exact hg.ended
      · exact ht.ended
    refine (h.copies z).given hended fun hend => FullStack.step_silent ev fun k hk => ?_
    subst hk
    exact hh.2.1 hend
  · refine FullStack.step_told ev (fun k hk => ?_) (h.told z)
    subst hk
    exact hh.2.2

theorem Finished.copy_step (h : s.Finished) (hc : s.Composed isn i0) (x : Side)
    (k : StreamCopy.Kernel) (hp : s.Piped (.copy x k)) (hh : s.Honest (.copy x k)) :
    (s.step (.copy x k)).Finished := by
  rcases s.copy_cases x k with heq | heq <;> rw [heq]
  · exact h
  have hexchange := StreamCopy.turn_exchange (hc.copy_nodup x) k
  refine ⟨fun z => ?_, fun z => ?_, fun z => ?_, fun z => ?_⟩
  · rw [stack_setCopying]
    rcases side_cases x z with rfl | rfl
    · rw [copying_setCopying]
      refine (h.sockets z).given (hexchange.elim (·.ended) (·.ended)) fun hend => ?_
      exact StreamCopy.turn_silent (hh.2.1 hend)
    · rw [copying_setCopying_other]
      exact h.sockets x.other
  · rw [stack_setCopying]
    rcases side_cases x z with rfl | rfl
    · rw [copying_setCopying]
      rcases hexchange with hg | ht
      · exact (h.copies z).grows hg
      · exact (h.copies z).takes ht hp hh.1
    · rw [copying_setCopying_other]
      exact h.copies x.other
  · rw [stack_setCopying]
    exact h.told z
  · rcases side_cases x z with rfl | rfl
    · rw [copying_setCopying]
      exact StreamCopy.turn_told hh.2.2 (h.copyTold z)
    · rw [copying_setCopying_other]
      exact h.copyTold x.other

theorem Finished.step (h : s.Finished) (hc : s.Composed isn i0) (ev : Event) (hp : s.Piped ev)
    (hh : s.Honest ev) : (s.step ev).Finished := by
  cases ev with
  | stack ev => exact h.stack_step hc ev hp hh
  | copy x k => exact h.copy_step hc x k hp hh

theorem finished_mk {cfgA cfgB : HostConfig} {routers : List Router}
    (h0 : mk? cfgA cfgB routers = some s) : s.Finished := by
  simp only [mk?, FullStack.mk?, Option.map_map, Option.map_eq_some_iff] at h0
  obtain ⟨internet, -, rfl⟩ := h0
  refine ⟨fun x => ?_, fun x => ?_, fun x => ?_, fun x => ?_⟩
  · cases x <;> rintro ⟨⟩
  · cases x <;> rintro ⟨⟩
  · cases x <;> exact ⟨rfl, by rintro ⟨⟩⟩
  · cases x <;> exact ⟨rfl, by rintro ⟨⟩, by rintro ⟨⟩⟩

/-! ## From end to end -/

theorem Composed.written (h : s.Composed isn i0) (x : Side) :
    (s.copying x).state.outbound.written <+: (s.copying x).state.outbound.read :=
  ⟨_, (h.copied x).holds.inv.1.split⟩

theorem Composed.taken (h : s.Composed isn i0) (x : Side) :
    (s.stack.socket x).taken <+: (s.copying x).state.outbound.read :=
  (h.joined x).left.trans (h.written x)

theorem Composed.veryShort (h : s.Composed isn i0)
    (hs : ∀ x, (s.copying x).state.outbound.read.length < 2 ^ 31) :
    VeryShort s.stack.internet.system := fun x => by
  have hx := hs x
  have hle := (h.taken x).length_le
  rw [h.stack.inv.taken] at hle
  rw [Internet.system_endpoint]
  omega

end

/-- **From end to end.** However the bytes are cut, lost, repeated, reordered, routed and scheduled
on the way: what a host has written to its standard output is a prefix of what the other host has
read from its standard input, as long as both have read less than 2^31 bytes. -/
theorem stdout_prefix_stdin (cfgA cfgB : HostConfig) (routers : List Router) (s : Lab7)
    (evs : List Event) (h0 : mk? cfgA cfgB routers = some s)
    (ha : NoEcho cfgA.adapter cfgA.adapter) (hb : NoEcho cfgB.adapter cfgB.adapter)
    (hidle : ∀ r ∈ routers, r.Idle) (hp : Along step Piped s evs)
    (hs : ∀ x, ((run step s evs).copying x).state.outbound.read.length < 2 ^ 31) (x : Side) :
    ((run step s evs).copying x).state.inbound.written <+:
      ((run step s evs).copying x.other).state.outbound.read := by
  have h := hp.inv (composed_mk h0 ha hb hidle) fun _ ev h hg => h.step ev hg
  generalize run step s evs = t at h hs ⊢
  have hinv := h.stack.inv
  have hvery := h.veryShort hs
  calc (t.copying x).state.inbound.written
    _ <+: (t.copying x).state.inbound.read := ⟨_, (h.copied x).holds.inv.2.split⟩
    _ <+: (t.stack.socket x).given := (h.joined x).right
    _ <+: (t.stack.internet.host x).endpoint.received := by
      rw [hinv.given]
      exact List.prefix_append ..
    _ <+: (t.stack.internet.host x.other).endpoint.wrote :=
      hinv.ran.received (hinv.ran.near hvery) hvery.short x
    _ <+: (t.copying x.other).state.outbound.read := by
      rw [← hinv.taken]
      exact h.taken x.other

/-- **The end.** If the pairs do not make it up, a host that has closed its standard output has
written all that the other host has read from its standard input, which has ended: unless its
connection has failed, or an early FIN has come. -/
theorem stdout_eq_stdin (cfgA cfgB : HostConfig) (routers : List Router) (s : Lab7)
    (evs : List Event) (h0 : mk? cfgA cfgB routers = some s)
    (ha : NoEcho cfgA.adapter cfgA.adapter) (hb : NoEcho cfgB.adapter cfgB.adapter)
    (hidle : ∀ r ∈ routers, r.Idle) (hp : Along step Piped s evs) (hh : Along step Honest s evs)
    (hs : ∀ x, ((run step s evs).copying x).state.outbound.read.length < 2 ^ 31) (x : Side)
    (hfin : Along Internet.step (Internet.NoEarlyFin x) s.stack.internet
      (run step s evs).stack.events)
    (hclosed : ((run step s evs).copying x).state.inbound.shutdown = true)
    (herror : ((run step s evs).stack.conn x).inboundStream.error = false) :
    ((run step s evs).copying x).state.inbound.written =
        ((run step s evs).copying x.other).state.outbound.read ∧
      ((run step s evs).copying x.other).state.outbound.stream.inputEnd = true := by
  obtain ⟨h, hf⟩ := (hp.and hh).inv
    (I := fun t : Lab7 => t.Composed (fun x => (s.stack.internet.system.endpoint x).conn.sender.isn)
      s.stack.internet ∧ t.Finished)
    ⟨composed_mk h0 ha hb hidle, finished_mk h0⟩
    fun _ ev ⟨h, hf⟩ hg => ⟨h.step ev hg.1, hf.step h ev hg.1 hg.2⟩
  generalize run step s evs = t at h hf hs hfin hclosed herror ⊢
  have hinv := h.stack.inv
  have hvery := h.veryShort hs
  -- from the output back to the socket
  have hin := (h.copied x).holds.inv.2
  obtain ⟨hend, hempty, hlost⟩ := hin.shutdown hclosed
  have hwritten := hin.split
  rw [hempty, List.append_nil] at hwritten
  have heof : (t.copying x).state.socket.eof = true :=
    ((hf.copyTold x).ends hend).resolve_right (by rw [hlost]; exact Bool.false_ne_true)
  obtain ⟨hshut, hread⟩ := hf.copies x heof
  -- over the network
  obtain ⟨hreads, hended⟩ := hinv.inbound x hshut herror
    ⟨hinv.ran.near hvery, hvery.short, hfin⟩
  rw [hinv.outbound] at hended
  -- from the other socket back to the input
  obtain ⟨hout, htaken⟩ := hf.sockets x.other ((hf.told x.other).2 hended)
  have hother := (h.copied x.other).holds.inv.1
  obtain ⟨hend', hempty', -⟩ := hother.shutdown hout
  have hall := hother.split
  rw [hempty', List.append_nil] at hall
  refine ⟨?_, hend'⟩
  calc (t.copying x).state.inbound.written
    _ = (t.copying x).state.inbound.read := hwritten
    _ = (t.stack.socket x).given := hread
    _ = (t.stack.internet.host x).endpoint.reads := hinv.given x
    _ = (t.stack.internet.host x.other).endpoint.wrote := hreads
    _ = (t.stack.socket x.other).taken := (hinv.taken x.other).symm
    _ = (t.copying x.other).state.outbound.written := htaken
    _ = (t.copying x.other).state.outbound.read := hall

/-! ## A run of the program -/

theorem host_noEcho (isClient : Bool) (rd : Draws) :
    NoEcho (host isClient rd).adapter (host isClient rd).adapter := by
  cases isClient with
  | false => exact ⟨rfl, .inl (show (0 : UInt16) ≠ 1234 by decide)⟩
  | true =>
    refine ⟨rfl, .inr ⟨rfl, rfl, fun heq => ?_⟩⟩
    exact absurd (congrArg SocketAddress.ipv4Numeric heq)
      (show (0xc0a80032 : UInt32) ≠ 0xac100064 by decide)

theorem routers_idle (client server : Draws) :
    ∀ r ∈ [router true client, router false server], r.Idle := by
  simp [router, Router.addInterface, Router.addRoute, Router.Idle]

section
open FullStack (reads flushes)

def clientDraws : Draws where
  host := { bytes := [4, 0, 0, 0, 0, 1] }
  hostSide := { bytes := [4, 5, 6, 0, 0, 1] }
  internetSide := { bytes := [4, 5, 6, 0, 0, 2] }
  port := 5000
  isn := 7

def serverDraws : Draws where
  host := { bytes := [8, 0, 0, 0, 0, 1] }
  hostSide := { bytes := [8, 5, 6, 0, 1, 1] }
  internetSide := { bytes := [8, 5, 6, 0, 1, 2] }
  isn := 40

/-- The hosts connect, after three address resolutions. Two bytes and their end go from the input
of the client to the output of the server. -/
def typedEvents : List Event :=
  ([.listenAndAccept .b, .connect .a, flushes .a, .arrive 0 0 2, reads .a 3, .arrive 0 0 4,
    .route 0, .arrive 1 1 5, .arrive 0 1 6, .arrive 1 1 7, .route 1, reads .b 8, .arrive 1 0 9,
    reads .b 10, flushes .b, .arrive 1 0 11, .route 1, .arrive 0 1 12, .route 0, reads .a 13,
    .turn .a { poll := .timeout }] : List FullStack.Event).map .stack ++
  [.copy .a { poll := .ready [{ pollIn := true }], input := some [97, 98] },
   .copy .a { poll := .ready [{ pollIn := true }, { pollOut := true }], input := some []
              toSocket := some 2 }] ++
  ([.turn .a { poll := .ready [{}, { pollIn := true }, {}, { pollOut := true }]
               data := some [97, 98] },
    .turn .a { poll := .ready [{}, { pollIn := true }], data := some [] },
    -- the rule that reads from the copy is gone
    .turn .a { poll := .ready [{}, {}, { pollOut := true }] },
    .arrive 0 0 14, .arrive 0 0 15, .arrive 0 0 16, .route 0, .arrive 1 1 17, .arrive 1 1 18,
    .arrive 1 1 19, .route 1, reads .b 20, .turn .b { poll := .timeout }, reads .b 21,
    .turn .b { poll := .ready [{ pollIn := true }, {}, { pollOut := true }], frame := 22
               inbound := some 2 }] : List FullStack.Event).map .stack ++
  [.copy .b { poll := .ready [{}, {}, { pollIn := true }], socket := some [97, 98] },
   .copy .b { poll := .ready [{}, {}, { pollIn := true }, { pollOut := true }], socket := some []
              output := some 2 }]

theorem stdout_prefix_typed : ∃ s, programBody clientDraws serverDraws = some s ∧
    ((run step s typedEvents).copying .b).state.inbound.written = [97, 98] ∧
    ((run step s typedEvents).copying .b).state.inbound.written <+:
      ((run step s typedEvents).copying .a).state.outbound.read := by
  obtain ⟨s, h0⟩ : ∃ s, programBody clientDraws serverDraws = some s := ⟨_, rfl⟩
  have hrun : ∀ s ∈ programBody clientDraws serverDraws,
      Along step Piped s typedEvents ∧
      ((run step s typedEvents).copying .b).state.inbound.written = [97, 98] ∧
      ((run step s typedEvents).copying .a).state.outbound.read.length < 2 ^ 31 ∧
      ((run step s typedEvents).copying .b).state.outbound.read.length < 2 ^ 31 := by
    decide +kernel
  obtain ⟨hp, hwritten, ha, hb⟩ := hrun s h0
  exact ⟨s, h0, hwritten, stdout_prefix_stdin _ _ _ s typedEvents h0 (host_noEcho true clientDraws)
    (host_noEcho false serverDraws) (routers_idle clientDraws serverDraws) hp
    (fun x => by cases x; exacts [ha, hb]) .b⟩

theorem stdout_eq_typed : ∃ s, programBody clientDraws serverDraws = some s ∧
    ((run step s typedEvents).copying .b).state.inbound.written =
      ((run step s typedEvents).copying .a).state.outbound.read ∧
    ((run step s typedEvents).copying .a).state.outbound.stream.inputEnd = true := by
  obtain ⟨s, h0⟩ : ∃ s, programBody clientDraws serverDraws = some s := ⟨_, rfl⟩
  have hguards : ∀ s ∈ programBody clientDraws serverDraws,
      Along step Piped s typedEvents ∧ Along step Honest s typedEvents ∧
      Along Internet.step (Internet.NoEarlyFin .b) s.stack.internet
        (run step s typedEvents).stack.events := by decide +kernel
  have hends : ∀ s ∈ programBody clientDraws serverDraws,
      ((run step s typedEvents).copying .a).state.outbound.read.length < 2 ^ 31 ∧
      ((run step s typedEvents).copying .b).state.outbound.read.length < 2 ^ 31 ∧
      ((run step s typedEvents).copying .b).state.inbound.shutdown = true ∧
      ((run step s typedEvents).stack.conn .b).inboundStream.error = false := by decide +kernel
  obtain ⟨hp, hh, hfin⟩ := hguards s h0
  obtain ⟨ha, hb, hclosed, herror⟩ := hends s h0
  exact ⟨s, h0, stdout_eq_stdin _ _ _ s typedEvents h0 (host_noEcho true clientDraws)
    (host_noEcho false serverDraws) (routers_idle clientDraws serverDraws) hp hh
    (fun x => by cases x; exacts [ha, hb]) .b hfin hclosed herror⟩

end

end Lab7

end Sponge
