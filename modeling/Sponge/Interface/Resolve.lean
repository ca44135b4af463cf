import Sponge.Interface.Delivery
import Sponge.Interface.Visits
import Sponge.Lib.SoftState
import Sponge.Wire.Message

/-!
# Address resolution

What the two maps are for: a table that forgets (`Lib.SoftState`), in which an IP
is unknown, asked for, or bound to an Ethernet address. One counter and one map
hold it (`written`): the counter goes up from 0 with the age of a mapping and
down from -1 with the age of a request. `Coherent` says that they do, and that
the table is sound for what has come in and gone out; every call keeps it.

So the maps agree, an IPv4 frame goes to the address its next hop told last, and
requests are paced (`resolver_sound`). The loop of `tick` is read as visiting
each entry once (`tickOnce`).
-/

namespace Sponge

open Lib NetworkInterface

/-- An interface with a clock, the mappings it has been told and the requests it has sent, the
newest first. -/
structure Resolver where
  iface : NetworkInterface
  now : Nat := 0
  learned : List (UInt32 × EthernetAddress × Nat) := []
  asked : List (UInt32 × Nat) := []

namespace Resolver

/-- The IP whose address a frame asks for, if it is an ARP request. -/
def asks (frame : EthernetFrame) : Option UInt32 :=
  if frame.header.type = EthernetHeader.TYPE_ARP then
    match frame.payload.toBuffer with
    | .error _ => none
    | .ok buffer =>
      let parsed := ARPMessage.parse {} buffer
      if parsed.1 = .noError ∧ parsed.2.opcode = ARPMessage.OPCODE_REQUEST then
        some parsed.2.targetIpAddress
      else none
  else none

/-- The frames that a call pushes. -/
def added (w : Resolver) (op : Op) : List EthernetFrame :=
  (w.iface.callOnce op).2.framesOut.drop w.iface.framesOut.length

/-- The time after a call. -/
def clock (w : Resolver) : Op → Nat
  | .tick ms => w.now + ms
  | .sendDatagram .. | .recvFrame _ => w.now

/-- What a call is told. -/
def told (w : Resolver) : Op → List (UInt32 × EthernetAddress × Nat)
  | .recvFrame frame => ((Outbound.teaches frame).map fun m => (m.1, m.2, w.now)).toList
  | .sendDatagram .. | .tick _ => []

def step (w : Resolver) (op : Op) : Resolver where
  iface := (w.iface.callOnce op).2
  now := w.clock op
  learned := w.told op ++ w.learned
  asked := (((w.added op).filterMap asks).map fun ip => (ip, w.clock op)).reverse ++ w.asked

/-- The datagrams that a call can send: its own, or those that wait. -/
def due (w : Resolver) : Op → List (Address × InternetDatagram)
  | .sendDatagram dgram nextHop => [(nextHop, dgram)]
  | .recvFrame _ | .tick _ => w.iface.dgramStage

/-- The maps agree, and two requests for one IP are at least 5000 ms apart. -/
structure Consistent (w : Resolver) : Prop where
  mapped : ∀ ip, ip ∈ w.iface.addrMap ↔
    ∃ status, w.iface.mapStatus.lookup ip = some status ∧ 0 ≤ status
  paced : w.asked.Pairwise fun later earlier => later.1 = earlier.1 → earlier.2 + 5000 ≤ later.2

/-- The IPv4 frames of a call go to the address their next hop told last, less than 30000 ms ago;
`sendDatagram` pushes nothing but these and requests. -/
structure Addressed (w : Resolver) (op : Op) : Prop where
  delivers : ∀ frame ∈ w.added op, frame.header.type = EthernetHeader.TYPE_IPv4 →
    ∃ x ∈ w.due op, x.2.serialize = .ok frame.payload ∧
      ∃ since, (w.step op).learned.lookup x.1.ipv4Numeric = some (frame.header.dst, since) ∧
        (w.step op).now < since + 30000
  sends : ∀ dgram nextHop, op = .sendDatagram dgram nextHop → ∀ frame ∈ w.added op,
    frame.header.type = EthernetHeader.TYPE_IPv4 ∨ (asks frame).isSome

/-! ## The table behind the maps -/

def lifetimes : Lifetimes where
  ask := 5000
  keep := 30000

/-- How the two maps hold a binding. -/
def written (now : Nat) : Binding EthernetAddress → Option Int × Option EthernetAddress
  | .unknown => (none, none)
  | .pending since => (some (-1 - (now - since : Int)), none)
  | .bound addr since => (some (now - since : Int), some addr)

/-- The maps hold the table, and the table is sound for the history. -/
structure Coherent (w : Resolver) (table : UInt32 → Binding EthernetAddress) : Prop where
  entries : ∀ ip, w.iface.entry ip = written w.now (table ip)
  sound : SoftState.Sound lifetimes
    { now := w.now, table := table, learned := w.learned, asked := w.asked }

section
variable {w : Resolver} {op : Op} {table : UInt32 → Binding EthernetAddress}

/-- A tick ages what the maps hold as time ages the binding. -/
theorem turn_written {now : Nat} {b : Binding EthernetAddress} (h : b.Alive lifetimes now)
    (ms : Nat) :
    turn ms (written now b) = written (now + ms) (b.expire lifetimes (now + ms)) := by
  cases b with
  | unknown => rfl
  | pending since =>
    obtain ⟨hle, -⟩ := h
    rw [Binding.expire_pending]
    change turn ms (some (-1 - (now - since : Int)), none) = _
    by_cases hlt : now + ms < since + 5000
    · rw [turn_lives (by unfold Lives; omega), show (if now + ms < since + lifetimes.ask then
        Binding.pending since else .unknown) = .pending since from if_pos hlt]
      unfold written aged
      rw [if_neg (by omega)]
      simp only [Prod.mk.injEq, Option.some.injEq, and_true]
      omega
    · rw [turn_expires (by unfold Lives; omega), if_neg (by omega),
        show (if now + ms < since + lifetimes.ask then Binding.pending since else .unknown) =
          .unknown from if_neg hlt]
      rfl
  | bound addr since =>
    obtain ⟨hle, -⟩ := h
    rw [Binding.expire_bound]
    change turn ms (some (now - since : Int), some addr) = _
    by_cases hlt : now + ms < since + 30000
    · rw [turn_lives (by unfold Lives; omega), show (if now + ms < since + lifetimes.keep then
        Binding.bound addr since else .unknown) = .bound addr since from if_pos hlt]
      unfold written aged
      rw [if_pos (by omega)]
      simp only [Prod.mk.injEq, Option.some.injEq, and_true]
      omega
    · rw [turn_expires (by unfold Lives; omega), if_pos (by omega),
        show (if now + ms < since + lifetimes.keep then Binding.bound addr since else .unknown) =
          .unknown from if_neg hlt]
      rfl

/-- A binding that is alive is held by a counter in range. -/
theorem written_range {now : Nat} {b : Binding EthernetAddress} (h : b.Alive lifetimes now)
    {status : Int} (hs : (written now b).1 = some status) : -5001 < status ∧ status < 30000 := by
  cases b with
  | unknown => cases hs
  | pending since =>
    obtain ⟨hle, hlt⟩ := h
    unfold lifetimes at hlt
    cases hs
    simp only at hlt
    omega
  | bound addr since =>
    obtain ⟨hle, hlt⟩ := h
    unfold lifetimes at hlt
    cases hs
    simp only at hlt
    omega

theorem Coherent.status_eq (h : w.Coherent table) (ip : UInt32) :
    w.iface.mapStatus.lookup ip = (written w.now (table ip)).1 := congrArg Prod.fst (h.entries ip)

theorem Coherent.addr_eq (h : w.Coherent table) (ip : UInt32) :
    w.iface.addrMap.lookup ip = (written w.now (table ip)).2 := congrArg Prod.snd (h.entries ip)

/-- An IP that is mapped is bound, to what it told last. -/
theorem Coherent.latest (h : w.Coherent table) {ip : UInt32} {addr : EthernetAddress}
    (haddr : w.iface.addrMap.lookup ip = some addr) :
    ∃ since, w.learned.lookup ip = some (addr, since) ∧ w.now < since + 30000 := by
  rw [h.addr_eq] at haddr
  cases hb : table ip with
  | unknown =>
    rw [hb] at haddr
    cases haddr
  | pending since =>
    rw [hb] at haddr
    cases haddr
  | bound addr' since =>
    rw [hb] at haddr
    cases haddr
    exact ⟨since, h.sound.latest ip addr since hb, h.sound.fresh hb⟩

theorem Coherent.alive (h : w.Coherent table) (ip : UInt32) :
    (table ip).Alive lifetimes w.now := h.sound.alive ip

theorem Coherent.ready_iff (h : w.Coherent table) (ip : UInt32) :
    w.iface.Ready ip ↔ (w.iface.addrMap.lookup ip).isSome := by
  rw [NetworkInterface.ready_iff, h.status_eq, h.addr_eq]
  have halive := h.alive ip
  cases hb : table ip with
  | unknown => simp [written]
  | pending since =>
    rw [hb] at halive
    obtain ⟨hle, -⟩ := halive
    simp only [written, Option.isSome_none, Bool.false_eq_true, iff_false]
    rintro ⟨status, hs, h0⟩
    cases hs
    omega
  | bound addr since =>
    rw [hb] at halive
    obtain ⟨hle, -⟩ := halive
    simp only [written, Option.isSome_some, iff_true]
    exact ⟨_, rfl, by omega⟩

theorem Coherent.consistent (h : w.Coherent table) : w.Consistent where
  mapped ip := by
    rw [← AList.lookup_isSome, ← h.ready_iff, NetworkInterface.ready_iff]
  paced := h.sound.paced

/-! ## The frames of a call -/

theorem asks_ipv4 {frame : EthernetFrame} (h : frame.header.type = EthernetHeader.TYPE_IPv4) :
    asks frame = none := by
  unfold asks
  rw [if_neg]
  rw [h]
  decide

theorem asks_message {frame : EthernetFrame} {msg : ARPMessage} {bytes : List UInt8}
    (htype : frame.header.type = EthernetHeader.TYPE_ARP) (hser : msg.serialize = .ok bytes)
    (hp : frame.payload = [bytes]) : asks frame =
      if msg.opcode = ARPMessage.OPCODE_REQUEST then some msg.targetIpAddress else none := by
  have hparse := ARPMessage.parse_serialize hser {} []
  rw [List.append_nil] at hparse
  unfold asks
  rw [if_pos htype, hp]
  simp only [BufferList.toBuffer, hparse, true_and]

theorem asks_reply {frame : EthernetFrame} (h : IsReply frame) : asks frame = none := by
  obtain ⟨htype, msg, bytes, hop, hser, hp⟩ := h
  rw [asks_message htype hser hp, hop]
  exact if_neg (by decide)

theorem added_eq {new : List EthernetFrame}
    (h : (w.iface.callOnce op).2.framesOut = w.iface.framesOut ++ new) : w.added op = new := by
  unfold added
  rw [h, List.drop_left]

/-- Frames that ask for nothing leave the list of requests. -/
theorem step_quiet {new : List EthernetFrame} (h : w.added op = new)
    (hq : ∀ frame ∈ new, asks frame = none) : (w.step op).asked = w.asked := by
  have hnil : (w.added op).filterMap asks = [] := by
    rw [h]
    exact List.filterMap_eq_nil_iff.mpr hq
  unfold step
  simp only [hnil, List.map_nil, List.reverse_nil, List.nil_append]

/-- Frames that ask for nothing leave the table as the call has made it. -/
theorem Coherent.quiet {t : NetworkInterface} {new : List EthernetFrame}
    (h : Coherent { iface := t, now := w.clock op, learned := w.told op ++ w.learned
                    asked := w.asked } table)
    (hentry : ∀ ip, (w.iface.callOnce op).2.entry ip = t.entry ip) (hadded : w.added op = new)
    (hq : ∀ frame ∈ new, asks frame = none) : (w.step op).Coherent table where
  entries ip := (hentry ip).trans (h.entries ip)
  sound := by
    rw [step_quiet hadded hq]
    exact h.sound

theorem addressed_nil (h : w.added op = []) : w.Addressed op where
  delivers := by
    rw [h]
    rintro _ ⟨⟩
  sends := by
    rw [h]
    rintro _ _ _ _ ⟨⟩

/-- A call that ends with the flush: replies go out, then datagrams that were waiting. -/
theorem Coherent.flushed (op : Op) (t : NetworkInterface) (replies : List EthernetFrame)
    (hcall : (w.iface.callOnce op).2 =
      (sendStageDatagram { t with framesOut := w.iface.framesOut ++ replies }).2)
    (hreplies : ∀ frame ∈ replies, IsReply frame) (hdue : w.due op = t.dgramStage)
    (hop : ∀ dgram nextHop, op ≠ .sendDatagram dgram nextHop)
    (h : Coherent { iface := t, now := w.clock op, learned := w.told op ++ w.learned
                    asked := w.asked } table) :
    (w.step op).Coherent table ∧ w.Addressed op := by
  obtain ⟨new, stage, hflush, hnew⟩ := stageLoop_sends t.dgramStage.length 0
    { t with framesOut := w.iface.framesOut ++ replies } fun ip => (h.ready_iff ip).mp
  have hiface : (w.iface.callOnce op).2 =
      { t with framesOut := w.iface.framesOut ++ replies ++ new, dgramStage := stage } :=
    hcall.trans hflush
  have hadded : w.added op = replies ++ new := added_eq (by rw [hiface, List.append_assoc])
  have hipv4 : ∀ frame ∈ new, frame.header.type = EthernetHeader.TYPE_IPv4 := by
    intro frame hm
    obtain ⟨x, -, dst, payload, -, -, rfl⟩ := hnew frame hm
    rfl
  have hquiet : ∀ frame ∈ replies ++ new, asks frame = none := by
    intro frame hm
    rcases List.mem_append.mp hm with hm | hm
    · exact asks_reply (hreplies frame hm)
    · exact asks_ipv4 (hipv4 frame hm)
  refine ⟨h.quiet (fun ip => by rw [hiface]; rfl) hadded hquiet, ?_,
    fun dgram nextHop he => absurd he (hop dgram nextHop)⟩
  rw [hadded, hdue]
  intro frame hm htype
  rcases List.mem_append.mp hm with hm | hm
  · have harp := (hreplies frame hm).1
    rw [htype] at harp
    exact absurd harp (by decide)
  · obtain ⟨x, hx, dst, payload, hdst, hp, rfl⟩ := hnew frame hm
    exact ⟨x, hx, hp, h.latest hdst⟩

/-! ## The calls -/

/-- A tick turns every entry, and time moves on. -/
theorem Coherent.tick (h : w.Coherent table) {ms : Nat} (hms : w.iface.ShowsAge ms) :
    ((w.step (.tick ms)).Coherent fun ip => (table ip).expire lifetimes (w.now + ms)) ∧
      w.Addressed (.tick ms) := by
  obtain ⟨entries, addrs, hframe⟩ := visitAll_frame ms
    (w.iface.mapStatus.keys.insertionSort (· ≤ ·)) w.iface
  have hturned : Coherent { iface := w.iface.tickEach ms, now := w.now + ms
                            learned := w.learned, asked := w.asked }
      fun ip => (table ip).expire lifetimes (w.now + ms) := by
    refine ⟨fun ip => ?_, h.sound.advance (show 5000 ≤ 30000 by omega) ms⟩
    rw [← turn_written (h.alive ip), ← h.entries ip]
    exact (tickEach_entry w.iface ms ip).trans (hms.turn ip)
  refine Coherent.flushed (w := w) (.tick ms) (w.iface.tickEach ms) [] ?_
    (by rintro _ ⟨⟩) ?_ (by rintro _ _ ⟨⟩) hturned
  · have hpushed : (w.iface.tickEach ms).framesOut = w.iface.framesOut := by
      unfold tickEach
      rw [hframe]
    rw [List.append_nil, ← hpushed]
    rfl
  · show w.iface.dgramStage = _
    unfold tickEach
    rw [hframe]

/-- What a frame teaches is bound. -/
theorem Coherent.learn (h : w.Coherent table) (msg : ARPMessage) :
    ∃ table', Coherent { iface := w.iface.learn msg, now := w.now
                         learned := (msg.senderIpAddress, msg.senderEthernetAddress, w.now) ::
                           w.learned
                         asked := w.asked } table' := by
  refine ⟨_, fun ip => ?_, h.sound.learn (show 0 < 30000 by omega) msg.senderIpAddress
    msg.senderEthernetAddress⟩
  unfold entry NetworkInterface.learn
  by_cases he : ip = msg.senderIpAddress
  · subst he
    simp only [AList.lookup_insert, Function.update_self, written, Int.sub_self]
  · simp only [AList.lookup_insert_ne he, Function.update_of_ne he]
    exact h.entries ip

theorem told_recvFrame (w : Resolver) (frame : EthernetFrame) :
    w.told (.recvFrame frame) =
      ((Outbound.teaches frame).map fun m => (m.1, m.2, w.now)).toList := rfl

theorem Coherent.recvFrame (h : w.Coherent table) (frame : EthernetFrame) :
    (∃ table', (w.step (.recvFrame frame)).Coherent table') ∧
      w.Addressed (.recvFrame frame) := by
  rcases Outbound.recvFrame_cases w.iface frame with ⟨hteaches, -, heq⟩ |
    ⟨t, replies, hreplies, heq, ⟨hteaches, rfl⟩ | ⟨msg, hteaches, rfl⟩⟩
  · have htold : w.told (.recvFrame frame) = [] := by
      rw [told_recvFrame, hteaches]
      rfl
    have hsame : (w.iface.callOnce (.recvFrame frame)).2 = w.iface := heq
    have hadded : w.added (.recvFrame frame) = [] := added_eq (by rw [hsame, List.append_nil])
    exact ⟨⟨table, Coherent.quiet (t := w.iface) (by rw [htold]; exact h)
      (fun ip => by rw [hsame]) hadded (by rintro _ ⟨⟩)⟩, addressed_nil hadded⟩
  · have htold : w.told (.recvFrame frame) = [] := by
      rw [told_recvFrame, hteaches]
      rfl
    have hstep := Coherent.flushed (.recvFrame frame) w.iface replies
      (congrArg Prod.snd heq) hreplies rfl (by rintro _ _ ⟨⟩) (by rw [htold]; exact h)
    exact ⟨⟨table, hstep.1⟩, hstep.2⟩
  · have htold : w.told (.recvFrame frame) =
        [(msg.senderIpAddress, msg.senderEthernetAddress, w.now)] := by
      rw [told_recvFrame, hteaches]
      rfl
    obtain ⟨table', hlearn⟩ := h.learn msg
    have hstep := Coherent.flushed (.recvFrame frame) (w.iface.learn msg) replies
      (congrArg Prod.snd heq) hreplies rfl (by rintro _ _ ⟨⟩) (by rw [htold]; exact hlearn)
    exact ⟨⟨table', hstep.1⟩, hstep.2⟩

/-- A hop that is unknown is asked for. -/
theorem Coherent.sendDatagram_unknown (h : w.Coherent table) (dgram : InternetDatagram)
    {nextHop : Address} (hb : table nextHop.ipv4Numeric = .unknown) :
    (∃ table', (w.step (.sendDatagram dgram nextHop)).Coherent table') ∧
      w.Addressed (.sendDatagram dgram nextHop) := by
  have hstatus := h.status_eq nextHop.ipv4Numeric
  have haddr := h.addr_eq nextHop.ipv4Numeric
  rw [hb] at hstatus haddr
  obtain ⟨bytes, hser, hcall⟩ := sendDatagram_asks dgram haddr hstatus
  have hiface : (w.iface.callOnce (.sendDatagram dgram nextHop)).2 = _ := congrArg Prod.snd hcall
  have hadded : w.added (.sendDatagram dgram nextHop) = [w.iface.requestFrame bytes] :=
    added_eq (by rw [hiface])
  have hasks : asks (w.iface.requestFrame bytes) = some nextHop.ipv4Numeric :=
    (asks_message rfl hser rfl).trans (if_pos rfl)
  have hasked : (w.step (.sendDatagram dgram nextHop)).asked =
      (nextHop.ipv4Numeric, w.now) :: w.asked := by
    unfold step
    simp only [hadded, List.filterMap_cons, List.filterMap_nil, hasks]
    rfl
  refine ⟨⟨Function.update table nextHop.ipv4Numeric (.pending w.now), fun ip => ?_, ?_⟩, ?_, ?_⟩
  · unfold step entry
    rw [hiface]
    by_cases he : ip = nextHop.ipv4Numeric
    · subst he
      simp only [AList.lookup_insert, Function.update_self, written, haddr, clock]
      simp
    · simp only [AList.lookup_insert_ne he, Function.update_of_ne he]
      exact h.entries ip
  · rw [hasked]
    exact h.sound.ask (show 0 < 5000 by omega) hb
  · rw [hadded]
    intro frame hm htype
    rw [List.mem_singleton.mp hm] at htype
    exact absurd htype (show ¬ EthernetHeader.TYPE_ARP = EthernetHeader.TYPE_IPv4 by decide)
  · rw [hadded]
    intro _ _ _ frame hm
    rw [List.mem_singleton.mp hm, hasks]
    exact .inr rfl

/-- A datagram for a hop that is bound goes out, if it serializes. -/
theorem Coherent.sendDatagram_bound (h : w.Coherent table) (dgram : InternetDatagram)
    {nextHop : Address} {addr : EthernetAddress}
    (haddr : w.iface.addrMap.lookup nextHop.ipv4Numeric = some addr) :
    (w.step (.sendDatagram dgram nextHop)).Coherent table ∧
      w.Addressed (.sendDatagram dgram nextHop) := by
  cases hp : dgram.serialize with
  | error what =>
    have hsame : (w.iface.callOnce (.sendDatagram dgram nextHop)).2 = w.iface :=
      congrArg Prod.snd (sendDatagram_error haddr hp)
    have hadded : w.added (.sendDatagram dgram nextHop) = [] :=
      added_eq (by rw [hsame, List.append_nil])
    exact ⟨Coherent.quiet (t := w.iface) h (fun ip => by rw [hsame]) hadded (by rintro _ ⟨⟩),
      addressed_nil hadded⟩
  | ok payload =>
    have hiface : (w.iface.callOnce (.sendDatagram dgram nextHop)).2 = _ :=
      congrArg Prod.snd (sendDatagram_learned haddr hp)
    have hadded : w.added (.sendDatagram dgram nextHop) = [w.iface.ipv4Frame addr payload] :=
      added_eq (by rw [hiface])
    refine ⟨Coherent.quiet (t := w.iface) h (fun ip => by rw [hiface]; rfl) hadded ?_, ?_, ?_⟩
    · intro frame hm
      rw [List.mem_singleton.mp hm]
      exact asks_ipv4 rfl
    · rw [hadded]
      intro frame hm _
      rw [List.mem_singleton.mp hm]
      exact ⟨(nextHop, dgram), List.mem_singleton_self _, hp, h.latest haddr⟩
    · rw [hadded]
      intro _ _ _ frame hm
      rw [List.mem_singleton.mp hm]
      exact .inl rfl

/-- The three states of the hop: a request goes out, the datagram waits, or it goes out. -/
theorem Coherent.sendDatagram (h : w.Coherent table) (dgram : InternetDatagram)
    (nextHop : Address) : (∃ table', (w.step (.sendDatagram dgram nextHop)).Coherent table') ∧
      w.Addressed (.sendDatagram dgram nextHop) := by
  have hstatus := h.status_eq nextHop.ipv4Numeric
  have haddr := h.addr_eq nextHop.ipv4Numeric
  cases hb : table nextHop.ipv4Numeric with
  | unknown => exact h.sendDatagram_unknown dgram hb
  | pending since =>
    have halive := h.alive nextHop.ipv4Numeric
    rw [hb] at hstatus haddr halive
    obtain ⟨hle, -⟩ := halive
    have hiface : (w.iface.callOnce (.sendDatagram dgram nextHop)).2 = _ :=
      congrArg Prod.snd (sendDatagram_waits dgram haddr hstatus (by omega))
    have hadded : w.added (.sendDatagram dgram nextHop) = [] :=
      added_eq (by rw [hiface, List.append_nil])
    exact ⟨⟨table, Coherent.quiet (t := w.iface) h (fun ip => by rw [hiface]; rfl) hadded
      (by rintro _ ⟨⟩)⟩, addressed_nil hadded⟩
  | bound addr since =>
    rw [hb] at haddr
    have hbound := h.sendDatagram_bound dgram haddr
    exact ⟨⟨table, hbound.1⟩, hbound.2⟩

/-- Short times show, since no age is past its lifetime. -/
theorem Coherent.showsAge (h : w.Coherent table) {ms : Nat} (hms : ms < 2 ^ 30) :
    w.iface.ShowsAge ms := by
  rw [showsAge_iff]
  intro ip status hs
  have hrange := written_range (h.alive ip) (h.status_eq ip ▸ hs)
  unfold Shows age lifetime
  split <;> omega

theorem Coherent.step (h : w.Coherent table) (hms : ∀ ms, op = .tick ms → w.iface.ShowsAge ms) :
    (∃ table', (w.step op).Coherent table') ∧ w.Addressed op := by
  cases op with
  | sendDatagram dgram nextHop => exact h.sendDatagram dgram nextHop
  | recvFrame frame => exact h.recvFrame frame
  | tick ms =>
    have htick := h.tick (hms ms rfl)
    exact ⟨⟨_, htick.1⟩, htick.2⟩

theorem coherent_new (ethernetAddress : EthernetAddress) (ipAddress : Address) :
    Coherent { iface := { ethernetAddress, ipAddress } } fun _ => .unknown where
  entries _ := rfl
  sound := SoftState.sound_new lifetimes 0

end

/-- **Address resolution.** Whatever is sent and received, the two maps agree, IPv4 frames go to
the address their next hop told last, and requests for one IP are 5000 ms apart. -/
theorem resolver_sound (ethernetAddress : EthernetAddress) (ipAddress : Address) (ops : List Op)
    (hms : ∀ ms, .tick ms ∈ ops → ms < 2 ^ 30) :
    Always step Consistent { iface := { ethernetAddress, ipAddress } } ops ∧
      Along step Addressed { iface := { ethernetAddress, ipAddress } } ops := by
  have hguard : Along step (fun _ op => ∀ ms, op = .tick ms → ms < 2 ^ 30)
      { iface := { ethernetAddress, ipAddress } } ops := by
    have htrue : Along step (fun _ _ => True) { iface := { ethernetAddress, ipAddress } } ops :=
      along_of_forall fun _ _ => trivial
    have hall := htrue.and_forall (R := fun op => ∀ ms, op = .tick ms → ms < 2 ^ 30)
      fun op hm ms he => hms ms (he ▸ hm)
    exact hall.mono fun _ _ hG => hG.2
  have hnew : ∃ table, Coherent { iface := { ethernetAddress, ipAddress } } table :=
    ⟨_, coherent_new ethernetAddress ipAddress⟩
  have hstep (w : Resolver) (op : Op) (hI : ∃ table, w.Coherent table)
      (hG : ∀ ms, op = .tick ms → ms < 2 ^ 30) :
      (∃ table', (w.step op).Coherent table') ∧ w.Addressed op := by
    obtain ⟨table, h⟩ := hI
    exact h.step fun ms he => h.showsAge (hG ms he)
  constructor
  · exact (hguard.always hnew fun w op hI hG => (hstep w op hI hG).1).mono
      fun _ ⟨_, h⟩ => h.consistent
  · exact hguard.imp hnew (fun w op hI hG => (hstep w op hI hG).1)
      fun w op hI hG => (hstep w op hI hG).2

/-- A request, its answer, and the mapping up to the end of its life. -/
theorem resolver_sound_reply :
    Always step Consistent
        { iface := { ethernetAddress := Outbound.localEth, ipAddress := ⟨0x04030201⟩ } }
        [.sendDatagram (Outbound.byteDatagram 1) ⟨0xc0a80001⟩, .tick 4999,
          .recvFrame (Outbound.replyFrom 1), .tick 29999, .tick 1,
          .sendDatagram (Outbound.byteDatagram 2) ⟨0xc0a80001⟩] ∧
      Along step Addressed
        { iface := { ethernetAddress := Outbound.localEth, ipAddress := ⟨0x04030201⟩ } }
        [.sendDatagram (Outbound.byteDatagram 1) ⟨0xc0a80001⟩, .tick 4999,
          .recvFrame (Outbound.replyFrom 1), .tick 29999, .tick 1,
          .sendDatagram (Outbound.byteDatagram 2) ⟨0xc0a80001⟩] :=
  resolver_sound Outbound.localEth ⟨0x04030201⟩ _ fun ms hm => by
    simp at hm
    omega

end Resolver

end Sponge
