import Sponge.Interface.Flush
import Sponge.Lib.Run

/-!
# Delivery

What the interface is for: for each next hop it is a queue. A datagram that
`sendDatagram` takes goes out in one frame, to an address learned for the hop, or
waits, and the datagrams of a hop keep their order (`Conserved`). Once an ARP
message of the hop has come, nothing waits for it.

`along_kept_iff` says which runs keep this: those in which no entry expires (the
loop of `tick` cannot go on from it) and a hop that answers has at most the last
datagram in the stage. A second one for the hop, or one for another hop behind
it, sends the flush past the end of the vector.
-/

namespace Sponge

open Lib NetworkInterface

/-- An interface with the datagrams it has taken, in order, and the mappings it has been told. -/
structure Outbound where
  iface : NetworkInterface
  submitted : List (Address × InternetDatagram) := []
  learned : List (UInt32 × EthernetAddress) := []

/-- A frame that has been sent, and what it has been sent for. -/
structure Emission where
  nextHop : Address
  dgram : InternetDatagram
  frame : EthernetFrame

namespace Outbound

/-- The mapping a frame teaches: the sender's, if it is a valid ARP message. -/
def teaches (frame : EthernetFrame) : Option (UInt32 × EthernetAddress) :=
  if frame.header.type = EthernetHeader.TYPE_ARP then
    match frame.payload.toBuffer with
    | .error _ => none
    | .ok buffer =>
      let parsed := ARPMessage.parse {} buffer
      if parsed.1 = .noError then
        some (parsed.2.senderIpAddress, parsed.2.senderEthernetAddress)
      else none
  else none

def step (w : Outbound) (op : Op) : Outbound where
  iface := (w.iface.call op).2
  submitted := match op, (w.iface.call op).1 with
    | .sendDatagram dgram nextHop, .returned _ => w.submitted ++ [(nextHop, dgram)]
    | _, _ => w.submitted
  learned := match op with
    | .recvFrame frame => w.learned ++ (teaches frame).toList
    | .sendDatagram .. | .tick _ => w.learned

/-- The datagrams of a list for the next hop `ip`. -/
def forHop (ip : UInt32) (l : List (Address × InternetDatagram)) : List InternetDatagram :=
  (l.filter fun x => x.1.ipv4Numeric = ip).map Prod.snd

/-- The frame carries the datagram to an address learned for its next hop. -/
def Carries (learned : List (UInt32 × EthernetAddress)) (e : Emission) : Prop :=
  e.dgram.serialize = .ok e.frame.payload ∧
    (e.nextHop.ipv4Numeric, e.frame.header.dst) ∈ learned

def isIpv4 (frame : EthernetFrame) : Bool := frame.header.type = EthernetHeader.TYPE_IPv4

/-- The IPv4 frames carry one datagram each, and for each next hop what has gone out and what
waits is what was submitted, in that order. -/
def Conserved (w : Outbound) : Prop :=
  ∃ log : List Emission, w.iface.framesOut.filter isIpv4 = log.map Emission.frame ∧
    (∀ e ∈ log, Carries w.learned e) ∧
    ∀ ip, forHop ip (log.map fun e => (e.nextHop, e.dgram)) ++ forHop ip w.iface.dgramStage =
      forHop ip w.submitted

/-- The call does not touch an erased position, nothing is lost, sent twice or out of order, and
nothing is left waiting for a hop that answers. -/
def Kept (w : Outbound) (op : Op) : Prop :=
  (w.iface.call op).1 ≠ .erasedAccess ∧ (w.step op).Conserved ∧
    ∀ frame ip eth, op = .recvFrame frame → teaches frame = some (ip, eth) →
      forHop ip (w.step op).iface.dgramStage = []

/-- The sums of a tick fit into an `int`. -/
def Fits (w : Outbound) : Op → Prop
  | .tick ms => ∀ ip ∈ w.iface.mapStatus.keys, w.iface.FitsInt ms ip
  | .sendDatagram .. | .recvFrame _ => True

instance (w : Outbound) : ∀ op, Decidable (w.Fits op)
  | .tick _ => List.decidableBAll _ _
  | .sendDatagram .. | .recvFrame _ => isTrue trivial

/-- Of the datagrams in the stage at most the last is for `ip`, and it serializes. -/
def LastFor (stage : List (Address × InternetDatagram)) (ip : UInt32) : Prop :=
  (∀ x ∈ stage.dropLast, x.1.ipv4Numeric ≠ ip) ∧
    ∀ x ∈ stage.getLast?, x.1.ipv4Numeric = ip → x.2.serialize.isOk = true

instance (stage : List (Address × InternetDatagram)) (ip : UInt32) :
    Decidable (LastFor stage ip) := inferInstanceAs (Decidable (_ ∧ _))

/-- No entry expires, and a hop that answers has at most the last datagram. -/
def Spared (w : Outbound) : Op → Prop
  | .sendDatagram .. => True
  | .recvFrame frame => ∀ m ∈ teaches frame, LastFor w.iface.dgramStage m.1
  | .tick ms => ∀ ip ∈ w.iface.mapStatus.keys, w.iface.Survives ms ip

instance (w : Outbound) : ∀ op, Decidable (w.Spared op)
  | .sendDatagram .. => isTrue trivial
  | .recvFrame frame => inferInstanceAs (Decidable (∀ m ∈ teaches frame, _))
  | .tick _ => List.decidableBAll _ _

/-- The learned entries are those with an age, what waits is not ready, and nothing is lost. -/
structure Steady (w : Outbound) : Prop where
  known : ∀ ip, w.iface.Ready ip ↔ (w.iface.addrMap.lookup ip).isSome
  told : ∀ ip eth, w.iface.addrMap.lookup ip = some eth → (ip, eth) ∈ w.learned
  waiting : ∀ x ∈ w.iface.dgramStage, ¬ w.iface.Ready x.1.ipv4Numeric
  conserved : w.Conserved

section
variable {w w' : Outbound} {ip : UInt32} {nextHop : Address} {dgram : InternetDatagram}

theorem forHop_append (l l' : List (Address × InternetDatagram)) :
    forHop ip (l ++ l') = forHop ip l ++ forHop ip l' := by simp [forHop]

theorem forHop_eq_nil {l : List (Address × InternetDatagram)} :
    forHop ip l = [] ↔ ∀ x ∈ l, x.1.ipv4Numeric ≠ ip := by simp [forHop]

/-- A datagram moves past those for other hops. -/
theorem forHop_comm {l : List (Address × InternetDatagram)}
    (h : ∀ x ∈ l, x.1.ipv4Numeric ≠ nextHop.ipv4Numeric) :
    forHop ip [(nextHop, dgram)] ++ forHop ip l = forHop ip l ++ forHop ip [(nextHop, dgram)] := by
  by_cases he : nextHop.ipv4Numeric = ip
  · have hnil : forHop ip l = [] := forHop_eq_nil.mpr (he ▸ h)
    rw [hnil, List.append_nil, List.nil_append]
  · have hnil : forHop ip [(nextHop, dgram)] = [] := forHop_eq_nil.mpr (by simpa using he)
    rw [hnil, List.append_nil, List.nil_append]

/-- What goes out in `new` was waiting in front, or has just been submitted. -/
theorem Conserved.advance (h : w.Conserved) (new : List Emission)
    (extra : List (Address × InternetDatagram))
    (hframes : w'.iface.framesOut.filter isIpv4 =
      w.iface.framesOut.filter isIpv4 ++ new.map Emission.frame)
    (hlearned : ∀ m ∈ w.learned, m ∈ w'.learned) (hnew : ∀ e ∈ new, Carries w'.learned e)
    (hsubmitted : w'.submitted = w.submitted ++ extra)
    (hstage : ∀ ip, forHop ip (new.map fun e => (e.nextHop, e.dgram)) ++
      forHop ip w'.iface.dgramStage = forHop ip w.iface.dgramStage ++ forHop ip extra) :
    w'.Conserved := by
  obtain ⟨log, hlog, hcarries, hqueue⟩ := h
  refine ⟨log ++ new, by rw [hframes, hlog, List.map_append], fun e hm => ?_, fun ip => ?_⟩
  · rcases List.mem_append.mp hm with hm | hm
    · exact ⟨(hcarries e hm).1, hlearned _ (hcarries e hm).2⟩
    · exact hnew e hm
  · rw [List.map_append, forHop_append, List.append_assoc, hstage, ← List.append_assoc, hqueue,
      hsubmitted, forHop_append]

/-- The frames that are no IPv4 frames do not count. -/
theorem filter_isIpv4_append {frames new : List EthernetFrame}
    (h : ∀ frame ∈ new, frame.header.type = EthernetHeader.TYPE_ARP) :
    (frames ++ new).filter isIpv4 = frames.filter isIpv4 := by
  have hnil : new.filter isIpv4 = [] := by
    rw [List.filter_eq_nil_iff]
    intro frame hm
    rw [isIpv4, h frame hm]
    decide
  rw [List.filter_append, hnil, List.append_nil]

/-! ## Each call -/

/-- A call that leaves the interface alone, and teaches nothing. -/
theorem Steady.quiet (h : w.Steady) {op : Op} (hiface : (w.iface.call op).2 = w.iface)
    (hout : (w.iface.call op).1 ≠ .erasedAccess)
    (hop : ∀ dgram nextHop d, op = .sendDatagram dgram nextHop →
      (w.iface.call op).1 ≠ .returned d)
    (hteach : ∀ frame, op = .recvFrame frame → teaches frame = none) :
    w.Kept op ∧ (w.step op).Steady := by
  have hstep : w.step op = w := by
    unfold step
    rw [hiface]
    cases op with
    | sendDatagram dgram nextHop => simp only  -- by `hop`, nothing is submitted
    | recvFrame frame => simp [hteach frame rfl]
    | tick ms => rfl
  refine ⟨⟨hout, by rw [hstep]; exact h.conserved, ?_⟩, by rw [hstep]; exact h⟩
  rintro frame ip eth rfl hf
  rw [hteach frame rfl] at hf
  cases hf

/-- A call that puts the datagram into the stage; its hop is not ready afterwards. -/
theorem Steady.staged (h : w.Steady) (frames : List EthernetFrame)
    (entries : AList fun _ : UInt32 => Int) (hnot : ¬ w.iface.Ready nextHop.ipv4Numeric)
    (heq : w.iface.sendDatagram dgram nextHop = (.returned none, { w.iface with
      framesOut := frames
      dgramStage := w.iface.dgramStage ++ [(nextHop, dgram)]
      mapStatus := entries }))
    (hframes : frames.filter isIpv4 = w.iface.framesOut.filter isIpv4)
    (hready : ∀ ip, NetworkInterface.Ready { w.iface with mapStatus := entries } ip ↔
      w.iface.Ready ip) :
    w.Kept (.sendDatagram dgram nextHop) ∧ (w.step (.sendDatagram dgram nextHop)).Steady := by
  have hcall : w.iface.call (.sendDatagram dgram nextHop) = _ := heq
  have hstep : w.step (.sendDatagram dgram nextHop) = { w with
      iface := { w.iface with
        framesOut := frames
        dgramStage := w.iface.dgramStage ++ [(nextHop, dgram)]
        mapStatus := entries }
      submitted := w.submitted ++ [(nextHop, dgram)] } := by
    unfold step
    rw [hcall]
  have hkeep : (w.step (.sendDatagram dgram nextHop)).Conserved := by
    rw [hstep]
    refine h.conserved.advance [] [(nextHop, dgram)] ?_ (fun _ hm => hm) (by rintro _ ⟨⟩) rfl
      fun ip => ?_
    · rw [List.map_nil, List.append_nil]
      exact hframes
    · exact forHop_append ..
  refine ⟨⟨by rw [hcall]; rintro ⟨⟩, hkeep, by rintro _ _ _ ⟨⟩⟩, ?_, ?_, ?_, hkeep⟩ <;> rw [hstep]
  · exact fun ip => (hready ip).trans (h.known ip)
  · exact h.told
  · intro x hm hr
    have hr' := (hready _).mp hr
    rcases List.mem_append.mp hm with hm | hm
    · exact h.waiting x hm hr'
    · rw [List.mem_singleton.mp hm] at hr'
      exact hnot hr'

theorem Steady.sendDatagram (h : w.Steady) (dgram : InternetDatagram) (nextHop : Address) :
    w.Kept (.sendDatagram dgram nextHop) ∧ (w.step (.sendDatagram dgram nextHop)).Steady := by
  cases hdst : w.iface.addrMap.lookup nextHop.ipv4Numeric with
  | some dst =>
    have hready := (h.known nextHop.ipv4Numeric).mpr (by rw [hdst]; rfl)
    cases hp : dgram.serialize with
    | error what =>
      have heq := sendDatagram_error hdst hp
      refine h.quiet (congrArg Prod.snd heq) ?_ ?_ (by rintro _ ⟨⟩)
      · show (w.iface.sendDatagram dgram nextHop).1 ≠ _
        rw [heq]
        rintro ⟨⟩
      · rintro _ _ d -
        show (w.iface.sendDatagram dgram nextHop).1 ≠ _
        rw [heq]
        rintro ⟨⟩
    | ok payload =>
      have heq : w.iface.call (.sendDatagram dgram nextHop) = _ := sendDatagram_learned hdst hp
      have hstep : w.step (.sendDatagram dgram nextHop) = { w with
          iface := { w.iface with
            framesOut := w.iface.framesOut ++ [w.iface.ipv4Frame dst payload] }
          submitted := w.submitted ++ [(nextHop, dgram)] } := by
        unfold step
        rw [heq]
      have hkeep : (w.step (.sendDatagram dgram nextHop)).Conserved := by
        rw [hstep]
        refine h.conserved.advance [⟨nextHop, dgram, w.iface.ipv4Frame dst payload⟩]
          [(nextHop, dgram)] ?_ (fun _ hm => hm) ?_ rfl fun ip => ?_
        · exact List.filter_append ..
        · intro e hm
          rw [List.mem_singleton.mp hm]
          exact ⟨hp, h.told _ _ hdst⟩
        · exact forHop_comm fun x hx he => h.waiting x hx (he ▸ hready)
      refine ⟨⟨by rw [heq]; rintro ⟨⟩, hkeep, by rintro _ _ _ ⟨⟩⟩, ?_⟩
      refine ⟨?_, ?_, ?_, hkeep⟩ <;> rw [hstep]
      · exact h.known
      · exact h.told
      · exact h.waiting
  | none =>
    have hnot : ¬ w.iface.Ready nextHop.ipv4Numeric := fun hr => by
      have hsome := (h.known nextHop.ipv4Numeric).mp hr
      rw [hdst] at hsome
      cases hsome
    cases hstatus : w.iface.mapStatus.lookup nextHop.ipv4Numeric with
    | none =>
      obtain ⟨bytes, -, hcall⟩ := sendDatagram_asks dgram hdst hstatus
      refine h.staged _ _ hnot hcall ?_ fun ip => ?_
      · refine filter_isIpv4_append fun frame hm => ?_
        rw [List.mem_singleton.mp hm]
        rfl
      · rw [ready_iff, ready_iff]
        show (∃ status,
          (w.iface.mapStatus.insert nextHop.ipv4Numeric (-1)).lookup ip = some status ∧ _) ↔ _
        by_cases he : ip = nextHop.ipv4Numeric
        · subst he
          rw [AList.lookup_insert, hstatus]
          simp
        · rw [AList.lookup_insert_ne he]
    | some status =>
      have hneg : status < 0 := by
        by_contra hn
        exact hnot (ready_iff.mpr ⟨status, hstatus, by omega⟩)
      have hcall := sendDatagram_waits dgram hdst hstatus hneg
      exact h.staged _ _ hnot hcall rfl fun _ => .rfl

theorem Steady.tick_iff (h : w.Steady) {ms : Nat} (hfit : w.Fits (.tick ms)) :
    (w.Kept (.tick ms) ↔ w.Spared (.tick ms)) ∧
      (w.Spared (.tick ms) → (w.step (.tick ms)).Steady) := by
  have hperm := List.perm_insertionSort (· ≤ ·) w.iface.mapStatus.keys
  have hnodup := hperm.nodup_iff.mpr w.iface.mapStatus.keys_nodup
  have hmem (ip : UInt32) : ip ∈ w.iface.mapStatus.keys.insertionSort (· ≤ ·) ↔
      ip ∈ w.iface.mapStatus.keys := hperm.mem_iff
  by_cases hs : w.Spared (.tick ms)
  · obtain ⟨entries, hloop, hentries⟩ := tickLoop_survives ms _ w.iface hnodup
      (fun ip hm => AList.mem_keys.mpr ((hmem ip).mp hm))
      (fun ip hm => ⟨hfit ip ((hmem ip).mp hm), hs ip ((hmem ip).mp hm)⟩)
    have haged (ip : UInt32) : entries.lookup ip = (w.iface.mapStatus.lookup ip).map (aged ms) := by
      rw [hentries]
      split
      · rfl
      · rename_i hn
        rw [AList.lookup_eq_none.mpr fun hk => hn ((hmem ip).mpr (AList.mem_keys.mp hk))]
        rfl
    have hready (ip : UInt32) : NetworkInterface.Ready { w.iface with mapStatus := entries } ip ↔
        w.iface.Ready ip := by
      rw [ready_iff, ready_iff]
      show (∃ status, entries.lookup ip = some status ∧ _) ↔ _
      rw [haged]
      cases w.iface.mapStatus.lookup ip with
      | none => simp
      | some status =>
        simp only [Option.map_some, Option.some.injEq, exists_eq_left', aged]
        split <;> omega
    have hidle := flush_idle (s := { w.iface with mapStatus := entries })
      fun x hm hr => h.waiting x hm ((hready _).mp hr)
    have hcall : w.iface.call (.tick ms) =
        (.returned none, { w.iface with mapStatus := entries }) := by
      show w.iface.tick ms = _
      rw [NetworkInterface.tick, hloop]
      exact hidle
    have hstep : w.step (.tick ms) = { w with
        iface := { w.iface with mapStatus := entries } } := by
      unfold step
      rw [hcall]
    have hkeep : (w.step (.tick ms)).Conserved := by
      rw [hstep]
      exact h.conserved
    refine ⟨iff_of_true ⟨by rw [hcall]; rintro ⟨⟩, hkeep, by rintro _ _ _ ⟨⟩⟩ hs, fun _ => ?_⟩
    refine ⟨?_, ?_, ?_, hkeep⟩ <;> rw [hstep]
    · exact fun ip => (hready ip).trans (h.known ip)
    · exact h.told
    · exact fun x hm hr => h.waiting x hm ((hready _).mp hr)
  · refine ⟨iff_of_false (fun hk => hk.1 ?_) hs, fun hs' => absurd hs' hs⟩
    obtain ⟨ip, hip⟩ := not_forall.mp hs
    obtain ⟨hkey, hexp⟩ := Classical.not_imp.mp hip
    have hloop := tickLoop_expires ms _ w.iface hnodup
      (fun ip hm => AList.mem_keys.mpr ((hmem ip).mp hm)) (fun ip hm => hfit ip ((hmem ip).mp hm))
      ⟨ip, (hmem ip).mpr hkey, hexp⟩
    show (w.iface.tick ms).1 = _
    rw [NetworkInterface.tick]
    split <;> simp_all

/-- **How `recvFrame` ends.** At once, or with the flush behind what it has learned and
replied. -/
theorem recvFrame_cases (s : NetworkInterface) (frame : EthernetFrame) :
    (teaches frame = none ∧ (s.recvFrame frame).1 ≠ .erasedAccess ∧ (s.recvFrame frame).2 = s) ∨
    ∃ t replies, (∀ f ∈ replies, IsReply f) ∧
      s.recvFrame frame = sendStageDatagram { t with framesOut := s.framesOut ++ replies } ∧
      ((teaches frame = none ∧ t = s) ∨
        ∃ msg, teaches frame = some (msg.senderIpAddress, msg.senderEthernetAddress) ∧
          t = s.learn msg) := by
  have hflush : s.sendStageDatagram =
      sendStageDatagram { s with framesOut := s.framesOut ++ [] } := by rw [List.append_nil]
  by_cases harp : frame.header.type = EthernetHeader.TYPE_ARP
  · have hnot : ¬ (frame.header.type = EthernetHeader.TYPE_IPv4 ∧
        frame.header.dst = s.ethernetAddress) := by
      rw [harp]
      exact fun h => absurd h.1 (by decide)
    unfold NetworkInterface.recvFrame teaches
    rw [if_neg hnot, if_pos harp, if_pos harp]
    cases hbuf : frame.payload.toBuffer with
    | error what => exact .inl ⟨rfl, by rintro ⟨⟩, rfl⟩
    | ok buffer =>
      simp only
      have hend := recvArp_eq s (ARPMessage.parse {} buffer).1 (ARPMessage.parse {} buffer).2
        (ARPMessage.parse_supported _ _)
      unfold heard at hend
      by_cases hstate : (ARPMessage.parse {} buffer).1 = .noError
      · rw [if_pos hstate] at hend ⊢
        rcases hend with ⟨hn, -⟩ | ⟨replies, hreplies, heq⟩
        · exact absurd hstate hn
        · exact .inr ⟨_, replies, hreplies, heq, .inr ⟨_, rfl, rfl⟩⟩
      · rw [if_neg hstate] at hend ⊢
        rcases hend with ⟨-, what, heq⟩ | ⟨replies, hreplies, heq⟩
        · rw [heq]
          exact .inl ⟨rfl, by rintro ⟨⟩, rfl⟩
        · exact .inr ⟨_, replies, hreplies, heq, .inl ⟨rfl, rfl⟩⟩
  · have hteaches : teaches frame = none := if_neg harp
    have hend : s.recvFrame frame = s.sendStageDatagram ∨
        (s.recvFrame frame).1 ≠ .erasedAccess ∧ (s.recvFrame frame).2 = s := by
      unfold NetworkInterface.recvFrame
      rw [if_neg harp]
      split
      · split
        · exact .inr ⟨by rintro ⟨⟩, rfl⟩
        · simp only
          split
          · exact .inr ⟨by rintro ⟨⟩, rfl⟩
          · exact .inl rfl
      · exact .inl rfl
    rcases hend with heq | heq
    · exact .inr ⟨s, [], by rintro _ ⟨⟩, heq.trans hflush, .inl ⟨hteaches, rfl⟩⟩
    · exact .inl ⟨hteaches, heq⟩

/-- A frame that teaches nothing: something other than IPv4 goes out at most. -/
theorem recvFrame_none {s : NetworkInterface} {frame : EthernetFrame}
    (hw : ∀ x ∈ s.dgramStage, ¬ s.Ready x.1.ipv4Numeric) (ht : teaches frame = none) :
    ∃ new, (∀ f ∈ new, f.header.type = EthernetHeader.TYPE_ARP) ∧
      (s.recvFrame frame).1 ≠ .erasedAccess ∧
      (s.recvFrame frame).2 = { s with framesOut := s.framesOut ++ new } := by
  rcases recvFrame_cases s frame with ⟨-, hout, heq⟩ |
    ⟨t, replies, hreplies, heq, ⟨-, rfl⟩ | ⟨msg, hteaches, -⟩⟩
  · exact ⟨[], by rintro _ ⟨⟩, hout, by rw [heq, List.append_nil]⟩
  · rw [heq, flush_idle (s := { t with framesOut := t.framesOut ++ replies }) hw]
    exact ⟨replies, fun f hm => (hreplies f hm).1, by rintro ⟨⟩, rfl⟩
  · rw [ht] at hteaches
    cases hteaches

theorem Steady.recvFrame_none (h : w.Steady) {frame : EthernetFrame} (ht : teaches frame = none) :
    w.Kept (.recvFrame frame) ∧ (w.step (.recvFrame frame)).Steady := by
  obtain ⟨new, hnew, hcall⟩ := Outbound.recvFrame_none h.waiting ht
  have hstep : w.step (.recvFrame frame) = { w with
      iface := { w.iface with framesOut := w.iface.framesOut ++ new } } := by
    unfold step
    simp [call, hcall.2, ht]
  have hkeep : (w.step (.recvFrame frame)).Conserved := by
    rw [hstep]
    refine h.conserved.advance [] [] ?_ (fun _ hm => hm) (by rintro _ ⟨⟩) (by simp)
      fun ip => by simp [forHop]
    rw [List.map_nil, List.append_nil]
    exact filter_isIpv4_append hnew
  refine ⟨⟨hcall.1, hkeep, ?_⟩, ?_⟩
  · rintro _ ip eth ⟨⟩ hf
    rw [ht] at hf
    cases hf
  · refine ⟨?_, ?_, ?_, hkeep⟩ <;> rw [hstep]
    · exact h.known
    · exact h.told
    · exact h.waiting

/-- A frame that teaches a mapping: it is learned, and the stage is flushed. -/
theorem recvFrame_some {s : NetworkInterface} {frame : EthernetFrame} {eth : EthernetAddress}
    (ht : teaches frame = some (ip, eth)) : ∃ msg new,
      msg.senderIpAddress = ip ∧ msg.senderEthernetAddress = eth ∧
      (∀ f ∈ new, f.header.type = EthernetHeader.TYPE_ARP) ∧
      s.recvFrame frame =
        sendStageDatagram { s.learn msg with framesOut := s.framesOut ++ new } := by
  rcases recvFrame_cases s frame with ⟨hnone, -⟩ |
    ⟨t, replies, hreplies, heq, ⟨hnone, -⟩ | ⟨msg, hteaches, rfl⟩⟩
  · rw [ht] at hnone
    cases hnone
  · rw [ht] at hnone
    cases hnone
  · rw [ht] at hteaches
    simp only [Option.some.injEq, Prod.mk.injEq] at hteaches
    exact ⟨msg, replies, hteaches.1.symm, hteaches.2.symm, fun f hm => (hreplies f hm).1, heq⟩

/-- Of what waits, only the datagrams of the hop that answers become ready. -/
theorem Steady.ready_learn_iff (h : w.Steady) (msg : ARPMessage) {x : Address × InternetDatagram}
    (hm : x ∈ w.iface.dgramStage) :
    (w.iface.learn msg).Ready x.1.ipv4Numeric ↔ x.1.ipv4Numeric = msg.senderIpAddress := by
  rw [ready_learn]
  exact or_iff_left (h.waiting x hm)

section
variable {frame : EthernetFrame} {msg : ARPMessage}
  (ht : teaches frame = some (msg.senderIpAddress, msg.senderEthernetAddress))
include ht

theorem step_learns {frames : List EthernetFrame} {stage : List (Address × InternetDatagram)}
    (hcall : w.iface.recvFrame frame = (.returned none,
      { w.iface.learn msg with framesOut := frames, dgramStage := stage })) :
    w.step (.recvFrame frame) = { w with
      iface := { w.iface.learn msg with framesOut := frames, dgramStage := stage }
      learned := w.learned ++ [(msg.senderIpAddress, msg.senderEthernetAddress)] } := by
  unfold step
  simp [call, hcall, ht]

/-- The flush has come to its end, and what is left is not ready. -/
theorem Steady.flushed (h : w.Steady) {frames : List EthernetFrame}
    {stage : List (Address × InternetDatagram)}
    (hcall : w.iface.recvFrame frame = (.returned none,
      { w.iface.learn msg with framesOut := frames, dgramStage := stage }))
    (hkeep : (w.step (.recvFrame frame)).Conserved)
    (hstage : ∀ x ∈ stage, ¬ (w.iface.learn msg).Ready x.1.ipv4Numeric) :
    w.Kept (.recvFrame frame) ∧ (w.step (.recvFrame frame)).Steady := by
  have hstep := step_learns ht hcall
  refine ⟨⟨?_, hkeep, ?_⟩, ?_, ?_, ?_, hkeep⟩
  · show (w.iface.recvFrame frame).1 ≠ _
    rw [hcall]
    rintro ⟨⟩
  · rintro _ ip eth ⟨⟩ hf
    rw [ht, Option.some.injEq, Prod.mk.injEq] at hf
    rw [hstep, forHop_eq_nil]
    exact fun x hm he => hstage x hm ((ready_learn msg).mpr (.inl (he.trans hf.1.symm)))
  · rw [hstep]
    intro ip
    refine (ready_learn msg).trans ?_
    show _ ↔ ((w.iface.addrMap.insert msg.senderIpAddress _).lookup ip).isSome = true
    by_cases he : ip = msg.senderIpAddress
    · subst he
      rw [AList.lookup_insert]
      simp
    · rw [AList.lookup_insert_ne he, ← h.known]
      simp [he]
  · rw [hstep]
    intro ip eth hl
    have hl' : (w.iface.addrMap.insert msg.senderIpAddress msg.senderEthernetAddress).lookup ip =
      some eth := hl
    refine List.mem_append.mpr ?_
    by_cases he : ip = msg.senderIpAddress
    · subst he
      rw [AList.lookup_insert, Option.some.injEq] at hl'
      exact .inr (by rw [hl']; exact List.mem_cons_self)
    · rw [AList.lookup_insert_ne he] at hl'
      exact .inl (h.told ip eth hl')
  · rw [hstep]
    exact hstage

/-- The flush runs past the end, or throws with a datagram for the hop that is left. -/
theorem Steady.not_kept_of_overran (h : w.Steady) {new : List EthernetFrame}
    (heq : w.iface.recvFrame frame =
      sendStageDatagram { w.iface.learn msg with framesOut := w.iface.framesOut ++ new })
    (hover : Overran (w.iface.recvFrame frame)) : ¬ w.Kept (.recvFrame frame) := by
  rintro ⟨hout, -, hleft⟩
  rcases hover with hover | ⟨-, x, hx, hready⟩
  · exact hout hover
  · -- what is left was waiting, so that it is for the hop that has answered
    obtain ⟨frames, stage, hframe, hsub⟩ := stageLoop_frame _ 0
      { w.iface.learn msg with framesOut := w.iface.framesOut ++ new }
    have hres : (w.iface.recvFrame frame).2 = _ := (congrArg Prod.snd heq).trans hframe
    rw [hres] at hx hready
    have hnil := forHop_eq_nil.mp (hleft frame _ _ rfl ht) x (by
      show x ∈ (w.iface.recvFrame frame).2.dgramStage
      rw [hres]
      exact hx)
    rcases (ready_learn msg).mp hready with he | hr
    · exact hnil he
    · exact h.waiting x (hsub.subset hx) hr

/-- Nothing waits for the hop. -/
theorem Steady.learns_idle (h : w.Steady) {new : List EthernetFrame}
    (hnew : ∀ f ∈ new, f.header.type = EthernetHeader.TYPE_ARP)
    (heq : w.iface.recvFrame frame =
      sendStageDatagram { w.iface.learn msg with framesOut := w.iface.framesOut ++ new })
    (hother : ∀ x ∈ w.iface.dgramStage, x.1.ipv4Numeric ≠ msg.senderIpAddress) :
    w.Kept (.recvFrame frame) ∧ (w.step (.recvFrame frame)).Steady := by
  have hwait : ∀ x ∈ w.iface.dgramStage, ¬ (w.iface.learn msg).Ready x.1.ipv4Numeric :=
    fun x hm hr => hother x hm ((h.ready_learn_iff msg hm).mp hr)
  have hidle := flush_idle
    (s := { w.iface.learn msg with framesOut := w.iface.framesOut ++ new }) hwait
  rw [hidle] at heq
  have hstep := step_learns ht heq
  refine h.flushed ht heq ?_ hwait
  rw [hstep]
  refine h.conserved.advance [] [] ?_ (fun _ hm => List.mem_append_left _ hm) (by rintro _ ⟨⟩)
    (by simp) fun ip => by simp [forHop]; rfl
  rw [List.map_nil, List.append_nil]
  exact filter_isIpv4_append hnew

/-- The last datagram in the stage is the only one for the hop, and goes out. -/
theorem Steady.learns_last (h : w.Steady) {new : List EthernetFrame}
    (hnew : ∀ f ∈ new, f.header.type = EthernetHeader.TYPE_ARP)
    (heq : w.iface.recvFrame frame =
      sendStageDatagram { w.iface.learn msg with framesOut := w.iface.framesOut ++ new })
    {pre : List (Address × InternetDatagram)} {payload : BufferList}
    (hstage : w.iface.dgramStage = pre ++ [(nextHop, dgram)])
    (hhop : nextHop.ipv4Numeric = msg.senderIpAddress)
    (hpre : ∀ x ∈ pre, x.1.ipv4Numeric ≠ msg.senderIpAddress)
    (hp : dgram.serialize = .ok payload) :
    w.Kept (.recvFrame frame) ∧ (w.step (.recvFrame frame)).Steady := by
  have hidle : ∀ x ∈ pre, ¬ (w.iface.learn msg).Ready x.1.ipv4Numeric := fun x hm hr =>
    hpre x hm ((h.ready_learn_iff msg (by rw [hstage]; exact List.mem_append_left _ hm)).mp hr)
  have hdst : (w.iface.learn msg).addrMap.lookup nextHop.ipv4Numeric =
      some msg.senderEthernetAddress := by
    rw [hhop]
    exact AList.lookup_insert _
  have hlast := flush_last
    (s := { w.iface.learn msg with framesOut := w.iface.framesOut ++ new }) hstage hidle
    ((ready_learn msg).mpr (.inl hhop)) hdst hp
  rw [hlast] at heq
  have hstep := step_learns ht heq
  refine h.flushed ht heq ?_ hidle
  rw [hstep]
  refine h.conserved.advance
    [⟨nextHop, dgram, w.iface.ipv4Frame msg.senderEthernetAddress payload⟩] [] ?_
    (fun _ hm => List.mem_append_left _ hm) ?_ (by simp) fun ip => ?_
  · show (_ ++ [_]).filter isIpv4 = _
    rw [List.filter_append, filter_isIpv4_append hnew]
    rfl
  · intro e hm
    rw [List.mem_singleton.mp hm]
    exact ⟨hp, List.mem_append_right _ (by rw [hhop]; exact List.mem_cons_self)⟩
  · rw [hstage, forHop_append]
    have hcomm : forHop ip [(nextHop, dgram)] ++ forHop ip pre = _ :=
      forHop_comm (by rw [hhop]; exact hpre)
    simpa [forHop] using hcomm

end

theorem lastFor_concat {pre : List (Address × InternetDatagram)} :
    LastFor (pre ++ [(nextHop, dgram)]) ip ↔ (∀ x ∈ pre, x.1.ipv4Numeric ≠ ip) ∧
      (nextHop.ipv4Numeric = ip → dgram.serialize.isOk = true) := by simp [LastFor]

/-- A frame that teaches a mapping leaves nothing for its hop, and loses nothing, exactly when at
most the last datagram in the stage is for it. -/
theorem Steady.learns_iff (h : w.Steady) {frame : EthernetFrame} {eth : EthernetAddress}
    (ht : teaches frame = some (ip, eth)) :
    (w.Kept (.recvFrame frame) ↔ w.Spared (.recvFrame frame)) ∧
      (w.Spared (.recvFrame frame) → (w.step (.recvFrame frame)).Steady) := by
  obtain ⟨msg, new, rfl, rfl, hnew, heq⟩ := recvFrame_some (s := w.iface) ht
  have hspared : w.Spared (.recvFrame frame) ↔
      LastFor w.iface.dgramStage msg.senderIpAddress := by
    show (∀ m ∈ teaches frame, _) ↔ _
    rw [ht]
    simp
  rw [hspared]
  cases hfind : w.iface.dgramStage.find? fun x => x.1.ipv4Numeric = msg.senderIpAddress with
  | none =>
    have hother : ∀ x ∈ w.iface.dgramStage, x.1.ipv4Numeric ≠ msg.senderIpAddress := by
      simpa using hfind
    obtain ⟨hk, hs⟩ := h.learns_idle ht hnew heq hother
    refine ⟨iff_of_true hk ⟨fun x hm => hother x (List.dropLast_subset _ hm), fun x hm he => ?_⟩,
      fun _ => hs⟩
    exact absurd he (hother x (List.mem_of_getLast? hm))
  | some x =>
    obtain ⟨nextHop, dgram⟩ := x
    obtain ⟨hx, pre, post, hstage, hpre⟩ := List.find?_eq_some_iff_append.mp hfind
    have hhop : nextHop.ipv4Numeric = msg.senderIpAddress := by simpa using hx
    have hpre' : ∀ x ∈ pre, x.1.ipv4Numeric ≠ msg.senderIpAddress := by simpa using hpre
    have hidle : ∀ x ∈ pre, ¬ (w.iface.learn msg).Ready x.1.ipv4Numeric := fun x hm hr =>
      hpre' x hm ((h.ready_learn_iff msg (by rw [hstage]; exact List.mem_append_left _ hm)).mp hr)
    have hr : (w.iface.learn msg).Ready nextHop.ipv4Numeric := (ready_learn msg).mpr (.inl hhop)
    by_cases hpost : post = []
    · subst hpost
      cases hp : dgram.serialize with
      | ok payload =>
        obtain ⟨hk, hs⟩ := h.learns_last ht hnew heq hstage hhop hpre' hp
        refine ⟨iff_of_true hk ?_, fun _ => hs⟩
        rw [hstage, lastFor_concat, hp]
        exact ⟨hpre', fun _ => rfl⟩
      | error what =>
        have hdst : (w.iface.learn msg).addrMap.lookup nextHop.ipv4Numeric =
            some msg.senderEthernetAddress := by
          rw [hhop]
          exact AList.lookup_insert _
        have hfail := flush_error
          (s := { w.iface.learn msg with framesOut := w.iface.framesOut ++ new }) hstage hidle hr
          hdst hp
        have hover : Overran (w.iface.recvFrame frame) := by
          rw [heq, hfail]
          exact .inr ⟨⟨what, rfl⟩, (nextHop, dgram),
            by show _ ∈ w.iface.dgramStage; rw [hstage]; simp, hr⟩
        have hno : ¬ LastFor w.iface.dgramStage msg.senderIpAddress := by
          rw [hstage, lastFor_concat, hp]
          exact fun hl => absurd (hl.2 hhop) (by simp [Except.isOk, Except.toBool])
        exact ⟨iff_of_false (h.not_kept_of_overran ht heq hover) hno, fun hs => absurd hs hno⟩
    · have hover : Overran (w.iface.recvFrame frame) := by
        rw [heq]
        exact flush_early
          (s := { w.iface.learn msg with framesOut := w.iface.framesOut ++ new }) hstage hpost
          hidle hr
      have hno : ¬ LastFor w.iface.dgramStage msg.senderIpAddress := by
        rw [LastFor, hstage]
        intro hl
        refine hl.1 (nextHop, dgram) ?_ hhop
        rw [List.dropLast_append_of_ne_nil (by simp), List.dropLast_cons_of_ne_nil hpost]
        simp
      exact ⟨iff_of_false (h.not_kept_of_overran ht heq hover) hno, fun hs => absurd hs hno⟩

/-- A call keeps what the interface promises exactly when it is spared. -/
theorem Steady.step_iff (h : w.Steady) {op : Op} (hfit : w.Fits op) :
    (w.Kept op ↔ w.Spared op) ∧ (w.Spared op → (w.step op).Steady) := by
  cases op with
  | sendDatagram dgram nextHop =>
    obtain ⟨h1, h2⟩ := h.sendDatagram dgram nextHop
    exact ⟨iff_of_true h1 trivial, fun _ => h2⟩
  | tick ms => exact h.tick_iff hfit
  | recvFrame frame =>
    cases ht : teaches frame with
    | none =>
      obtain ⟨h1, h2⟩ := h.recvFrame_none ht
      exact ⟨iff_of_true h1 (by rw [Spared, ht]; rintro _ ⟨⟩), fun _ => h2⟩
    | some m => exact h.learns_iff ht

theorem steady_new (ethernetAddress : EthernetAddress) (ipAddress : Address) :
    Steady { iface := { ethernetAddress := ethernetAddress, ipAddress := ipAddress } } where
  known ip := by
    rw [ready_iff]
    simp
  told ip eth hl := by cases hl
  waiting := by rintro _ ⟨⟩
  conserved := ⟨[], rfl, by rintro _ ⟨⟩, fun _ => rfl⟩

end

/-- **Delivery.** The interface loses no datagram, sends none twice or out of order, and leaves
none for a hop that has answered, exactly when no entry expires and each hop that answers has at
most the last datagram in the stage. -/
theorem along_kept_iff (ethernetAddress : EthernetAddress) (ipAddress : Address) (ops : List Op)
    (hfit : Along step Fits { iface := { ethernetAddress, ipAddress } } ops) :
    Along step Kept { iface := { ethernetAddress, ipAddress } } ops ↔
      Along step Spared { iface := { ethernetAddress, ipAddress } } ops :=
  along_iff_along (I := Steady) hfit (steady_new ethernetAddress ipAddress)
    (fun _ _ h hf hs => (h.step_iff hf).2 hs) fun _ _ h hf => (h.step_iff hf).1

/-- The interface of the runs below, and the host it sends to. -/
def localEth : EthernetAddress := { bytes := [2, 0, 0, 0, 0, 1] }

def targetEth : EthernetAddress := { bytes := [2, 0, 0, 0, 0, 2] }

/-- An ARP reply of `targetEth` for `ip`, to the address 4.3.2.1. -/
def replyFrom (ip : UInt8) : EthernetFrame where
  header := { dst := localEth, src := targetEth, type := EthernetHeader.TYPE_ARP }
  payload := [[0, 1, 8, 0, 6, 4, 0, 2] ++ targetEth.bytes ++ [192, 168, 0, ip] ++ localEth.bytes ++
    [4, 3, 2, 1]]

/-- A datagram with one byte. -/
def byteDatagram (b : UInt8) : InternetDatagram where
  header := { len := 21 }
  payload := [[b]]

/-- A datagram waits, goes out with the reply, and the next one goes out at once. -/
theorem kept_reply : Along step Kept
    { iface := { ethernetAddress := localEth, ipAddress := ⟨0x04030201⟩ } }
    [.sendDatagram (byteDatagram 1) ⟨0xc0a80001⟩, .tick 800, .recvFrame (replyFrom 1),
      .sendDatagram (byteDatagram 2) ⟨0xc0a80001⟩, .tick 29999] :=
  (along_kept_iff localEth ⟨0x04030201⟩ _ (by decide +kernel)).mpr (by decide +kernel)

/-- With two datagrams in the stage, the reply leads the flush past the end of the vector. -/
theorem second_datagram_stuck :
    Along step Fits { iface := { ethernetAddress := localEth, ipAddress := ⟨0x04030201⟩ } }
      [.sendDatagram (byteDatagram 1) ⟨0xc0a80001⟩, .sendDatagram (byteDatagram 2) ⟨0xc0a80001⟩,
        .recvFrame (replyFrom 1)] ∧
    ¬ Along step Kept { iface := { ethernetAddress := localEth, ipAddress := ⟨0x04030201⟩ } }
      [.sendDatagram (byteDatagram 1) ⟨0xc0a80001⟩, .sendDatagram (byteDatagram 2) ⟨0xc0a80001⟩,
        .recvFrame (replyFrom 1)] :=
  ⟨by decide +kernel, fun h => h.2.2.1.1 (by decide +kernel)⟩

end Outbound

end Sponge
