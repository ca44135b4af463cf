import Sponge.Network.Inbound

/-!
# End-to-end prefix safety

`Linked`: in each direction the endpoint that sends speaks and the other one
hears it. Every event keeps it, as long as what is delivered is within reach, so
in every state of every run the bytes written into an inbound stream are a
prefix of what the other application wrote.
-/

namespace Sponge

open Lib TCPConnection

/-- The receiver after an operation, as the network sees it. -/
theorem Hears.step {W : List UInt8} {ended : Bool} {isn : WrappingInt32} {e : Endpoint}
    {op : TCPConnection.Op} (h : Hears W ended isn e.reads e.conn.receiver)
    (hW : W.length < 2 ^ 63)
    (hg : ∀ seg, op = .segmentReceived seg →
      Genuine W ended isn e.conn.inboundStream.bytesWritten seg) (heard : Nat) :
    Hears W ended isn (e.step op heard).reads (e.step op heard).conn.receiver := by
  obtain ⟨r, hr, hcase⟩ := step_receiver e.conn op
  have hfront : Hears W ended isn (e.reads ++ e.readsOf op) r := by
    rcases hcase with ⟨rfl, hno⟩ | ⟨n, rfl, rfl⟩ | ⟨seg, rfl, -, rfl⟩
    · have hnone : e.readsOf op = [] := by
        cases op with
        | read n => exact absurd rfl (hno n)
        | connect | write _ | endInputStream | tick _ | segmentReceived _ => rfl
      rw [hnone, List.append_nil]
      exact h
    · exact h.readOut n
    · rw [Endpoint.readsOf, List.append_nil]
      exact h.segmentReceived hW (hg seg rfl)
  show Hears W ended isn (e.reads ++ e.readsOf op) (e.conn.step op).receiver
  rcases hr with heq | heq
  · rw [heq]
    exact hfront
  · rw [heq]
    exact hfront.failed

/-- The invariant of the two endpoints. -/
structure Linked (isn : Side → WrappingInt32) (s : System) : Prop where
  speaks : ∀ x, Speaks (isn x) (s.endpoint x)
  hears : ∀ x, Hears (s.endpoint x.other).outgoing (s.endpoint x.other).conn.sender.fin
    (isn x.other) (s.endpoint x).reads (s.endpoint x).conn.receiver

/-- What is delivered is on the network, and near. -/
def Delivered (s : System) (x : Side) (op : TCPConnection.Op) : Prop :=
  ∀ seg, op = .segmentReceived seg → ∃ pkt ∈ (s.endpoint x.other).net, pkt.seg = seg ∧
    Near (s.endpoint x) (s.endpoint x.other) seg

section
variable {isn : Side → WrappingInt32} {s : System} {x : Side} {op : TCPConnection.Op} {ev : Event}

theorem opOf_segmentReceived {seg : TCPSegment}
    (ho : s.opOf ev = some (x, .segmentReceived seg)) :
    ∃ k pkt, ev = .deliver x k ∧ (s.endpoint x.other).net[k]? = some pkt ∧ pkt.seg = seg := by
  cases ev with
  | deliver x' k =>
    simp only [System.opOf, Option.map_eq_some_iff] at ho
    obtain ⟨pkt, hpkt, heq⟩ := ho
    obtain ⟨rfl, hseg⟩ := Prod.mk.inj heq
    cases hseg
    exact ⟨k, pkt, rfl, hpkt, rfl⟩
  | connect _ | write _ _ | endInputStream _ | tick _ _ | read _ _ => cases ho

theorem opOf_write {data : List UInt8} (ho : s.opOf ev = some (x, .write data)) :
    ev = .write x data := by
  cases ev with
  | write x' data' =>
    obtain ⟨rfl, hd⟩ := Prod.mk.inj (Option.some.inj ho)
    cases hd
    rfl
  | deliver x' k =>
    simp only [System.opOf, Option.map_eq_some_iff] at ho
    obtain ⟨pkt, -, heq⟩ := ho
    cases (Prod.mk.inj heq).2
  | connect _ | endInputStream _ | tick _ _ | read _ _ => cases ho

theorem delivered_of_inReach (ha : InReach s ev) (ho : s.opOf ev = some (x, op)) :
    Delivered s x op := by
  rintro seg rfl
  obtain ⟨k, pkt, rfl, hpkt, rfl⟩ := opOf_segmentReceived ho
  exact ⟨pkt, List.mem_of_getElem? hpkt, rfl, ha pkt hpkt⟩

theorem side_cases (x z : Side) : z = x ∨ z = x.other := by
  cases x <;> cases z <;> simp [Side.other]

theorem Linked.genuine (h : Linked isn s) (hd : Delivered s x op) {seg : TCPSegment}
    (hop : op = .segmentReceived seg) :
    Genuine (s.endpoint x.other).outgoing (s.endpoint x.other).conn.sender.fin (isn x.other)
      (s.endpoint x).conn.inboundStream.bytesWritten seg := by
  obtain ⟨pkt, -, -, hn⟩ := hd seg hop
  rcases hn with hn | ⟨entry, hm, hb, h1, h2⟩
  · exact .inl hn
  · exact .inr ⟨entry.1, entry.2, (h.speaks x.other).speaking.carries entry
      (List.mem_append_left _ hm), hb, h1, h2⟩

theorem Linked.length_lt (h : Linked isn s) (hs : Short s) (x : Side) :
    (s.endpoint x).outgoing.length < 2 ^ 63 := by
  refine Nat.lt_of_le_of_lt (h.speaks x).outgoing_le.length_le ?_
  cases x
  · exact hs.1
  · exact hs.2

theorem Linked.act (h : Linked isn s) (hs : Short s) (hd : Delivered s x op) :
    Linked isn (s.act x op) := by
  unfold System.act
  constructor
  · intro z
    rcases side_cases x z with rfl | rfl
    · rw [System.endpoint_set]
      exact (h.speaks z).step op _
    · rw [System.endpoint_set_other]
      exact h.speaks x.other
  · intro z
    rcases side_cases x z with rfl | rfl
    · rw [System.endpoint_set, System.endpoint_set_other]
      exact (h.hears z).step (h.length_lt hs z.other) (fun _ hop => h.genuine hd hop) _
    · rw [System.endpoint_set_other, Side.other_other, System.endpoint_set]
      have hh := h.hears x.other
      rw [Side.other_other] at hh
      exact hh.grow fun hf => Speaks.fin_step hf op _

theorem Linked.step (h : Linked isn s) (hs : Short s) (ha : InReach s ev) :
    Linked isn (s.step ev) := by
  unfold System.step
  cases ho : s.opOf ev with
  | none => exact h
  | some xo => exact h.act hs (delivered_of_inReach ha ho)

theorem linked_mk {cfgA cfgB : TCPConfig} {randomA randomB : UInt32}
    (h : System.mk? cfgA cfgB randomA randomB = some s) :
    Linked (fun x => (s.endpoint x).conn.sender.isn) s := by
  simp only [System.mk?, Option.bind_eq_bind, Option.bind_eq_some_iff, Option.pure_def,
    Option.some.injEq] at h
  obtain ⟨a, ha, b, hb, rfl⟩ := h
  have hear : ∀ {cfg : TCPConfig} {random : UInt32} {c : TCPConnection} {ended : Bool}
      {isn : WrappingInt32}, TCPConnection.mk? cfg random = some c →
      Hears [] ended isn [] c.receiver := by
    intro cfg random c ended isn hc
    simp only [TCPConnection.mk?, Option.map_eq_some_iff] at hc
    obtain ⟨r, hr, rfl⟩ := hc
    exact hears_mk hr
  constructor
  · intro x
    cases x
    · exact speaks_mk ha
    · exact speaks_mk hb
  · intro x
    cases x
    · exact hear ha
    · exact hear hb

end

/-- **Prefix safety.** In every state of every run the bytes ever written into an inbound
stream are a prefix of the bytes the other application wrote. -/
theorem always_received_prefix (cfgA cfgB : TCPConfig) (randomA randomB : UInt32) (s : System)
    (evs : List Event) (h0 : System.mk? cfgA cfgB randomA randomB = some s)
    (ha : Along System.step InReach s evs) (hs : Always System.step Short s evs) :
    Always System.step
      (fun s => ∀ x, (s.endpoint x).received <+: (s.endpoint x.other).wrote) s evs := by
  have hall := (ha.and hs.along).always (linked_mk h0) fun s ev h hg => h.step hg.2.1 hg.1
  exact hall.mono fun s h x => (h.hears x).stream.trans (h.speaks x.other).outgoing_le

/-- Eight bytes of room each way, and a given initial sequence number. -/
def smallConfig (isn : UInt32) : TCPConfig :=
  { recvCapacity := 8, sendCapacity := 8, fixedIsn := some ⟨isn⟩ }

/-- `a` connects, and sends two bytes and the end, which arrive in order. -/
def inOrderEvents : List Event :=
  [.connect .a, .deliver .b 0, .deliver .a 0, .deliver .b 1,
   .write .a [97, 98], .endInputStream .a, .deliver .b 2, .deliver .b 3]

theorem received_prefix_inOrder : ∃ s, System.mk? (smallConfig 7) (smallConfig 40) 0 0 = some s ∧
    Along System.step InReach s inOrderEvents ∧ Always System.step Short s inOrderEvents ∧
    Always System.step
      (fun s => ∀ x, (s.endpoint x).received <+: (s.endpoint x.other).wrote) s inOrderEvents :=
  ⟨_, rfl, by decide, by decide,
    always_received_prefix (smallConfig 7) (smallConfig 40) 0 0 _ _ rfl (by decide) (by decide)⟩

end Sponge
