import Sponge.Connection.Segments
import Sponge.Network.Eof
import Sponge.Wire.Passage

/-!
# Segments on their way

What a connection enqueues fits a datagram and waits to be written (`Enqueued`).
An adapter changes the ports and the checksum of a segment (`Alike`), which the
connection that receives it does not look at.
-/

namespace Sponge

/-! ## What arrives -/

/-- `t` is `s` with other ports and another checksum. -/
def Alike (s t : TCPSegment) : Prop :=
  ∃ sport dport cksum,
    t = { s with header := { s.header with sport := sport, dport := dport, cksum := cksum } }

theorem TCPOverIPv4Adapter.alike_arrived (a : TCPOverIPv4Adapter) (seg : TCPSegment) :
    Alike seg (a.arrived seg) := ⟨_, _, _, rfl⟩

section
variable {s t : TCPSegment}

theorem Alike.segmentReceived (h : Alike s t) (c : TCPConnection) :
    c.segmentReceived t = c.segmentReceived s := by
  obtain ⟨sport, dport, cksum, rfl⟩ := h
  rfl

theorem Alike.step (h : Alike s t) (e : Endpoint) (heard : Nat) :
    e.step (.segmentReceived t) heard = e.step (.segmentReceived s) heard := by
  unfold Endpoint.step
  simp only [TCPConnection.step, h.segmentReceived]
  rfl

theorem Alike.near (h : Alike s t) (x y : Endpoint) : Near x y t ↔ Near x y s := by
  obtain ⟨sport, dport, cksum, rfl⟩ := h
  rfl

theorem Alike.earlyFin (h : Alike s t) (W : List UInt8) (c : TCPConnection) :
    (c.Accepts t → ¬ EarlyFin W c.receiver t) ↔ (c.Accepts s → ¬ EarlyFin W c.receiver s) := by
  obtain ⟨sport, dport, cksum, rfl⟩ := h
  rfl

end

/-! ## What is enqueued -/

theorem made_fitsDatagram : TCPSender.Made TCPSegment.FitsDatagram where
  syn _ := ⟨Nat.le_refl 5, show 5 ≤ 15 by omega, show 20 + 4 * 5 + 0 ≤ 65535 by omega⟩
  turn {win s seg t} h := by
    have hlen : seg.payload.length ≤ TCPConfig.MAX_PAYLOAD_SIZE := by
      rw [h.payload_length]
      omega
    have hdoff : seg.header.doff = 5 := by rw [h.header]; rfl
    have hwords : seg.header.doff.toNat = 5 := congrArg UInt8.toNat hdoff
    unfold TCPConfig.MAX_PAYLOAD_SIZE at hlen
    exact ⟨by omega, by omega, by omega⟩
  empty _ := ⟨Nat.le_refl 5, show 5 ≤ 15 by omega, show 20 + 4 * 5 + 0 ≤ 65535 by omega⟩

theorem TCPSegment.FitsDatagram.stamp {seg : TCPSegment} (h : seg.FitsDatagram)
    (c : TCPConnection) : (c.stamp seg).FitsDatagram := by
  unfold TCPConnection.stamp
  cases c.receiver.acknoOut <;> cases c.needSendRst <;> exact ⟨h.words, h.words_le, h.length⟩

/-- What waits to be written has been enqueued, and fits a datagram. -/
structure Enqueued (e : Endpoint) (segmentsOut : List TCPSegment) : Prop where
  queue : ∀ seg ∈ segmentsOut, ∃ pkt ∈ e.net, pkt.seg = seg
  emits : e.conn.Emits TCPSegment.FitsDatagram
  net : ∀ pkt ∈ e.net, pkt.seg.FitsDatagram

section
variable {e : Endpoint} {segs segs' : List TCPSegment}

theorem Enqueued.fits (h : Enqueued e segs) {seg : TCPSegment} (hm : seg ∈ segs) :
    seg.FitsDatagram := by
  obtain ⟨pkt, hpkt, rfl⟩ := h.queue seg hm
  exact h.net pkt hpkt

/-- Some of it is written. -/
theorem Enqueued.subset (h : Enqueued e segs) (hs : segs' ⊆ segs) : Enqueued e segs' :=
  ⟨fun seg hm => h.queue seg (hs hm), h.emits, h.net⟩

theorem subset_step (e : Endpoint) (op : TCPConnection.Op) (heard : Nat) :
    e.net ⊆ (e.step op heard).net := List.subset_append_left ..

theorem Enqueued.step (h : Enqueued e segs) (op : TCPConnection.Op) (heard : Nat) :
    Enqueued (e.step op heard) (segs ++ (e.conn.step op).segmentsOut) := by
  have he := h.emits.step made_fitsDatagram (fun c _ hseg => hseg.stamp c) op
  have hnet : (e.step op heard).net = e.net ++
      (e.conn.step op).segmentsOut.map fun seg => { seg := seg, heard := heard } := rfl
  refine ⟨fun seg hm => ?_, ⟨he.sender, List.forall_mem_nil _⟩, fun pkt hm => ?_⟩
  · rw [hnet]
    rcases List.mem_append.mp hm with hm | hm
    · obtain ⟨pkt, hpkt, hseg⟩ := h.queue seg hm
      exact ⟨pkt, List.mem_append_left _ hpkt, hseg⟩
    · exact ⟨⟨seg, heard⟩, List.mem_append_right _ (List.mem_map.mpr ⟨seg, hm, rfl⟩), rfl⟩
  · rw [hnet] at hm
    rcases List.mem_append.mp hm with hm | hm
    · exact h.net pkt hm
    · obtain ⟨seg, hseg, rfl⟩ := List.mem_map.mp hm
      exact he.out seg hseg

theorem enqueued_mk {cfg : TCPConfig} {random : UInt32} {c : TCPConnection}
    (h : TCPConnection.mk? cfg random = some c) : Enqueued { conn := c } [] :=
  ⟨List.forall_mem_nil _, TCPConnection.emits_mk h, List.forall_mem_nil _⟩

end

/-! ## What the network does with it -/

theorem set_endpoint (s : System) (x : Side) : s.set x (s.endpoint x) = s := by cases x <;> rfl

/-- The delivery of a packet. -/
theorem exists_deliver {t : System} {x : Side} {pkt : Packet}
    (hm : pkt ∈ (t.endpoint x.other).net) :
    ∃ k, (t.endpoint x.other).net[k]? = some pkt ∧
      t.step (.deliver x k) = t.act x (.segmentReceived pkt.seg) := by
  obtain ⟨k, hk⟩ := List.mem_iff_getElem?.mp hm
  refine ⟨k, hk, ?_⟩
  unfold System.step
  simp only [System.opOf, hk, Option.map_some]

end Sponge
