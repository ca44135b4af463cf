import Sponge.Network.Model

/-!
# What an endpoint sends

`Speaking S W isn c`: with `S` the segments that have been queued so far and `W`
what the application wrote before FIN was sent, every segment of the history or
in the queue carries its part of `W`; whatever the sender or the connection
holds for sending is the body of one of them, or occupies no sequence number;
and what is stamped carries the ackno of the receiver.

The first part of an operation keeps it (`Speaks.front`), and so does each step
of what follows (`Speaking.settle`); an endpoint has it after every operation
(`Speaks.step`).
-/

namespace Sponge

open Lib TCPConnection

/-- The segment has no sequence numbers, or is the body of one in the list. -/
def Known (entries : List (Nat × TCPSegment)) (seg : TCPSegment) : Prop :=
  seg.lengthInSequenceSpace = 0 ∨ ∃ entry ∈ entries, SameBody entry.2 seg

theorem Known.mono {l m : List (Nat × TCPSegment)} {seg : TCPSegment} (h : Known l seg)
    (hsub : l ⊆ m) : Known m seg := by
  rcases h with h | ⟨entry, hm, hs⟩
  · exact .inl h
  · exact .inr ⟨entry, hsub hm, hs⟩

theorem SameBody.length {s t : TCPSegment} (h : SameBody s t) :
    s.lengthInSequenceSpace = t.lengthInSequenceSpace := by
  obtain ⟨h1, -, h3, h4⟩ := h
  rw [TCPSegment.lengthInSequenceSpace, TCPSegment.lengthInSequenceSpace, h1, h3, h4]

theorem sameBody_stamp (c : TCPConnection) (seg : TCPSegment) : SameBody seg (c.stamp seg) := by
  unfold stamp
  cases c.receiver.acknoOut <;> cases c.needSendRst <;> exact ⟨rfl, rfl, rfl, rfl⟩

/-- A stamped segment carries the receiver's ackno. -/
theorem stamp_ack (c : TCPConnection) {seg : TCPSegment} (h : seg.header.ack = false)
    (hack : (c.stamp seg).header.ack = true) :
    c.receiver.syn = true ∧ (c.stamp seg).header.ackno = c.receiver.ackno := by
  unfold stamp at hack ⊢
  unfold TCPReceiver.acknoOut at hack ⊢
  by_cases hn : c.receiver.ackno = ⟨0⟩ ∨ c.receiver.syn = false
  · rw [if_pos hn] at hack
    cases hr : c.needSendRst <;> simp [hr, h] at hack
  · rw [if_neg hn]
    push Not at hn
    refine ⟨by simpa using hn.2, ?_⟩
    cases c.needSendRst <;> rfl

theorem Known.stamp {l : List (Nat × TCPSegment)} {seg : TCPSegment} (h : Known l seg)
    (c : TCPConnection) : Known l (c.stamp seg) := by
  have hb := sameBody_stamp c seg
  rcases h with h | ⟨entry, hm, h1, h2, h3, h4⟩
  · exact .inl (hb.length ▸ h)
  · obtain ⟨b1, b2, b3, b4⟩ := hb
    exact .inr ⟨entry, hm, h1.trans b1, h2.trans b2, h3.trans b3, h4.trans b4⟩

theorem exists_numbered {segs : List TCPSegment} {seg : TCPSegment} (h : seg ∈ segs) (p : Nat) :
    ∃ n, (n, seg) ∈ numbered p segs := by
  obtain ⟨pre, post, rfl⟩ := List.append_of_mem h
  exact ⟨p + seqLength pre, mem_numbered.mpr ⟨pre, post, rfl, rfl⟩⟩

namespace TCPSender

theorem fillWindow_firstSeqno (s : TCPSender) : s.fillWindow.firstSeqno = s.firstSeqno :=
  fillWindow_inv (P := fun t => t.firstSeqno = s.firstSeqno)
    (fun hs => (fillWindow_syn hs).1.firstSeqno) (fun _ => rfl)
    fun _ _ _ _ ht hp => ht.sent.firstSeqno.trans hp

theorem fillWindow_fin (s : TCPSender) (h : s.fin = true) : s.fillWindow.fin = true :=
  fillWindow_inv (P := fun t => t.fin = true) (fun hs => (fillWindow_syn hs).2.2.1.trans h)
    (fun _ => h) fun _ _ _ _ ht hf => by rw [ht.unfinished] at hf; cases hf

/-- The new segments of a `fillWindow` are outstanding behind the old ones. -/
theorem Sends.outstanding {W : List UInt8} {s : TCPSender} {new : List TCPSegment}
    (h : Sends W s new s.fillWindow) (hq : s.Queued) :
    s.fillWindow.outstanding = s.outstanding ++ numbered s.nextSeqno new := by
  rw [TCPSender.outstanding, TCPSender.outstanding, fillWindow_firstSeqno, h.segmentsInFlight,
    numbered_append, hq.run.length]

/-- The pop loop leaves the end of the queue. -/
theorem Acked.outstanding {s e : TCPSender} {absAckno : Nat} {popped : List TCPSegment}
    (h : Acked s absAckno e popped) (hq : s.Queued) :
    s.outstanding = numbered s.firstSeqno popped ++ e.outstanding := by
  rw [TCPSender.outstanding, TCPSender.outstanding, h.firstSeqno hq, h.queue, numbered_append]

end TCPSender

/-! ## During an operation -/

structure Speaking (S : List (Nat × TCPSegment)) (W : List UInt8) (isn : WrappingInt32)
    (c : TCPConnection) : Prop where
  queued : c.sender.Queued
  reading : c.sender.Reading W
  isn_eq : c.sender.isn = isn
  carries : ∀ entry ∈ S ++ c.sender.outstanding, Carries W c.sender.fin isn entry.1 entry.2
  pending : ∀ seg ∈ c.sender.segmentsOut, Known (S ++ c.sender.outstanding) seg
  known : ∀ seg ∈ c.segmentsOut, Known (S ++ c.sender.outstanding) seg
  unstamped : ∀ seg ∈ c.sender.segmentsOut, seg.header.ack = false
  stamped : ∀ seg ∈ c.segmentsOut, seg.header.ack = true →
    c.receiver.syn = true ∧ seg.header.ackno = c.receiver.ackno

namespace Speaking

variable {S : List (Nat × TCPSegment)} {W : List UInt8} {isn : WrappingInt32}
  {c c' : TCPConnection}

/-- Where the queue is left alone, only what waits for sending has to be looked at. -/
theorem same (h : Speaking S W isn c) (hs : TCPSender.Same c.sender c'.sender)
    (pending : ∀ seg ∈ c'.sender.segmentsOut, Known (S ++ c.sender.outstanding) seg)
    (known : ∀ seg ∈ c'.segmentsOut, Known (S ++ c.sender.outstanding) seg)
    (unstamped : ∀ seg ∈ c'.sender.segmentsOut, seg.header.ack = false)
    (stamped : ∀ seg ∈ c'.segmentsOut, seg.header.ack = true →
      c'.receiver.syn = true ∧ seg.header.ackno = c'.receiver.ackno) : Speaking S W isn c' where
  queued := h.queued.same hs
  reading := h.reading.same hs
  isn_eq := hs.isn.trans h.isn_eq
  carries := by rw [hs.outstanding, hs.fin]; exact h.carries
  pending := by rw [hs.outstanding]; exact pending
  known := by rw [hs.outstanding]; exact known
  unstamped := unstamped
  stamped := stamped

theorem fill (h : Speaking S W isn c) :
    Speaking S W isn { c with sender := c.sender.fillWindow } := by
  obtain ⟨new, hs⟩ := TCPSender.fillWindow_sends h.reading
  have hout := hs.outstanding h.queued
  have hsub : S ++ c.sender.outstanding ⊆ S ++ c.sender.fillWindow.outstanding := by
    rw [hout, ← List.append_assoc]
    exact List.subset_append_left ..
  -- a new segment is outstanding under its number
  have hnew : ∀ seg ∈ new, ∃ n, (n, seg) ∈ numbered c.sender.nextSeqno new :=
    fun seg hm => exists_numbered hm c.sender.nextSeqno
  exact {
    queued := h.queued.fillWindow
    reading := hs.reading
    isn_eq := hs.isn.trans h.isn_eq
    carries := fun entry hm => by
      rw [hout, ← List.append_assoc, List.mem_append] at hm
      rcases hm with hm | hm
      · exact (h.carries entry hm).ends hs.fin
      · rw [← h.isn_eq]
        exact hs.carries entry.1 entry.2 hm
    pending := fun seg hm => by
      rw [hs.segmentsOut, List.mem_append] at hm
      rcases hm with hm | hm
      · exact (h.pending seg hm).mono hsub
      · obtain ⟨n, hn⟩ := hnew seg hm
        refine .inr ⟨(n, seg), ?_, rfl, rfl, rfl, rfl⟩
        rw [hout]
        simp [hn]
    known := fun seg hm => (h.known seg hm).mono hsub
    unstamped := fun seg hm => by
      rw [hs.segmentsOut, List.mem_append] at hm
      rcases hm with hm | hm
      · exact h.unstamped seg hm
      · obtain ⟨n, hn⟩ := hnew seg hm
        exact (hs.carries n seg hn).ack
    stamped := h.stamped }

theorem settle (h : Speaking S W isn c) (hs : Settle c c') : Speaking S W isn c' := by
  cases hs with
  | fill => exact h.fill
  | flush =>
    refine h.same (TCPSender.same_setOut ..) (by simp) ?_ (by simp) ?_
    · intro seg hm
      rcases List.mem_append.mp hm with hm | hm
      · exact h.known seg hm
      · obtain ⟨seg', hm', rfl⟩ := List.mem_map.mp hm
        exact (h.pending seg' hm').stamp c
    · intro seg hm hack
      rcases List.mem_append.mp hm with hm | hm
      · exact h.stamped seg hm hack
      · obtain ⟨seg', hm', rfl⟩ := List.mem_map.mp hm
        exact stamp_ack c (h.unstamped seg' hm') hack
  | sendEmpty =>
    refine h.same (TCPSender.same_sendEmpty _) ?_ h.known ?_ h.stamped
    · intro seg hm
      rcases List.mem_append.mp hm with hm | hm
      · exact h.pending seg hm
      · rw [List.mem_singleton.mp hm]
        exact .inl rfl
    · intro seg hm
      rcases List.mem_append.mp hm with hm | hm
      · exact h.unstamped seg hm
      · rw [List.mem_singleton.mp hm]
  | abort => exact h.same (TCPSender.same_setError _) h.pending h.known h.unstamped h.stamped
  | flags =>
    exact ⟨h.queued, h.reading, h.isn_eq, h.carries, h.pending, h.known, h.unstamped, h.stamped⟩

/-- The pop loop: what is popped stays in the history. -/
theorem acked {e : TCPSender} {popped : List TCPSegment} {absAckno : Nat} {w : UInt16}
    (h : Speaking S W isn c) (hkept : c.sender.outstanding ⊆ S)
    (ha : TCPSender.Acked { c.sender with windowSize := w } absAckno e popped)
    (hle : absAckno ≤ c.sender.nextSeqno) : Speaking S W isn { c with sender := e } := by
  have hw := TCPSender.same_setWindow c.sender w
  have hs := h.queued.same hw
  have hold : S ++ c.sender.outstanding ⊆ S ++ e.outstanding := by
    intro entry hm
    rcases List.mem_append.mp hm with hm | hm
    · exact List.mem_append_left _ hm
    · exact List.mem_append_left _ (hkept hm)
  have hrest : e.outstanding ⊆ c.sender.outstanding := by
    rw [← hw.outstanding, ha.outstanding hs]
    exact List.subset_append_right ..
  have he : e.segmentsOut = c.sender.segmentsOut ∧ e.isn = c.sender.isn ∧
      e.fin = c.sender.fin := by
    rw [ha.eq]
    exact ⟨rfl, rfl, rfl⟩
  exact {
    queued := hs.acked ha hle
    reading := h.reading.acked ha
    isn_eq := he.2.1.trans h.isn_eq
    carries := fun entry hm => by
      simp only
      rw [he.2.2]
      apply h.carries
      rcases List.mem_append.mp hm with hm | hm
      · exact List.mem_append_left _ hm
      · exact List.mem_append_right _ (hrest hm)
    pending := fun seg hm => by
      simp only at hm
      rw [he.1] at hm
      exact (h.pending seg hm).mono hold
    known := fun seg hm => (h.known seg hm).mono hold
    unstamped := fun seg hm => by
      simp only at hm
      rw [he.1] at hm
      exact h.unstamped seg hm
    stamped := h.stamped }

theorem ack (h : Speaking S W isn c) (hkept : c.sender.outstanding ⊆ S) (ackno : WrappingInt32)
    (w : UInt16) : Speaking S W isn { c with sender := c.sender.ackReceived ackno w } := by
  rcases TCPSender.ackReceived_cases c.sender ackno w with ⟨-, -, heq⟩ | ⟨-, -, -, heq⟩ |
    ⟨hle, -, e, popped, -, ha, heq⟩
  · rw [heq]
    exact h
  · rw [heq]
    exact h.same (TCPSender.same_setWindow _ w) h.pending h.known h.unstamped h.stamped
  · have hf := (h.acked hkept ha hle).fill
    have hout : e.fillWindow.restartTimer.segmentsOut = e.fillWindow.segmentsOut := by
      obtain ⟨counting, clock, hr⟩ := TCPSender.restartTimer_eq e.fillWindow
      rw [hr]
    rw [heq]
    refine hf.same (TCPSender.same_restartTimer _) ?_ hf.known ?_ hf.stamped
    · simp only
      rw [hout]
      exact hf.pending
    · simp only
      rw [hout]
      exact hf.unstamped

theorem tick (h : Speaking S W isn c) (ms : Nat) :
    Speaking S W isn { c with sender := c.sender.tick ms } := by
  have ht := TCPSender.tick_ticked c.sender ms
  -- what is pushed is in the queue
  have hpush : ∀ seg ∈ (c.sender.tick ms).segmentsOut, seg ∈ c.sender.segmentsOut ∨
      ∃ n, (n, seg) ∈ S ++ c.sender.outstanding := by
    intro seg hm
    rcases ht.out with hout | ⟨first, rest, hq, hout⟩
    · rw [hout] at hm
      exact .inl hm
    · rw [hout, List.mem_append, List.mem_singleton] at hm
      rcases hm with hm | rfl
      · exact .inl hm
      · have hmem : seg ∈ c.sender.segmentsInFlight := by
          rw [hq]
          exact List.mem_cons_self
        obtain ⟨n, hn⟩ := exists_numbered hmem c.sender.firstSeqno
        exact .inr ⟨n, List.mem_append_right _ hn⟩
  refine h.same ht.same ?_ h.known ?_ h.stamped
  · intro seg hm
    rcases hpush seg hm with hm | ⟨n, hn⟩
    · exact h.pending seg hm
    · exact .inr ⟨(n, seg), hn, rfl, rfl, rfl, rfl⟩
  · intro seg hm
    rcases hpush seg hm with hm | ⟨n, hn⟩
    · exact h.unstamped seg hm
    · exact (h.carries _ hn).ack

/-- Once FIN is sent, what the application writes is not counted. -/
theorem write (h : Speaking S W isn c) (data : List UInt8) :
    Speaking S (W ++ if c.sender.fin then [] else data.take (c.sender.stream.write data).2) isn
      { c with sender := c.sender.write data } where
  queued := h.queued.write data
  reading := h.reading.write data
  isn_eq := h.isn_eq
  carries := fun entry hm => (h.carries entry hm).grow fun hf => if_pos hf
  pending := h.pending
  known := h.known
  unstamped := h.unstamped
  stamped := h.stamped

theorem endInput (h : Speaking S W isn c) :
    Speaking S W isn { c with sender := c.sender.endInput } where
  queued := h.queued.endInput
  reading := ⟨h.reading.buffer, h.reading.unstarted, fun _ => rfl⟩
  isn_eq := h.isn_eq
  carries := h.carries
  pending := h.pending
  known := h.known
  unstamped := h.unstamped
  stamped := h.stamped

/-- The receiver may change while nothing stamped waits. -/
theorem setReceiver (h : Speaking S W isn c) (hout : c.segmentsOut = []) (r : TCPReceiver) :
    Speaking S W isn { c with receiver := r } :=
  ⟨h.queued, h.reading, h.isn_eq, h.carries, h.pending, h.known, h.unstamped, by simp [hout]⟩

end Speaking

/-! ## Between operations -/

/-- The invariant of an endpoint's sending side. -/
structure Speaks (isn : WrappingInt32) (e : Endpoint) : Prop where
  speaking : Speaking e.sent e.outgoing isn e.conn
  kept : e.conn.sender.outstanding ⊆ e.sent
  net : ∀ pkt ∈ e.net, Known e.sent pkt.seg
  drained : e.conn.segmentsOut = []
  outgoing_le : e.outgoing <+: e.wrote
  outgoing_eq : e.conn.sender.fin = false → e.outgoing = e.wrote

namespace Speaks

variable {isn : WrappingInt32} {e : Endpoint} {op : TCPConnection.Op}

theorem front (h : Speaks isn e) :
    Speaking e.sent (e.outgoing ++ e.writesOut op) isn (e.conn.front op) := by
  have hs := h.speaking
  by_cases hw : ∃ data, op = .write data
  · obtain ⟨data, rfl⟩ := hw
    exact hs.write data
  · -- nothing is written
    rw [Endpoint.writesOut, e.writes_eq_nil fun data hd => hw ⟨data, hd⟩, ite_self, List.append_nil]
    cases op with
    | write data => exact absurd ⟨data, rfl⟩ hw
    | connect => exact hs
    | endInputStream => exact hs.endInput
    | read n => exact hs.setReceiver h.drained (e.conn.receiver.readOut n)
    | tick ms =>
      rw [TCPConnection.front]
      split
      · exact hs
      · exact hs.tick ms
    | segmentReceived seg =>
      rw [TCPConnection.front]
      split
      · have hack : Speaking e.sent e.outgoing isn (e.conn.acceptAck seg) := by
          unfold acceptAck
          split
          · exact hs.ack h.kept seg.header.ackno seg.header.win
          · exact hs
        have hout : (e.conn.acceptAck seg).segmentsOut = [] := by
          rw [acceptAck_segmentsOut]
          exact h.drained
        exact hack.setReceiver hout _
      · exact hs

theorem settled (h : Speaks isn e) (op : TCPConnection.Op) :
    Speaking e.sent (e.outgoing ++ e.writesOut op) isn (e.conn.step op) :=
  (step_settles e.conn op).inv (fun _ _ hstep hp => Speaking.settle hp hstep) h.front

/-- FIN, once sent, stays sent. -/
theorem fin_step (h : e.conn.sender.fin = true) (op : TCPConnection.Op) (heard : Nat) :
    (e.step op heard).conn.sender.fin = true := by
  refine step_sender (P := fun s => s.fin = true) e.conn op ?_ ?_ ?_ ?_ ?_ h
  · intro s t hs hf
    exact hs.fin.trans hf
  · intro s absAckno e popped ha hf
    rw [ha.eq]
    exact hf
  · exact fun s hf => s.fillWindow_fin hf
  · exact fun s data hf => hf
  · exact fun s hf => hf

theorem writesOut_of_fin (h : e.conn.sender.fin = true) (op : TCPConnection.Op) :
    e.writesOut op = [] := if_pos h

theorem writesOut_of_open (h : e.conn.sender.fin = false) (op : TCPConnection.Op) :
    e.writesOut op = e.writes op := if_neg (by simp [h])

/-- Every operation keeps the invariant. -/
theorem step (h : Speaks isn e) (op : TCPConnection.Op) (heard : Nat) :
    Speaks isn (e.step op heard) := by
  have hs := h.settled op
  have hfin := fun hf => fin_step (e := e) hf op heard
  have hgrow : e.outgoing ++ e.writesOut op <+: e.wrote ++ e.writes op ∧
      ((e.conn.step op).sender.fin = false →
        e.outgoing ++ e.writesOut op = e.wrote ++ e.writes op) := by
    cases hf : e.conn.sender.fin with
    | true =>
      rw [writesOut_of_fin hf, List.append_nil]
      refine ⟨h.outgoing_le.trans (List.prefix_append ..), fun hf' => ?_⟩
      exact absurd (hfin hf) (ne_true_of_eq_false hf')
    | false =>
      rw [writesOut_of_open hf, h.outgoing_eq hf]
      exact ⟨List.prefix_rfl, fun _ => rfl⟩
  unfold Endpoint.step
  generalize e.conn.step op = c at hs hgrow
  refine ⟨⟨hs.queued, hs.reading, hs.isn_eq, ?_, ?_, by simp, hs.unstamped, by simp⟩, ?_, ?_, rfl,
    hgrow.1, hgrow.2⟩
  · intro entry hm
    apply hs.carries
    simp only [List.mem_append] at hm ⊢
    tauto
  · intro seg hm
    exact (hs.pending seg hm).mono (List.subset_append_left ..)
  · exact List.subset_append_right ..
  · intro pkt hm
    rcases List.mem_append.mp hm with hm | hm
    · exact (h.net pkt hm).mono (List.subset_append_left ..)
    · obtain ⟨seg, hseg, rfl⟩ := List.mem_map.mp hm
      exact hs.known seg hseg

/-- A packet is old, or stamped in this operation. -/
theorem step_net (h : Speaks isn e) (op : TCPConnection.Op) (heard : Nat) :
    ∀ pkt ∈ (e.step op heard).net, pkt ∈ e.net ∨ (pkt.heard = heard ∧
      (pkt.seg.header.ack = true → (e.conn.step op).receiver.syn = true ∧
        pkt.seg.header.ackno = (e.conn.step op).receiver.ackno)) := by
  intro pkt hm
  rcases List.mem_append.mp hm with hm | hm
  · exact .inl hm
  · obtain ⟨seg, hseg, rfl⟩ := List.mem_map.mp hm
    exact .inr ⟨rfl, (h.settled op).stamped seg hseg⟩

end Speaks

theorem speaks_mk {cfg : TCPConfig} {random : UInt32} {c : TCPConnection}
    (h : TCPConnection.mk? cfg random = some c) : Speaks c.sender.isn { conn := c } := by
  simp only [TCPConnection.mk?, Option.map_eq_some_iff] at h
  obtain ⟨r, -, rfl⟩ := h
  exact ⟨⟨TCPSender.queued_new .., TCPSender.reading_new .., rfl,
    by simp [TCPSender.outstanding, numbered, TCPSender.new],
    by simp [TCPSender.new], by simp, by simp [TCPSender.new], by simp⟩,
    by simp [TCPSender.outstanding, numbered, TCPSender.new],
    by simp, rfl, List.nil_prefix, fun _ => rfl⟩

end Sponge
