import Sponge.Connection.State
import Sponge.Connection.Tick

/-!
# Before SYN is acknowledged

An ackno that acknowledges nothing is meant to be ignored in SYN_SENT, and most
are: those beyond `nextSeqno` return at once. The ackno that is the initial
sequence number itself is an old one, and `ackReceived` has stored its window
before it notices. A window of two or more lets the next `fillWindow` send data
or FIN behind the SYN that nobody has acknowledged.

`Opening` is what holds of a sender that has sent at most SYN, `along_ignores_iff`
says exactly which calls keep to that.
-/

namespace Sponge

open Lib

namespace TCPSender

/-- The segment is the SYN: no FIN, no payload, the initial sequence number. -/
def IsSyn (isn : WrappingInt32) (seg : TCPSegment) : Prop :=
  seg.header.syn = true ∧ seg.header.fin = false ∧ seg.payload = [] ∧ seg.header.seqno = isn

instance (isn : WrappingInt32) (seg : TCPSegment) : Decidable (IsSyn isn seg) :=
  inferInstanceAs (Decidable (_ ∧ _ ∧ _ ∧ _))

/-- As long as no sequence number beyond the first is used, the accounts balance, FIN is not sent
and only SYN is outstanding. -/
structure Opening (s : TCPSender) : Prop where
  unstarted : s.syn = false → s.nextSeqno = 0
  opened : s.syn = true → 0 < s.nextSeqno
  early : s.nextSeqno ≤ 1 → s.Accounted ∧ s.fin = false ∧
    ∀ seg ∈ s.segmentsInFlight, IsSyn s.isn seg

section
variable {s t : TCPSender}

theorem opening_new (capacity : Nat) (retxTimeout : UInt16) (fixedIsn : Option WrappingInt32)
    (random : UInt32) : Opening (new capacity retxTimeout fixedIsn random) :=
  ⟨fun _ => rfl, (by rintro ⟨⟩),
    fun _ => ⟨accounted_new capacity retxTimeout fixedIsn random, rfl, (by rintro _ ⟨⟩)⟩⟩

theorem Opening.same (h : s.Opening) (ht : Same s t) : t.Opening where
  unstarted := by rw [ht.syn, ht.nextSeqno]; exact h.unstarted
  opened := by rw [ht.syn, ht.nextSeqno]; exact h.opened
  early hn := by
    rw [ht.nextSeqno] at hn
    obtain ⟨h1, h2, h3⟩ := h.early hn
    rw [ht.fin, ht.segmentsInFlight, ht.isn]
    exact ⟨h1.same ht, h2, h3⟩

theorem Opening.write (h : s.Opening) (data : List UInt8) : (s.write data).Opening where
  unstarted := h.unstarted
  opened := h.opened
  early hn := by
    obtain ⟨h1, h2, h3⟩ := h.early hn
    exact ⟨⟨h1.toQueued.write data, h1.first_le, h1.ack_lt⟩, h2, h3⟩

theorem Opening.endInput (h : s.Opening) : s.endInput.Opening where
  unstarted := h.unstarted
  opened := h.opened
  early hn := by
    obtain ⟨h1, h2, h3⟩ := h.early hn
    exact ⟨⟨h1.toQueued.endInput, h1.first_le, h1.ack_lt⟩, h2, h3⟩

theorem Opening.fillWindow (h : s.Opening) : s.fillWindow.Opening := by
  refine fillWindow_inv (P := Opening) (fun hs => ?_) (fun b => h.same (same_setZero s b))
    fun s' seg t hs ht hp => ?_
  · obtain ⟨hsent, hsyn, hfin, -⟩ := fillWindow_syn hs
    have hpos := hsent.nonempty
    have hnext := hsent.nextSeqno
    obtain ⟨h1, h2, h3⟩ := h.early (by rw [h.unstarted hs]; exact Nat.zero_le 1)
    refine ⟨fun h' => (by rw [hsyn] at h'; cases h'), fun _ => (by omega), fun _ => ?_⟩
    refine ⟨h1.sent hsent, hfin.trans h2, fun seg hm => ?_⟩
    rw [hsent.segmentsInFlight, List.mem_append, List.mem_singleton] at hm
    rw [hsent.isn]
    rcases hm with hm | rfl
    · exact h3 seg hm
    · exact ⟨rfl, rfl, rfl, by rw [synSegment, h.unstarted hs, wrap_zero]⟩
  · -- a turn of the loop comes after SYN, and leaves the first sequence number behind
    have hpos := hp.opened hs
    have hne := ht.sent.nonempty
    have hnext := ht.sent.nextSeqno
    exact ⟨fun h' => (by rw [ht.syn, hs] at h'; cases h'), fun _ => (by omega), fun _ => (by omega)⟩

theorem Opening.ackReceived (h : s.Opening) (ackno : WrappingInt32) (w : UInt16) :
    (s.ackReceived ackno w).Opening := by
  have hw := h.same (same_setWindow s w)
  rcases ackReceived_cases s ackno w with ⟨-, -, heq⟩ | ⟨-, -, -, heq⟩ |
    ⟨hle, hgt, e, popped, -, ha, heq⟩
  · rw [heq]
    exact h
  · rw [heq]
    exact hw
  · rw [heq]
    refine (Opening.fillWindow ?_).same (same_restartTimer _)
    have hsyn : e.syn = s.syn := by rw [ha.eq]
    have hnext : e.nextSeqno = s.nextSeqno := by rw [ha.eq]
    refine ⟨by rw [hsyn, hnext]; exact h.unstarted, by rw [hsyn, hnext]; exact h.opened,
      fun hn => ?_⟩
    rw [hnext] at hn
    obtain ⟨h1, h2, h3⟩ := hw.early hn
    have hb := h1.bytes_le
    simp only at hb
    have hacc : e.Accounted := h1.acked (by simp only; omega) (by simp only; omega) ha hgt hle
    refine ⟨hacc, by rw [ha.eq]; exact h2, fun seg hm => ?_⟩
    have hisn : e.isn = s.isn := by rw [ha.eq]
    rw [hisn]
    exact h3 seg (by rw [ha.queue]; exact List.mem_append_right _ hm)

/-- SYN has been sent and nothing else, and it is not acknowledged. -/
structure SynOut (s : TCPSender) : Prop where
  syn : s.syn = true
  nextSeqno : s.nextSeqno = 1
  receiveAck : s.receiveAck = 0
  checkpoint : s.checkpoint = 0
  fin : s.fin = false
  queue : ∃ seg, s.segmentsInFlight = [seg] ∧ IsSyn s.isn seg

theorem Opening.synOut (h : s.Opening) (hn : s.nextSeqno = 1) (hb : s.bytesInFlight = 1) :
    s.SynOut := by
  obtain ⟨hacc, hfin, hall⟩ := h.early (by omega)
  have hfirst : s.firstSeqno = 0 := by rw [firstSeqno, hn, hb]
  have hsyn : s.syn = true := by
    by_contra hs
    rw [h.unstarted (by simpa using hs)] at hn
    cases hn
  have hrun := hacc.run
  rw [hfirst, hn] at hrun
  cases hq : s.segmentsInFlight with
  | nil =>
    rw [hq] at hrun
    cases hrun
  | cons seg rest =>
    rw [hq] at hrun
    obtain ⟨-, hpos, hrest⟩ := hrun
    have hlen := hrest.length
    have hlt := hacc.ack_lt seg rest hq
    rw [hfirst] at hlt
    have hrest0 : rest = [] := by
      cases rest with
      | nil => rfl
      | cons seg' rest' =>
        have hpos' := hrest.2.1
        rw [seqLength_cons] at hlen
        omega
    have hack : s.receiveAck = 0 := by omega
    refine ⟨hsyn, hn, hack, hacc.checkpoint.trans hack, hfin, seg, by rw [hq, hrest0], ?_⟩
    exact hall seg (by rw [hq]; exact List.mem_cons_self)

theorem SynOut.same (h : s.SynOut) (ht : Same s t) : t.SynOut where
  syn := ht.syn.trans h.syn
  nextSeqno := ht.nextSeqno.trans h.nextSeqno
  receiveAck := ht.receiveAck.trans h.receiveAck
  checkpoint := ht.checkpoint.trans h.checkpoint
  fin := ht.fin.trans h.fin
  queue := by rw [ht.segmentsInFlight, ht.isn]; exact h.queue

/-- The window has no room behind SYN, or there is nothing to send. -/
def Fits (s : TCPSender) : Prop :=
  s.windowSize.toNat ≤ 1 ∨ (s.stream.buffer = [] ∧ s.stream.inputEnd = false)

instance (s : TCPSender) : Decidable s.Fits := inferInstanceAs (Decidable (_ ∨ _ ∧ _))

theorem SynOut.done_iff (h : s.SynOut) : Done s.window s ↔ s.Fits := by
  have hone : sub64 1 0 = 1 := by decide
  unfold Done Fits
  rw [remain_eq_zero_iff, h.nextSeqno, h.receiveAck, h.fin, window_eq, hone]
  constructor
  · rintro (h1 | h1 | h1)
    · exact .inl (by omega)
    · cases h1
    · exact .inr h1
  · rintro (h1 | h1)
    · exact .inl (by omega)
    · exact .inr (.inr h1)

/-- With no room or nothing to send, `fillWindow` only notes a zero window. -/
theorem SynOut.fillWindow_eq (h : s.SynOut) (hf : s.Fits) :
    s.fillWindow = { s with windowIsZero := s.windowSize == 0 } := by
  rcases fillWindow_idle_or_sends h.syn with ⟨-, heq⟩ | ⟨hd, -⟩
  · exact heq
  · exact absurd (h.done_iff.mpr hf) hd

theorem SynOut.nextSeqno_iff (h : s.SynOut) : s.fillWindow.nextSeqno = 1 ↔ s.Fits := by
  have hiff := fillWindow_nextSeqno_eq_iff h.syn
  rwa [h.nextSeqno, h.done_iff] at hiff

/-- An ack that does not acknowledge SYN: the initial sequence number sets the window, and every
other one is beyond `nextSeqno`. -/
theorem SynOut.ackReceived_eq (h : s.SynOut) {ackno : WrappingInt32}
    (hbad : ackno ≠ s.isn.add 1) (w : UInt16) :
    s.ackReceived ackno w = { s with windowSize := if ackno = s.isn then w else s.windowSize } := by
  have hwrap := wrap_unwrap ackno s.isn s.checkpoint
  have hone : unwrap ackno s.isn s.checkpoint ≠ 1 := by
    intro hu
    rw [hu, ← add_one_eq_wrap] at hwrap
    exact hbad hwrap.symm
  by_cases hisn : ackno = s.isn
  · have hzero : unwrap ackno s.isn s.checkpoint = 0 := by
      rw [hisn, h.checkpoint, ← wrap_zero s.isn, wrap_zero]
      have hw : unwrap (wrap 0 s.isn) s.isn 0 = 0 :=
        unwrap_wrap_near s.isn (by omega) (by omega) (by omega)
      rwa [wrap_zero] at hw
    rw [if_pos hisn, ackReceived, hzero]
    simp
  · have hpos : unwrap ackno s.isn s.checkpoint ≠ 0 := by
      intro hu
      rw [hu, wrap_zero] at hwrap
      exact hisn hwrap.symm
    have hgt : unwrap ackno s.isn s.checkpoint > s.nextSeqno := by
      rw [h.nextSeqno]
      omega
    rw [if_neg hisn, ackReceived]
    exact if_pos hgt

end

end TCPSender

open TCPSender

namespace TCPConnection

/-- What may come while SYN is not acknowledged: calls of the application and the owner, and
segments with an ack of something else, without SYN, RST or a payload. -/
def Unacceptable (c : TCPConnection) : Op → Prop
  | .connect => False
  | .segmentReceived seg => seg.header.ack = true ∧ seg.header.syn = false ∧
      seg.header.rst = false ∧ seg.payload = [] ∧ seg.header.ackno ≠ c.sender.isn.add 1
  | .write _ | .endInputStream | .tick _ | .read _ => True

instance (c : TCPConnection) : ∀ op, Decidable (c.Unacceptable op)
  | .connect => isFalse id
  | .segmentReceived _ => inferInstanceAs (Decidable (_ ∧ _ ∧ _ ∧ _ ∧ _))
  | .write _ | .endInputStream | .tick _ | .read _ => isTrue trivial

def Op.isTick : Op → Bool
  | .tick _ => true
  | .connect | .write _ | .endInputStream | .segmentReceived _ | .read _ => false

/-- `c'` has used no sequence number behind SYN, and has added nothing but, on a tick, SYN. -/
def OnlySyn (c : TCPConnection) (op : Op) (c' : TCPConnection) : Prop :=
  c'.sender.nextSeqno = 1 ∧
    ∀ seg ∈ added c c', op.isTick = true ∧ IsSyn c.sender.isn seg

/-- The call is ignored, up to the retransmission of SYN. -/
def Ignores (c : TCPConnection) (op : Op) : Prop := OnlySyn c op (c.step op)

instance (c : TCPConnection) (op : Op) : Decidable (c.Ignores op) :=
  inferInstanceAs (Decidable (_ ∧ ∀ seg ∈ added c (c.step op), _))

/-- SYN is all that has been sent, and when the call fills the window, the window has no room
behind SYN or there is nothing to send. A FIN does not come when the receiver counts it (which
in SYN_SENT it does only if SYN has come and the ackno is 0, so that there is none). -/
def Contained (c : TCPConnection) (op : Op) : Prop :=
  c.sender.nextSeqno = 1 ∧ match op with
    | .segmentReceived seg => c.active = true →
        Fits { c.sender with
          windowSize := if seg.header.ackno = c.sender.isn then seg.header.win
            else c.sender.windowSize } ∧
        (seg.header.fin = true → ¬ c.receiver.CountsFin)
    | .tick _ => c.active = true → c.sender.Fits
    | .write data => (c.sender.write data).Fits
    | .endInputStream => c.sender.endInput.Fits
    | .connect | .read _ => True

instance (c : TCPConnection) : ∀ op, Decidable (c.Contained op)
  | .segmentReceived _ => inferInstanceAs (Decidable (_ ∧ (_ → _ ∧ (_ → _))))
  | .tick _ => inferInstanceAs (Decidable (_ ∧ (_ → _)))
  | .write _ | .endInputStream => inferInstanceAs (Decidable (_ ∧ Fits _))
  | .connect | .read _ => inferInstanceAs (Decidable (_ ∧ True))

/-- SYN is out, and the connection is live or has given up. -/
structure Waiting (c : TCPConnection) : Prop where
  synOut : c.sender.SynOut
  out : c.sender.segmentsOut = []
  synSended : c.synSended = true
  silent : c.receiver.acknoOut = none
  alive : c.Alive

section
variable {c b x : TCPConnection} {op : Op}

theorem stamp_isSyn {isn : WrappingInt32} {seg : TCPSegment} (h : IsSyn isn seg) :
    IsSyn isn (c.stamp seg) := by
  unfold stamp
  cases c.receiver.acknoOut <;> cases c.needSendRst <;> exact h

/-- `sent` on a connection that waits: SYN is all that goes out exactly when the window fits. -/
theorem sent_onlySyn_iff (op : Op) (hs : b.sender.SynOut) (hout : b.segmentsOut = c.segmentsOut)
    (hpush : ∀ seg ∈ b.sender.segmentsOut, op.isTick = true ∧ IsSyn c.sender.isn seg) :
    (OnlySyn c op b.sent.cleanShutdown ↔ b.sender.Fits) ∧
      (b.sender.Fits → b.sent.cleanShutdown.sender.SynOut ∧
        b.sent.cleanShutdown.sender.segmentsOut = [] ∧ b.sent.cleanShutdown.sender.Fits ∧
        b.sent.cleanShutdown.sender.isn = b.sender.isn) := by
  have hsender := (sent_sender b).1
  have hq := (sent_cleanShutdown b).1
  rw [hout] at hq
  have hadd := added_eq hq
  constructor
  · unfold OnlySyn
    rw [hsender, hadd]
    constructor
    · rintro ⟨hn, -⟩
      exact hs.nextSeqno_iff.mp hn
    · intro hf
      refine ⟨hs.nextSeqno_iff.mpr hf, fun seg hm => ?_⟩
      obtain ⟨s, hs', rfl⟩ := List.mem_map.mp hm
      rw [hs.fillWindow_eq hf] at hs'
      obtain ⟨h1, h2⟩ := hpush s hs'
      exact ⟨h1, stamp_isSyn h2⟩
  · intro hf
    rw [hsender, hs.fillWindow_eq hf]
    exact ⟨(hs.same (same_setZero b.sender _)).same (same_setOut _ []), rfl, hf, rfl⟩

theorem sent_silent (h : b.receiver.acknoOut = none) :
    b.sent.cleanShutdown.receiver.acknoOut = none := by
  rw [(sent_cleanShutdown b).2]
  exact h

theorem waiting_sent (hs : b.sent.cleanShutdown.sender.SynOut)
    (hout : b.sent.cleanShutdown.sender.segmentsOut = []) (hsilent : b.receiver.acknoOut = none)
    (halive : b.sent.cleanShutdown.Alive) : b.sent.cleanShutdown.Waiting :=
  ⟨hs, hout, (sent_sender b).2, sent_silent hsilent, halive⟩

/-- Whatever is pushed before the last part of a call goes out with it. -/
theorem not_onlySyn_of_pushed {op : Op} {seg : TCPSegment}
    (hout : b.segmentsOut = c.segmentsOut) (hm : seg ∈ b.sender.segmentsOut)
    (hop : op.isTick = false) : ¬ OnlySyn c op b.sent.cleanShutdown := by
  rintro ⟨-, hall⟩
  have hq := (sent_cleanShutdown b).1
  rw [hout] at hq
  obtain ⟨new, hnew, -, -⟩ := fillWindow_out b.sender
  rw [added_eq hq, hnew] at hall
  have htick := (hall (b.stamp seg) (List.mem_map_of_mem (List.mem_append_left _ hm))).1
  rw [hop] at htick
  cases htick

theorem step_nextSeqno_le (c : TCPConnection) (op : Op) :
    c.sender.nextSeqno ≤ (c.step op).sender.nextSeqno :=
  step_sender_ack (P := fun s => c.sender.nextSeqno ≤ s.nextSeqno) c op
    (fun _ _ hs h => by rw [hs.nextSeqno]; exact h)
    (fun s ackno w h => Nat.le_trans h (ackReceived_nextSeqno_le s ackno w))
    (fun s h => Nat.le_trans h (fillWindow_nextSeqno_le s)) (fun _ _ h => h) (fun _ h => h)
    (Nat.le_refl _)

/-- A call that leaves the queues and the sequence numbers alone. -/
theorem onlySyn_of_idle {c' : TCPConnection} (h : c.sender.nextSeqno = 1)
    (hn : c'.sender.nextSeqno = c.sender.nextSeqno) (hout : c'.segmentsOut = c.segmentsOut) :
    OnlySyn c op c' := by
  have hadd : added c c' = [] := added_eq (by rw [hout, List.append_nil])
  refine ⟨hn.trans h, ?_⟩
  rw [hadd]
  rintro _ ⟨⟩

/-- A call that only has something for the sender. -/
theorem waiting_call (op : Op) {t : TCPSender} (h : c.Waiting) (ht : t.SynOut)
    (hout : t.segmentsOut = [])
    (hstep : c.step op = TCPConnection.segmentSends { c with sender := t } false) :
    (c.Ignores op ↔ t.Fits) ∧ (t.Fits → (c.step op).Waiting) := by
  have heq : c.step op = (TCPConnection.sent { c with sender := t }).cleanShutdown :=
    hstep.trans (segmentSends_eq_sent (.inr h.synSended))
  obtain ⟨hiff, hrest⟩ := sent_onlySyn_iff (c := c) (b := { c with sender := t }) op ht rfl
    (by rw [hout]; rintro _ ⟨⟩)
  refine ⟨by rw [Ignores, heq]; exact hiff, fun hf => ?_⟩
  have halive := alive_step h.alive op
  rw [heq] at halive ⊢
  exact waiting_sent (hrest hf).1 (hrest hf).2.1 h.silent halive

/-- What a tick leaves in the sender: SYN, and nothing else is pushed. -/
theorem waiting_tick_sender (h : c.Waiting) (ms : Nat) : (c.sender.tick ms).SynOut ∧
    (∀ seg ∈ (c.sender.tick ms).segmentsOut, IsSyn c.sender.isn seg) ∧
    ((c.sender.tick ms).Fits ↔ c.sender.Fits) := by
  have ht := tick_ticked c.sender ms
  refine ⟨h.synOut.same ht.same, fun seg hm => ?_, ?_⟩
  · obtain ⟨syn, hq, hsyn⟩ := h.synOut.queue
    rcases ht.out with ho | ⟨seg', rest, hq', ho⟩
    · rw [ho, h.out] at hm
      cases hm
    · rw [hq] at hq'
      obtain ⟨rfl, -⟩ := List.cons.inj hq'
      rw [ho, h.out, List.nil_append, List.mem_singleton] at hm
      rw [hm]
      exact hsyn
  · rw [ht.eq]
    rfl

theorem OnlySyn.trans {c' : TCPConnection} (h : OnlySyn c op x) (h' : OnlySyn x op c')
    (hisn : x.sender.isn = c.sender.isn) (hq : x.segmentsOut = c.segmentsOut ++ added c x)
    (hq' : c'.segmentsOut = x.segmentsOut ++ added x c') : OnlySyn c op c' := by
  have hadd : added c c' = added c x ++ added x c' :=
    added_eq (by rw [hq', hq, List.append_assoc])
  refine ⟨h'.1, fun seg hm => ?_⟩
  rw [hadd, List.mem_append] at hm
  rcases hm with hm | hm
  · exact h.2 seg hm
  · rw [← hisn]
    exact h'.2 seg hm

/-- Filling the window once more changes nothing. -/
theorem sent_sent_onlySyn_iff (op : Op) (hs : b.sender.SynOut)
    (hout : b.segmentsOut = c.segmentsOut) (hisn : b.sender.isn = c.sender.isn)
    (hpush : ∀ seg ∈ b.sender.segmentsOut, op.isTick = true ∧ IsSyn c.sender.isn seg) :
    (OnlySyn c op b.sent.cleanShutdown.sent.cleanShutdown ↔ b.sender.Fits) ∧
      (b.sender.Fits → b.sent.cleanShutdown.sent.cleanShutdown.sender.SynOut ∧
        b.sent.cleanShutdown.sent.cleanShutdown.sender.segmentsOut = []) := by
  obtain ⟨hiff, hrest⟩ := sent_onlySyn_iff op hs hout hpush
  have hq := (sent_cleanShutdown b).1
  rw [hout] at hq
  by_cases hf : b.sender.Fits
  · obtain ⟨h1, h2, h3, h4⟩ := hrest hf
    obtain ⟨hiff', hrest'⟩ := sent_onlySyn_iff (c := b.sent.cleanShutdown) op h1 rfl
      (by rw [h2]; rintro _ ⟨⟩)
    have hq' := (sent_cleanShutdown b.sent.cleanShutdown).1
    have hboth := (hiff.mpr hf).trans (hiff'.mpr h3) (h4.trans hisn)
      (by rw [added_eq hq]; exact hq) (by rw [added_eq hq']; exact hq')
    exact ⟨iff_of_true hboth hf, fun _ => ⟨(hrest' h3).1, (hrest' h3).2.1⟩⟩
  · refine ⟨iff_of_false (fun hn => ?_) hf, fun h => absurd h hf⟩
    have hle1 : b.sender.nextSeqno ≤ b.sender.fillWindow.nextSeqno := fillWindow_nextSeqno_le _
    have hle2 := fillWindow_nextSeqno_le b.sent.cleanShutdown.sender
    have hne := (hs.nextSeqno_iff.not).mpr hf
    have hlast := hn.1
    rw [(sent_sender b.sent.cleanShutdown).1] at hlast
    have hmid : b.sent.cleanShutdown.sender.nextSeqno = b.sender.fillWindow.nextSeqno := by
      rw [(sent_sender b).1]
    have hlast' : b.sent.cleanShutdown.sender.fillWindow.nextSeqno = 1 := hlast
    have hone := hs.nextSeqno
    omega

theorem waiting_tick (h : c.Waiting) (ha : c.active = true) (ms : Nat) :
    (c.Ignores (.tick ms) ↔ c.sender.Fits) ∧ (c.sender.Fits → (c.step (.tick ms)).Waiting) := by
  obtain ⟨hsyn, hpush, hfits⟩ := waiting_tick_sender h ms
  have halive := alive_step h.alive (.tick ms)
  have hlive := h.alive ha
  unfold Ignores
  by_cases hgt : (c.sender.tick ms).consecutiveRetrans > TCPConfig.MAX_RETX_ATTEMPTS
  · -- the ninth timeout: SYN goes out with RST, and both streams are in error
    rw [hlive.tick_eq_of_gt ha hgt] at halive ⊢
    obtain ⟨hiff, hrest⟩ := sent_sent_onlySyn_iff (c := c) (b := c.givenUp ms) (.tick ms)
      (hsyn.same (same_setError _)) rfl (by
        show (c.sender.tick ms).isn = c.sender.isn
        rw [(tick_ticked c.sender ms).eq]) fun seg hm => ⟨rfl, hpush seg hm⟩
    have hfits' : (c.givenUp ms).sender.Fits ↔ c.sender.Fits := hfits
    rw [hfits'] at hiff hrest
    have hsilent := sent_silent (b := c.givenUp ms) h.silent
    exact ⟨hiff, fun hf => waiting_sent (hrest hf).1 (hrest hf).2 hsilent halive⟩
  · rw [hlive.tick_eq_of_le ha h.synOut.syn hgt] at halive ⊢
    obtain ⟨hiff, hrest⟩ := sent_onlySyn_iff (c := c) (b := c.ticked ms) (.tick ms) hsyn rfl
      fun seg hm => ⟨rfl, hpush seg hm⟩
    have hfits' : (c.ticked ms).sender.Fits ↔ c.sender.Fits := hfits
    rw [hfits'] at hiff hrest
    exact ⟨hiff, fun hf => waiting_sent (hrest hf).1 (hrest hf).2.1 h.silent halive⟩

theorem waiting_segment (h : c.Waiting) (ha : c.active = true) {seg : TCPSegment}
    (hg : c.Unacceptable (.segmentReceived seg)) :
    (c.Ignores (.segmentReceived seg) ↔ c.Contained (.segmentReceived seg)) ∧
      (c.Contained (.segmentReceived seg) → (c.step (.segmentReceived seg)).Waiting) := by
  obtain ⟨hack, hnosyn, hrst, hpay, hbad⟩ := hg
  have hacc : c.Accepts seg := ⟨ha, fun hs => hs.2.2 (by rw [hpay]; rfl)⟩
  have halive := alive_step h.alive (.segmentReceived seg)
  have hlive := h.alive ha
  have hends := step_ends hlive ha (.segmentReceived seg)
  have hframe := begun_frame c (.segmentReceived seg)
  have hsender := begun_sender hacc
  rw [if_pos ⟨hack, by rw [h.synOut.nextSeqno]; exact Nat.one_pos⟩,
    h.synOut.ackReceived_eq hbad] at hsender
  have hrecv := begun_receiver hacc
  obtain ⟨b, hb⟩ : ∃ b, b = c.begun (.segmentReceived seg) := ⟨_, rfl⟩
  have hout : b.segmentsOut = c.segmentsOut := by rw [hb, hframe]
  have hsent : b.synSended = true := by rw [hb, hframe]; exact h.synSended
  rw [← hb] at hsender hrecv
  have hbsyn : b.sender.SynOut := by
    rw [hsender]
    exact h.synOut.same (same_setWindow ..)
  have hbout : b.sender.segmentsOut = [] := by rw [hsender]; exact h.out
  have hlone := TCPReceiver.acknoOut_lone hlive.receiver hnosyn hpay h.silent
  have hcont : c.Contained (.segmentReceived seg) ↔
      b.sender.Fits ∧ b.receiver.acknoOut = none := by
    rw [Contained, hsender, hrecv, hlone]
    simp [h.synOut.nextSeqno, ha]
  obtain ⟨hiff, hrest⟩ := sent_onlySyn_iff (c := c) (b := b) (.segmentReceived seg) hbsyn
    hout (by rw [hbout]; rintro _ ⟨⟩)
  rw [hcont]
  unfold Ignores
  generalize c.step (.segmentReceived seg) = c' at hends halive
  cases hends with
  | listening _ hl =>
    rw [← hb, hsent] at hl
    cases hl
  | ignored _ _ hno =>
    rw [(hno hacc).1] at hrst
    cases hrst
  | sends _ _ _ hseg =>
    have hquiet : b.sender.Fits → b.receiver.acknoOut = none := by
      intro hf
      by_contra hn
      have hlen : 0 < seg.lengthInSequenceSpace := by
        rw [hrecv, hlone] at hn
        push Not at hn
        simp [TCPSegment.lengthInSequenceSpace, hn.1]
      refine (hseg seg rfl).2 hlen (by rw [← hb]; simpa [Option.isSome_iff_ne_none] using hn) ?_
      rw [← hb, hbsyn.fillWindow_eq hf]
      exact hbout
    rw [← hb] at halive ⊢
    rw [hiff]
    exact ⟨⟨fun hf => ⟨hf, hquiet hf⟩, fun hf => hf.1⟩, fun hf =>
      waiting_sent (hrest hf.1).1 (hrest hf.1).2.1 hf.2 halive⟩
  | answers _ _ _ _ hackno =>
    -- the receiver has an ackno, and acknowledges the FIN
    rw [← hb] at hackno ⊢
    have hno : ¬ (b.sender.Fits ∧ b.receiver.acknoOut = none) := by
      rintro ⟨-, hnone⟩
      rw [hnone] at hackno
      cases hackno
    refine ⟨iff_of_false ?_ hno, fun hc => absurd hc hno⟩
    exact not_onlySyn_of_pushed (b := { b with sender := b.sender.sendEmptySegment }) hout
      (List.mem_append_right _ List.mem_cons_self) rfl
  | resets _ _ hr =>
    rw [hr] at hrst
    cases hrst

theorem waiting_step (h : c.Waiting) (hg : c.Unacceptable op) :
    (c.Ignores op ↔ c.Contained op) ∧ (c.Contained op → (c.step op).Waiting) := by
  have hone := h.synOut.nextSeqno
  have hidle (heq : c.step op = c) (hc : c.Contained op) :
      (c.Ignores op ↔ c.Contained op) ∧ (c.Contained op → (c.step op).Waiting) := by
    refine ⟨iff_of_true ?_ hc, fun _ => by rw [heq]; exact h⟩
    rw [Ignores, heq]
    exact onlySyn_of_idle hone rfl rfl
  cases op with
  | connect => exact absurd hg id
  | read n =>
    exact ⟨iff_of_true (onlySyn_of_idle hone rfl rfl) ⟨hone, trivial⟩,
      fun _ => ⟨h.synOut, h.out, h.synSended, h.silent, alive_step h.alive (.read n)⟩⟩
  | write data =>
    have ht : (c.sender.write data).SynOut := ⟨h.synOut.syn, hone, h.synOut.receiveAck,
      h.synOut.checkpoint, h.synOut.fin, h.synOut.queue⟩
    obtain ⟨h1, h2⟩ := waiting_call (.write data) h ht h.out rfl
    exact ⟨h1.trans (by simp [Contained, hone]), fun hc => h2 hc.2⟩
  | endInputStream =>
    have ht : c.sender.endInput.SynOut := ⟨h.synOut.syn, hone, h.synOut.receiveAck,
      h.synOut.checkpoint, h.synOut.fin, h.synOut.queue⟩
    obtain ⟨h1, h2⟩ := waiting_call .endInputStream h ht h.out rfl
    exact ⟨h1.trans (by simp [Contained, hone]), fun hc => h2 hc.2⟩
  | tick ms =>
    cases ha : c.active with
    | false => exact hidle (if_pos ha) ⟨hone, fun h' => by rw [ha] at h'; cases h'⟩
    | true =>
      obtain ⟨h1, h2⟩ := waiting_tick h ha ms
      exact ⟨h1.trans (by simp [Contained, hone, ha]), fun hc => h2 (hc.2 ha)⟩
  | segmentReceived seg =>
    cases ha : c.active with
    | false => exact hidle (if_pos ha) ⟨hone, fun h' => by rw [ha] at h'; cases h'⟩
    | true => exact waiting_segment h ha hg

theorem opening_run {cfg : TCPConfig} {random : UInt32} (h : mk? cfg random = some c)
    (ops : List Op) : (run step c ops).sender.Opening := by
  refine run_inv (I := fun c => c.sender.Opening) ?_ (fun c op hc => step_sender_ack c op
    (fun _ _ ht hs => hs.same ht) (fun _ ackno w hs => hs.ackReceived ackno w)
    (fun _ hs => hs.fillWindow) (fun _ data hs => hs.write data) (fun _ hs => hs.endInput) hc) ops
  simp only [mk?, Option.map_eq_some_iff] at h
  obtain ⟨r, -, rfl⟩ := h
  exact opening_new ..

theorem acknoOut_of_listen {r : TCPReceiver} (h : r.stateSummary = .listen) :
    r.acknoOut = none := by
  cases hack : r.acknoOut with
  | none => rfl
  | some ackno =>
    rw [TCPReceiver.stateSummary, hack] at h
    simp only [Option.isNone_some, Bool.false_eq_true, if_false] at h
    split at h
    · cases h
    · split at h <;> cases h

/-- A connection that is in SYN_SENT and has sent one sequence number waits. -/
theorem waiting_of_synSent (hl : c.Alive) (ho : c.sender.Opening)
    (hs : c.state = .ofState .synSent) :
    0 < c.sender.nextSeqno ∧ (c.sender.nextSeqno = 1 → c.Waiting) := by
  have hlive := hl (congrArg TCPState.active hs)
  obtain ⟨-, hne, hb⟩ := TCPSender.synSent_iff.mp (congrArg TCPState.sender hs)
  refine ⟨Nat.pos_of_ne_zero hne, fun hone => ?_⟩
  have hsyn := ho.synOut hone (by omega)
  exact ⟨hsyn, hlive.sender.out, hlive.synSended.trans hsyn.syn,
    acknoOut_of_listen (congrArg TCPState.receiver hs), hl⟩

end

/-- **Nothing but SYN before SYN is acknowledged.** From SYN_SENT, unacceptable acks, writes and
ticks are ignored exactly when no call fills a window that has room behind SYN with something to
send. -/
theorem along_ignores_iff (cfg : TCPConfig) (random : UInt32) (c0 : TCPConnection)
    (pre ops : List Op) (h : mk? cfg random = some c0)
    (hs : (run step c0 pre).state = .ofState .synSent)
    (hg : Along step Unacceptable (run step c0 pre) ops) :
    Along step Ignores (run step c0 pre) ops ↔ Along step Contained (run step c0 pre) ops := by
  refine along_iff_along
    (I := fun c => 0 < c.sender.nextSeqno ∧ (c.sender.nextSeqno = 1 → c.Waiting)) hg
    (waiting_of_synSent (alive_run h pre) (opening_run h pre) hs) ?_ ?_
  · rintro c op ⟨-, hw⟩ hg hc
    have hw' := (waiting_step (hw hc.1) hg).2 hc
    exact ⟨by rw [hw'.synOut.nextSeqno]; exact Nat.one_pos, fun _ => hw'⟩
  · rintro c op ⟨hpos, hw⟩ hg
    by_cases hone : c.sender.nextSeqno = 1
    · exact (waiting_step (hw hone) hg).1
    · have hle := step_nextSeqno_le c op
      exact iff_of_false (fun hi => by have := hi.1; omega) fun hc => hone hc.1

/-- An ack of the initial sequence number with the window `w`. -/
def oldAck (w : UInt16) : TCPSegment :=
  { header := { ack := true, ackno := ⟨7⟩, win := w } }

/-- A window of one, as it happens, keeps the bytes back. -/
theorem ignores_window_one : ∃ c0, mk? { fixedIsn := some ⟨7⟩ } 0 = some c0 ∧
    Along step Ignores (run step c0 [.connect, .write [97, 98]])
      [.segmentReceived (oldAck 1), .tick 1000, .write [99]] :=
  ⟨_, rfl, (along_ignores_iff { fixedIsn := some ⟨7⟩ } 0 _ [.connect, .write [97, 98]]
    [.segmentReceived (oldAck 1), .tick 1000, .write [99]] rfl (by decide) (by decide)).mpr
    (by decide)⟩

/-- A window of ten releases the bytes behind a SYN that is not acknowledged. -/
theorem data_before_handshake : ∃ c0, mk? { fixedIsn := some ⟨7⟩ } 0 = some c0 ∧
    (run step c0 [.connect, .write [97, 98]]).state = .ofState .synSent ∧
    Along step Unacceptable (run step c0 [.connect, .write [97, 98]])
      [.segmentReceived (oldAck 10)] ∧
    ¬ Along step Ignores (run step c0 [.connect, .write [97, 98]])
      [.segmentReceived (oldAck 10)] ∧
    (run step c0 [.connect, .write [97, 98], .segmentReceived (oldAck 10)]).sender.nextSeqno = 3 :=
  ⟨_, rfl, by decide, by decide, by decide, by decide⟩

end TCPConnection

end Sponge
