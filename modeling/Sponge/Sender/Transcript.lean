import Sponge.Sender.Stream

/-!
# The transcript of a sender

A `Transcript` is a sender with the bytes its stream has accepted and the
segments it has sent for the first time, in order. What `tick` pushes is a
retransmission and what `sendEmptySegment` pushes occupies no sequence number;
all else that is pushed is new.

In every run without a late write the transcript is `Faithful`, and `tick`
resends the oldest segment that is not fully acknowledged (`ResendsOldest`).
-/

namespace Sponge

open Lib

namespace TCPSender

/-- What an operation adds to the accepted bytes. -/
def Op.accepts (s : TCPSender) : Op → List UInt8
  | .write data => data.take (s.stream.write data).2
  | .fillWindow | .endInput | .ack _ _ | .tick _ | .sendEmpty => []

/-- The operations that push segments for the first time. -/
def Op.sendsNew : Op → Bool
  | .fillWindow | .ack _ _ => true
  | .write _ | .endInput | .tick _ | .sendEmpty => false

/-- The segments an operation pushes. -/
def pushed (s : TCPSender) (op : Op) : List TCPSegment :=
  (s.step op).segmentsOut.drop s.segmentsOut.length

end TCPSender

open TCPSender

structure Transcript where
  sender : TCPSender
  accepted : List UInt8 := []
  firstSent : List TCPSegment := []
  deriving DecidableEq, Repr

namespace Transcript

def step (o : Transcript) (op : Op) : Transcript where
  sender := o.sender.step op
  accepted := o.accepted ++ op.accepts o.sender
  firstSent := o.firstSent ++ (if op.sendsNew then o.sender.pushed op else [])

/-- The application does not write after `endInput`. -/
def NoLateWrite (o : Transcript) : Op → Prop
  | .write _ => o.sender.stream.inputEnded = false
  | _ => True

instance (o : Transcript) : ∀ op, Decidable (o.NoLateWrite op)
  | .write _ => inferInstanceAs (Decidable (_ = false))
  | .fillWindow | .ack _ _ | .endInput | .tick _ | .sendEmpty => isTrue trivial

/-- Fewer than 2^31 sequence numbers are outstanding, and fewer than 2^63 bytes written. -/
def Bounded (o : Transcript) : Prop :=
  o.sender.bytesInFlight < 2 ^ 31 ∧ o.accepted.length < 2 ^ 63

instance (o : Transcript) : Decidable o.Bounded := inferInstanceAs (Decidable (_ ∧ _))

/-- The first segment is SYN alone; the payloads of the others follow each other in the written
bytes from the first one on; FIN is last and behind all of them. -/
structure Faithful (o : Transcript) : Prop where
  syn : ∀ seg rest, o.firstSent = seg :: rest →
    seg = { header := { seqno := wrap 0 o.sender.isn, syn := true } }
  seqno : ∀ pre seg post, o.firstSent = pre ++ seg :: post →
    seg.header.seqno = wrap (seqLength pre) o.sender.isn
  data : ∀ pre seg post, o.firstSent = pre ++ seg :: post → pre ≠ [] →
    seg.header.syn = false ∧ seg.payload.length ≤ TCPConfig.MAX_PAYLOAD_SIZE ∧
      (seg.header.fin = false → seg.payload ≠ []) ∧
      1 ≤ seqLength pre ∧ SliceAt o.accepted (seqLength pre - 1) seg.payload
  fin : ∀ pre seg post, o.firstSent = pre ++ seg :: post → seg.header.fin = true →
    o.sender.stream.inputEnded = true ∧ post = [] ∧
      seqLength pre + seg.payload.length = o.accepted.length + 1

/-- What `tick` pushes is the first segment that ends behind the ackno. -/
def ResendsOldest (o : Transcript) : Op → Prop
  | .tick ms => ∀ seg ∈ o.sender.pushed (.tick ms), ∃ pre post,
      o.firstSent = pre ++ seg :: post ∧ seqLength pre ≤ o.sender.receiveAck ∧
        o.sender.receiveAck < seqLength (pre ++ [seg])
  | _ => True

/-- What holds of every transcript. -/
structure Logged (o : Transcript) : Prop where
  accounted : o.sender.Accounted
  reading : Reading o.accepted o.sender
  length : seqLength o.firstSent = o.sender.nextSeqno
  suffix : ∃ old, o.firstSent = old ++ o.sender.segmentsInFlight
  carries : ∀ n seg, (n, seg) ∈ numbered 0 o.firstSent →
    Carries o.accepted o.sender.fin o.sender.isn n seg

section
variable {o : Transcript}

theorem logged_new (capacity : Nat) (retxTimeout : UInt16) (fixedIsn : Option WrappingInt32)
    (random : UInt32) : Logged { sender := new capacity retxTimeout fixedIsn random } :=
  ⟨accounted_new capacity retxTimeout fixedIsn random,
    reading_new capacity retxTimeout fixedIsn random, rfl, ⟨[], rfl⟩, by simp [numbered]⟩

theorem Logged.same (h : o.Logged) {t : TCPSender} (ht : Same o.sender t) :
    Logged { o with sender := t } where
  accounted := h.accounted.same ht
  reading := h.reading.same ht
  length := by rw [ht.nextSeqno]; exact h.length
  suffix := by rw [ht.segmentsInFlight]; exact h.suffix
  carries := by rw [ht.fin, ht.isn]; exact h.carries

/-- The new segments of a `fillWindow` go to the end of the log. -/
theorem Logged.sends (h : o.Logged) {e t : TCPSender} {popped new : List TCPSegment}
    (hs : Sends o.accepted e new t) (ht : t.Accounted)
    (hq : o.sender.segmentsInFlight = popped ++ e.segmentsInFlight)
    (hn : e.nextSeqno = o.sender.nextSeqno) (hi : e.isn = o.sender.isn)
    (he : e.fin = o.sender.fin) :
    Logged { o with sender := t, firstSent := o.firstSent ++ new } where
  accounted := ht
  reading := hs.reading
  length := by rw [seqLength_append, h.length, hs.nextSeqno, hn]
  suffix := by
    obtain ⟨old, hold⟩ := h.suffix
    exact ⟨old ++ popped, by rw [hold, hq, hs.segmentsInFlight]; simp⟩
  carries n seg hm := by
    rw [numbered_append, List.mem_append] at hm
    simp only
    rw [hs.isn, hi]
    rcases hm with hm | hm
    · exact (h.carries n seg hm).ends fun hf => hs.fin (he.trans hf)
    · rw [Nat.zero_add, h.length, ← hn] at hm
      have hc := hs.carries n seg hm
      rwa [hi] at hc

theorem Logged.fillWindow (h : o.Logged) : (o.step .fillWindow).Logged := by
  obtain ⟨new, hs⟩ := fillWindow_sends h.reading
  have hpush : o.sender.pushed .fillWindow = new := by
    rw [pushed, TCPSender.step, hs.segmentsOut, List.drop_left]
  have hq : o.sender.segmentsInFlight = [] ++ o.sender.segmentsInFlight := rfl
  have hl := h.sends hs h.accounted.fillWindow hq rfl rfl rfl
  rw [step, hpush, Op.accepts, List.append_nil]
  exact hl

theorem Logged.ack (h : o.Logged) (hb : o.Bounded) (ackno : WrappingInt32) (w : UInt16) :
    (o.step (.ack ackno w)).Logged := by
  have hnext := h.reading.nextSeqno_le
  obtain ⟨hb1, hb2⟩ := hb
  have hacc := h.accounted.ackReceived hb1 (by omega) ackno w
  rcases ackReceived_cases o.sender ackno w with ⟨-, -, heq⟩ | ⟨-, -, -, heq⟩ |
    ⟨hle, hgt, e, popped, -, ha, heq⟩
  · have hpush : o.sender.pushed (.ack ackno w) = [] := by
      rw [pushed, TCPSender.step, heq, List.drop_length]
    rw [step, hpush, TCPSender.step, heq, Op.accepts, List.append_nil, ite_self, List.append_nil]
    exact h
  · have hpush : o.sender.pushed (.ack ackno w) = [] := by
      rw [pushed, TCPSender.step, heq, List.drop_length]
    rw [step, hpush, TCPSender.step, heq, Op.accepts, List.append_nil, ite_self, List.append_nil]
    exact h.same (same_setWindow o.sender w)
  · have he : e.segmentsOut = o.sender.segmentsOut ∧ e.nextSeqno = o.sender.nextSeqno ∧
        e.isn = o.sender.isn ∧ e.fin = o.sender.fin := by
      rw [ha.eq]
      exact ⟨rfl, rfl, rfl, rfl⟩
    obtain ⟨new, hs⟩ := fillWindow_sends (h.reading.acked ha)
    obtain ⟨counting, clock, hr⟩ := restartTimer_eq e.fillWindow
    have hs' : Sends o.accepted e new e.fillWindow.restartTimer := by
      have hsame := same_restartTimer e.fillWindow
      rw [hr] at hsame ⊢
      exact ⟨hs.reading.same hsame, hs.carries, hs.nextSeqno, hs.segmentsInFlight, hs.segmentsOut,
        hs.isn, hs.fin⟩
    have hpush : o.sender.pushed (.ack ackno w) = new := by
      rw [pushed, TCPSender.step, heq, hs'.segmentsOut, he.1, List.drop_left]
    rw [heq] at hacc
    have hl := h.sends hs' hacc ha.queue he.2.1 he.2.2.1 he.2.2.2
    rw [step, hpush, TCPSender.step, heq, Op.accepts, List.append_nil]
    exact hl

theorem Logged.step {op : Op} (h : o.Logged) (hb : o.Bounded) (hw : o.NoLateWrite op) :
    (o.step op).Logged := by
  have hnext := h.reading.nextSeqno_le
  have hacc : (o.sender.step op).Accounted :=
    h.accounted.step hb.1 (by have := hb.2; omega) op
  have hr := h.reading
  cases op with
  | fillWindow => exact h.fillWindow
  | ack ackno w => exact h.ack hb ackno w
  | write data =>
    have hopen : o.sender.stream.inputEnd = false := hw
    have hf : o.sender.fin = false := by
      by_contra hf
      rw [hr.fin (by simpa using hf)] at hopen
      cases hopen
    have hwr := hr.write data
    rw [hf, if_neg Bool.false_ne_true] at hwr
    refine ⟨hacc, hwr, ?_, ?_, ?_⟩
    · simpa [Transcript.step, Op.sendsNew, TCPSender.step, TCPSender.write] using h.length
    · simpa [Transcript.step, Op.sendsNew, TCPSender.step, TCPSender.write] using h.suffix
    · intro n seg hm
      simp only [Transcript.step, Op.sendsNew, Bool.false_eq_true, if_false, List.append_nil] at hm
      exact (h.carries n seg hm).grow fun he => by rw [hf] at he; cases he
  | endInput =>
    refine ⟨hacc, ⟨?_, hr.unstarted, fun _ => rfl⟩, ?_, ?_, ?_⟩
    · rw [Transcript.step, Op.accepts, List.append_nil]
      exact hr.buffer
    · simpa [Transcript.step, Op.sendsNew, TCPSender.step, TCPSender.endInput] using h.length
    · simpa [Transcript.step, Op.sendsNew, TCPSender.step, TCPSender.endInput] using h.suffix
    · intro n seg hm
      simp only [Transcript.step, Op.sendsNew, Bool.false_eq_true, if_false, List.append_nil] at hm
      rw [Transcript.step, Op.accepts, List.append_nil]
      exact h.carries n seg hm
  | tick ms =>
    simp only [Transcript.step, TCPSender.step, Op.accepts, Op.sendsNew, List.append_nil,
      Bool.false_eq_true, if_false]
    exact h.same (tick_ticked o.sender ms).same
  | sendEmpty =>
    simp only [Transcript.step, TCPSender.step, Op.accepts, Op.sendsNew, List.append_nil,
      Bool.false_eq_true, if_false]
    exact h.same (same_sendEmpty o.sender)

theorem Logged.carries_at (h : o.Logged) {pre post : List TCPSegment} {seg : TCPSegment}
    (hl : o.firstSent = pre ++ seg :: post) :
    Carries o.accepted o.sender.fin o.sender.isn (seqLength pre) seg :=
  h.carries _ seg (mem_numbered.mpr ⟨pre, post, hl, (Nat.zero_add _).symm⟩)

theorem seqLength_pos {pre post : List TCPSegment} (h : o.Logged)
    (hl : o.firstSent = pre ++ post) (hne : pre ≠ []) : 0 < seqLength pre := by
  cases pre with
  | nil => exact absurd rfl hne
  | cons seg pre =>
    have hl' : o.firstSent = [] ++ seg :: (pre ++ post) := hl
    have hc := h.carries_at hl'
    have := hc.nonempty
    rw [seqLength_cons]
    omega

theorem Logged.faithful (h : o.Logged) : o.Faithful where
  syn seg rest hl := by
    have hl' : o.firstSent = [] ++ seg :: rest := hl
    exact (h.carries_at hl').syn rfl
  seqno pre seg post hl := (h.carries_at hl).seqno
  data pre seg post hl hne := by
    have hc := h.carries_at hl
    have hpos := seqLength_pos h hl hne
    have hp : seqLength pre ≠ 0 := by omega
    refine ⟨by rw [hc.header hp], hc.size, ?_, hpos, hc.slice hp⟩
    intro hf hnil
    have hlen := hc.nonempty
    rw [TCPSegment.lengthInSequenceSpace, hc.header hp, hf, hnil] at hlen
    simp at hlen
  fin pre seg post hl hf := by
    have hc := h.carries_at hl
    obtain ⟨hend, hall⟩ := hc.fin hf
    refine ⟨h.reading.fin hend, ?_, hall⟩
    by_contra hne
    obtain ⟨seg', post', rfl⟩ := List.exists_cons_of_ne_nil hne
    -- a segment behind FIN would lie beyond the end of the stream
    have hl' : o.firstSent = (pre ++ [seg]) ++ seg' :: post' := by simpa using hl
    have hc' := h.carries_at hl'
    have hstop := hc'.stop_le
    have hlen : seqLength (pre ++ [seg]) = seqLength pre + seg.lengthInSequenceSpace := by
      simp
    have hseg : seg.payload.length + 1 ≤ seg.lengthInSequenceSpace := by
      rw [TCPSegment.lengthInSequenceSpace, hf, if_pos rfl]
      omega
    have hpos := hc'.nonempty
    cases hf' : seg'.header.fin with
    | true =>
      have := (hc'.fin hf').2
      omega
    | false =>
      rw [hf', if_neg Bool.false_ne_true] at hstop
      omega

theorem Logged.resendsOldest (h : o.Logged) (op : Op) : o.ResendsOldest op := by
  cases op with
  | tick ms =>
    intro seg hm
    obtain ⟨old, hold⟩ := h.suffix
    rcases (tick_ticked o.sender ms).out with hout | ⟨first, rest, hq, hout⟩
    · rw [pushed, TCPSender.step, hout, List.drop_length] at hm
      cases hm
    · rw [pushed, TCPSender.step, hout, List.drop_left, List.mem_singleton] at hm
      subst hm
      have hlen := h.length
      have hfirst : seqLength old = o.sender.firstSeqno := by
        have hrun := h.accounted.run.length
        rw [hold, seqLength_append] at hlen
        omega
      have hacc := h.accounted
      refine ⟨old, rest, by rw [hold, hq], ?_, ?_⟩
      · rw [hfirst]
        exact hacc.first_le
      · rw [seqLength_append, seqLength_cons, seqLength_nil, hfirst]
        exact hacc.ack_lt _ rest hq
  | fillWindow | write _ | endInput | ack _ _ | sendEmpty => trivial

end

/-- **The sender is faithful to its stream** in every run within the bounds and without a late
write, and `tick` resends only the oldest segment that is not fully acknowledged. -/
theorem always_faithful (capacity : Nat) (retxTimeout : UInt16) (fixedIsn : Option WrappingInt32)
    (random : UInt32) (ops : List Op)
    (hb : Always step Bounded { sender := new capacity retxTimeout fixedIsn random } ops)
    (hw : Along step NoLateWrite { sender := new capacity retxTimeout fixedIsn random } ops) :
    Always step Faithful { sender := new capacity retxTimeout fixedIsn random } ops ∧
      Along step ResendsOldest { sender := new capacity retxTimeout fixedIsn random } ops := by
  have hg := hb.along.and hw
  have h0 := logged_new capacity retxTimeout fixedIsn random
  have hall := hg.always h0 fun o op h hg => h.step hg.1.1 hg.2
  exact ⟨hall.mono fun o h => h.faithful, hall.along.mono fun o op h => h.1.resendsOldest op⟩

/-- Four bytes through a window of three, with a retransmission, and the end. -/
def fourBytesOps : List Op :=
  [.fillWindow, .ack ⟨8⟩ 3, .write [97, 98, 99, 100], .fillWindow, .tick 1000, .ack ⟨11⟩ 3,
   .endInput, .fillWindow]

theorem faithful_fourBytes :
    Always step Bounded { sender := new 8 1000 (some ⟨7⟩) 0 } fourBytesOps ∧
      Along step NoLateWrite { sender := new 8 1000 (some ⟨7⟩) 0 } fourBytesOps ∧
      Always step Faithful { sender := new 8 1000 (some ⟨7⟩) 0 } fourBytesOps :=
  ⟨by decide, by decide,
    (always_faithful 8 1000 (some ⟨7⟩) 0 fourBytesOps (by decide) (by decide)).1⟩

end Transcript

end Sponge
