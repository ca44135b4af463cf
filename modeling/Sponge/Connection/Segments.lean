import Sponge.Connection.Step

/-!
# What holds of every segment

`Made Q` says that `Q` holds of each segment the sender makes up. It then holds of
all that is queued, sent again or handed out (`Every`), and of all that the
connection enqueues if a stamp keeps it (`Emits`).
-/

namespace Sponge

namespace TCPSender

structure Made (Q : TCPSegment → Prop) : Prop where
  syn : ∀ s : TCPSender, Q s.synSegment
  turn : ∀ {win : Nat} {s : TCPSender} {seg : TCPSegment} {t : TCPSender}, Turn win s seg t → Q seg
  empty : ∀ s : TCPSender, Q { header := { seqno := wrap s.nextSeqno s.isn } }

structure Every (Q : TCPSegment → Prop) (s : TCPSender) : Prop where
  inFlight : ∀ seg ∈ s.segmentsInFlight, Q seg
  out : ∀ seg ∈ s.segmentsOut, Q seg

section
variable {Q : TCPSegment → Prop} {s t : TCPSender} {seg : TCPSegment}

theorem every_new (capacity : Nat) (retxTimeout : UInt16) (fixedIsn : Option WrappingInt32)
    (random : UInt32) : Every Q (new capacity retxTimeout fixedIsn random) :=
  ⟨List.forall_mem_nil _, List.forall_mem_nil _⟩

theorem forall_mem_snoc {segs : List TCPSegment} (h : ∀ o ∈ segs, Q o) (hseg : Q seg) :
    ∀ o ∈ segs ++ [seg], Q o := by
  intro o ho
  rcases List.mem_append.mp ho with ho | ho
  · exact h o ho
  · rw [List.mem_singleton.mp ho]
    exact hseg

theorem Every.sent (h : s.Every Q) (hs : Sent s seg t) (hseg : Q seg) : t.Every Q := by
  constructor
  · rw [hs.segmentsInFlight]
    exact forall_mem_snoc h.inFlight hseg
  · rw [hs.segmentsOut]
    exact forall_mem_snoc h.out hseg

theorem Every.fillWindow (hQ : Made Q) (h : s.Every Q) : s.fillWindow.Every Q := by
  apply fillWindow_inv
  · exact fun hs => h.sent (fillWindow_syn hs).1 (hQ.syn s)
  · exact fun _ => ⟨h.inFlight, h.out⟩
  · exact fun s' seg t _ ht hs' => hs'.sent ht.sent (hQ.turn ht)

theorem Every.sendEmptySegment (hQ : Made Q) (h : s.Every Q) : s.sendEmptySegment.Every Q :=
  ⟨h.inFlight, forall_mem_snoc h.out (hQ.empty s)⟩

theorem Every.tick (h : s.Every Q) (ms : Nat) : (s.tick ms).Every Q := by
  have ht := tick_ticked s ms
  constructor
  · rw [ht.same.segmentsInFlight]
    exact h.inFlight
  · rcases ht.out with heq | ⟨seg, rest, hq, heq⟩
    · rw [heq]
      exact h.out
    · rw [heq]
      refine forall_mem_snoc h.out (h.inFlight seg ?_)
      rw [hq]
      exact List.mem_cons_self

theorem Every.ackReceived (hQ : Made Q) (h : s.Every Q) (ackno : WrappingInt32) (w : UInt16) :
    (s.ackReceived ackno w).Every Q := by
  rcases ackReceived_cases s ackno w with ⟨-, -, heq⟩ | ⟨-, -, -, heq⟩ |
    ⟨-, -, e, popped, -, ha, heq⟩
  · rw [heq]
    exact h
  · rw [heq]
    exact ⟨h.inFlight, h.out⟩
  · have he : e.Every Q := by
      constructor
      · intro o ho
        apply h.inFlight
        rw [show s.segmentsInFlight = popped ++ e.segmentsInFlight from ha.queue]
        exact List.mem_append_right _ ho
      · rw [ha.eq]
        exact h.out
    obtain ⟨counting, clock, hr⟩ := restartTimer_eq e.fillWindow
    rw [heq, hr]
    exact ⟨(he.fillWindow hQ).inFlight, (he.fillWindow hQ).out⟩

end

end TCPSender

namespace TCPConnection

open TCPSender (Made)

/-- `Q` holds of what the sender has, and of what has been enqueued. -/
structure Emits (Q : TCPSegment → Prop) (c : TCPConnection) : Prop where
  sender : c.sender.Every Q
  out : ∀ seg ∈ c.segmentsOut, Q seg

section
variable {Q : TCPSegment → Prop} {c c' : TCPConnection}

theorem emits_mk {cfg : TCPConfig} {random : UInt32} (h : mk? cfg random = some c) : c.Emits Q := by
  simp only [mk?, Option.map_eq_some_iff] at h
  obtain ⟨r, -, rfl⟩ := h
  exact ⟨TCPSender.every_new .., List.forall_mem_nil _⟩

theorem Emits.settle (hQ : Made Q) (hstamp : ∀ (c : TCPConnection) seg, Q seg → Q (c.stamp seg))
    (h : c.Emits Q) (hs : Settle c c') : c'.Emits Q := by
  cases hs with
  | fill => exact ⟨h.sender.fillWindow hQ, h.out⟩
  | sendEmpty => exact ⟨h.sender.sendEmptySegment hQ, h.out⟩
  | flags => exact ⟨h.sender, h.out⟩
  | abort => exact ⟨⟨h.sender.inFlight, h.sender.out⟩, h.out⟩
  | flush =>
    refine ⟨⟨h.sender.inFlight, List.forall_mem_nil _⟩, fun seg hm => ?_⟩
    rcases List.mem_append.mp hm with hm | hm
    · exact h.out seg hm
    · obtain ⟨o, ho, rfl⟩ := List.mem_map.mp hm
      exact hstamp c o (h.sender.out o ho)

theorem front_every (hQ : Made Q) (h : c.sender.Every Q) (op : Op) :
    (c.front op).sender.Every Q := by
  cases op with
  | connect | read _ => exact h
  | write _ | endInputStream => exact ⟨h.inFlight, h.out⟩
  | tick ms =>
    rw [front]
    split
    · exact h
    · exact h.tick ms
  | segmentReceived seg =>
    rw [front]
    split
    · unfold hear acceptAck
      split
      · exact h.ackReceived hQ _ _
      · exact h
    · exact h

theorem front_segmentsOut (c : TCPConnection) (op : Op) :
    (c.front op).segmentsOut = c.segmentsOut := by
  cases op with
  | connect | write _ | endInputStream | read _ => rfl
  | tick ms =>
    rw [front]
    split <;> rfl
  | segmentReceived seg =>
    rw [front]
    split
    · exact acceptAck_segmentsOut c seg
    · rfl

theorem Emits.front (hQ : Made Q) (h : c.Emits Q) (op : Op) : (c.front op).Emits Q := by
  refine ⟨front_every hQ h.sender op, ?_⟩
  rw [front_segmentsOut]
  exact h.out

/-- Every operation keeps it. -/
theorem Emits.step (hQ : Made Q) (hstamp : ∀ (c : TCPConnection) seg, Q seg → Q (c.stamp seg))
    (h : c.Emits Q) (op : Op) : (c.step op).Emits Q :=
  (step_settles c op).inv (fun _ _ hs he => he.settle hQ hstamp hs) (h.front hQ op)

end

end TCPConnection

end Sponge
