import Sponge.Connection.Answer
import Sponge.Connection.Segments

/-!
# The advertised window

The receiver's window is as wide as its capacity and the field of the header
has 16 bits. What is advertised is the window cut off at the width of the field
in every run exactly when the capacity itself fits into the field: `stamp` takes
the window modulo 2^16.

The sender's own segments carry no ack (`Bare`), so an ack is always one that
`stamp` has put on, together with the window.
-/

namespace Sponge

open Lib

namespace TCPSender

/-- No segment of the sender carries an ack. -/
abbrev Bare (s : TCPSender) : Prop := s.Every fun seg => seg.header.ack = false

theorem made_bare : Made fun seg => seg.header.ack = false where
  syn _ := rfl
  turn ht := by rw [ht.header]
  empty _ := rfl

end TCPSender

namespace TCPConnection

open TCPSender (made_bare)

/-- Every ack the call adds to the queue shows the receiver's window, cut off at the width of the
field. -/
def ShowsWindow (c : TCPConnection) (op : Op) : Prop :=
  ∀ out ∈ added c (c.step op), out.header.ack = true →
    out.header.win.toNat = min (c.step op).receiver.windowSize 65535

instance (c : TCPConnection) (op : Op) : Decidable (c.ShowsWindow op) := List.decidableBAll _ _

section
variable {c : TCPConnection} {cfg : TCPConfig} {random : UInt32}

/-- An ack is what the stamp says about the receiver, and nothing else has one. -/
theorem stamp_ack_iff {seg : TCPSegment} (hb : seg.header.ack = false) :
    (c.stamp seg).header.ack = true ↔ c.receiver.acknoOut.isSome := by
  unfold stamp
  cases c.receiver.acknoOut with
  | none => cases c.needSendRst <;> simp [hb]
  | some ackno => cases c.needSendRst <;> simp

/-- Every segment queued behind `out` has an ack if the receiver `r` has one to send, and then
`r`'s. -/
structure Stamped (out : List TCPSegment) (r : TCPReceiver) (c : TCPConnection) : Prop where
  bare : c.sender.Bare
  receiver : c.receiver = r ∨ c.receiver = failed r
  stamped : ∃ new, c.segmentsOut = out ++ new ∧
    ∀ seg ∈ new, (seg.header.ack = true ↔ r.acknoOut.isSome) ∧
      (seg.header.ack = true → Acks r seg)

/-- The stamp does not see the error flag. -/
theorem Stamped.stamp {out : List TCPSegment} {r : TCPReceiver} (h : Stamped out r c)
    {seg : TCPSegment} (hb : seg.header.ack = false) :
    ((c.stamp seg).header.ack = true ↔ r.acknoOut.isSome) ∧
      ((c.stamp seg).header.ack = true → Acks r (c.stamp seg)) := by
  have hiff := stamp_ack_iff (c := c) hb
  have hacks : c.receiver.acknoOut.isSome → Acks c.receiver (c.stamp seg) :=
    fun ha => stamp_acks ha seg
  rcases h.receiver with heq | heq
  · rw [heq] at hiff hacks
    exact ⟨hiff, fun ha => hacks (hiff.mp ha)⟩
  · rw [heq] at hiff hacks
    exact ⟨hiff, fun ha => hacks (hiff.mp ha)⟩

theorem Stamped.settle {out : List TCPSegment} {r : TCPReceiver} {c c' : TCPConnection}
    (h : Stamped out r c) (hs : Settle c c') : Stamped out r c' := by
  have hr := hs.receiver h.receiver
  cases hs with
  | fill => exact ⟨h.bare.fillWindow made_bare, hr, h.stamped⟩
  | sendEmpty => exact ⟨h.bare.sendEmptySegment made_bare, hr, h.stamped⟩
  | flags => exact ⟨h.bare, hr, h.stamped⟩
  | abort => exact ⟨⟨h.bare.inFlight, h.bare.out⟩, hr, h.stamped⟩
  | flush =>
    obtain ⟨new, hout, hnew⟩ := h.stamped
    refine ⟨⟨h.bare.inFlight, List.forall_mem_nil _⟩, hr,
      new ++ c.sender.segmentsOut.map c.stamp, by rw [hout, List.append_assoc], fun seg hm => ?_⟩
    rcases List.mem_append.mp hm with hm | hm
    · exact hnew seg hm
    · obtain ⟨s, hs, rfl⟩ := List.mem_map.mp hm
      exact h.stamp (h.bare.out s hs)

/-- Every call stamps what it emits with the receiver it leaves. -/
theorem step_stamped (h : c.sender.Bare) (op : Op) :
    Stamped c.segmentsOut (c.front op).receiver (c.step op) := by
  refine (step_settles c op).inv (fun _ _ hs hb => hb.settle hs) ?_
  exact ⟨front_every made_bare h op, .inl rfl, [], by rw [front_segmentsOut, List.append_nil],
    List.forall_mem_nil _⟩

theorem added_stamped (h : c.sender.Bare) (op : Op) : ∀ out ∈ added c (c.step op),
    (out.header.ack = true ↔ (c.step op).receiver.acknoOut.isSome) ∧
      (out.header.ack = true → Acks (c.step op).receiver out) := by
  obtain ⟨-, hr, new, hout, hnew⟩ := step_stamped h op
  rw [added_eq hout]
  rcases hr with hr | hr
  · rw [hr]
    exact hnew
  · rw [hr]
    exact hnew

theorem step_bare (h : c.sender.Bare) (op : Op) : (c.step op).sender.Bare :=
  (step_stamped h op).bare

theorem step_capacity (c : TCPConnection) (op : Op) :
    (c.step op).receiver.capacity = c.receiver.capacity := by
  obtain ⟨r, hr, h⟩ := step_receiver c op
  have hcap : r.capacity = c.receiver.capacity := by
    rcases h with ⟨rfl, -⟩ | ⟨n, -, rfl⟩ | ⟨seg, -, -, rfl⟩
    · rfl
    · rfl
    · exact c.receiver.segmentReceived_capacity seg
  rcases hr with hr | hr
  · rw [hr, hcap]
  · rw [hr, failed, hcap]

/-- SYN with data, as it comes to a connection that listens. -/
def request (data : List UInt8) : TCPSegment := { header := { syn := true }, payload := data }

/-- SYN opens the window, and a byte with it takes one from the window. -/
theorem request_window {r : TCPReceiver} (h : TCPReceiver.mk? cfg.recvCapacity = some r)
    (hc : 1 < cfg.recvCapacity) {data : List UInt8} (hd : data.length ≤ 1) :
    (r.segmentReceived (request data)).acknoOut.isSome ∧
      (r.segmentReceived (request data)).windowSize = cfg.recvCapacity - data.length := by
  simp only [TCPReceiver.mk?, Option.map_eq_some_iff] at h
  obtain ⟨re, hre, rfl⟩ := h
  obtain ⟨-, -, -, rfl⟩ := StreamReassembler.inv_mk hre
  have hpush := StreamReassembler.pushSubstring_first hc hd
  have hne : ((⟨0⟩ : WrappingInt32).add 1).add (UInt32.ofNat data.length) ≠ ⟨0⟩ := by
    rcases Nat.le_one_iff_eq_zero_or_eq_one.mp hd with hlen | hlen
    · rw [hlen]
      decide
    · rw [hlen]
      decide
  simp [TCPReceiver.segmentReceived, TCPReceiver.acceptSyn, TCPReceiver.assemble, request,
    TCPReceiver.acceptFin, TCPReceiver.finish, TCPReceiver.segmentIndex, TCPReceiver.acknoOut,
    TCPReceiver.windowSize, TCPReceiver.streamOut, ByteStream.bufferSize, ByteStream.bytesWritten,
    hpush, hne]

/-- A connection that listens answers SYN with an ack. -/
theorem request_answered (h : mk? cfg random = some c) (hc : 1 < cfg.recvCapacity)
    {data : List UInt8} (hd : data.length ≤ 1) :
    (c.step (.segmentReceived (request data))).receiver.windowSize =
        cfg.recvCapacity - data.length ∧
      ∃ out ∈ added c (c.step (.segmentReceived (request data))), out.header.ack = true ∧
        out.header.win = UInt16.ofNat (cfg.recvCapacity - data.length) := by
  obtain ⟨hr, ha⟩ : TCPReceiver.mk? cfg.recvCapacity = some c.receiver ∧ c.active = true := by
    simp only [mk?, Option.map_eq_some_iff] at h
    obtain ⟨r, hr, rfl⟩ := h
    exact ⟨hr, rfl⟩
  obtain ⟨hack, hwin⟩ := request_window hr hc hd
  have hacc : c.Accepts (request data) := ⟨ha, fun hn => by cases hn.2.1⟩
  have hans := answered (live_mk h) hacc rfl
  have hrecv := step_front_receiver c (.segmentReceived (request data))
  rw [front, if_pos hacc, hear, acceptAck_receiver] at hrecv
  generalize c.step (.segmentReceived (request data)) = c' at hans hrecv ⊢
  have hack' : c'.receiver.acknoOut.isSome := by
    rcases hrecv with heq | heq <;> rw [heq] <;> exact hack
  have hwin' : c'.receiver.windowSize = cfg.recvCapacity - data.length := by
    rcases hrecv with heq | heq <;> rw [heq] <;> exact hwin
  obtain ⟨hne, hall⟩ := hans.acks (by simp [request, TCPSegment.lengthInSequenceSpace]) hack'
  obtain ⟨out, hout⟩ := List.exists_mem_of_ne_nil _ hne
  obtain ⟨ha, -, hw⟩ := hall out hout
  exact ⟨hwin', out, hout, ha, by rw [hw, hwin']⟩

theorem showsWindow_step (h : c.sender.Bare) (hc : c.receiver.capacity ≤ 65535) (op : Op) :
    c.ShowsWindow op := by
  intro out hm ha
  have hcap := step_capacity c op
  have hle : (c.step op).receiver.windowSize ≤ (c.step op).receiver.capacity := Nat.sub_le _ _
  rw [((added_stamped h op out hm).2 ha).2.2, UInt16.toNat_ofNat']
  omega

/-- An answer that shows the window right shows the width of the field. -/
theorem window_of_request (h : mk? cfg random = some c) (hc : 1 < cfg.recvCapacity)
    {data : List UInt8} (hd : data.length ≤ 1)
    (hs : c.ShowsWindow (.segmentReceived (request data))) :
    (cfg.recvCapacity - data.length) % 2 ^ 16 = min (cfg.recvCapacity - data.length) 65535 := by
  obtain ⟨hwin, out, hm, ha, hw⟩ := request_answered h hc hd
  have := hs out hm ha
  rw [hw, hwin, UInt16.toNat_ofNat'] at this
  exact this

end

/-- **The advertised window** is right in all runs exactly when the capacity fits into the field. -/
theorem along_showsWindow_iff (cfg : TCPConfig) (random : UInt32) (c0 : TCPConnection)
    (h : mk? cfg random = some c0) :
    (∀ ops, Along step ShowsWindow c0 ops) ↔ cfg.recvCapacity ≤ 65535 := by
  constructor
  · intro hall
    by_contra hc
    -- SYN finds the whole window open, SYN with a byte one byte less of it
    have h0 := window_of_request h (by omega) (by simp)
      (hall [.segmentReceived (request [])]).1
    have h1 := window_of_request h (by omega) (by simp)
      (hall [.segmentReceived (request [0])]).1
    simp only [List.length_nil, List.length_cons] at h0 h1
    omega
  · intro hc ops
    have hbare : c0.sender.Bare ∧ c0.receiver.capacity ≤ 65535 := by
      simp only [mk?, Option.map_eq_some_iff] at h
      obtain ⟨r, hr, rfl⟩ := h
      refine ⟨TCPSender.every_new .., ?_⟩
      rw [(TCPReceiver.inv_mk hr).2.1]
      exact hc
    exact (along_of_forall (G := fun _ _ => True) fun _ _ => trivial).imp
      (I := fun c => c.sender.Bare ∧ c.receiver.capacity ≤ 65535) hbare
      (fun c op hi _ => ⟨step_bare hi.1 op, by rw [step_capacity]; exact hi.2⟩)
      fun c op hi _ => showsWindow_step hi.1 hi.2 op

/-- A connection of the default capacity, connected and sent a byte. -/
theorem showsWindow_default : ∃ c0, mk? { fixedIsn := some ⟨7⟩ } 0 = some c0 ∧
    Along step ShowsWindow c0 [.connect, .segmentReceived { header :=
        { syn := true, ack := true, seqno := ⟨40⟩, ackno := ⟨8⟩, win := 1 } },
      .segmentReceived { header := { ack := true, seqno := ⟨41⟩, ackno := ⟨8⟩, win := 1 },
                         payload := [97] }, .read 1] :=
  ⟨_, rfl, (along_showsWindow_iff { fixedIsn := some ⟨7⟩ } 0 _ rfl).mpr (by decide) _⟩

/-- A window of 65536 is advertised as a closed one. -/
theorem open_window_shown_closed :
    ∃ c0, mk? { recvCapacity := 65536, fixedIsn := some ⟨7⟩ } 0 = some c0 ∧
      (step c0 (.segmentReceived (request []))).receiver.windowSize = 65536 ∧
      (step c0 (.segmentReceived (request []))).segmentsOut.map
          (fun out => (out.header.ack, out.header.win)) = [(true, 0)] ∧
      ¬ Along step ShowsWindow c0 [.segmentReceived (request [])] :=
  ⟨_, rfl, by decide, by decide, by decide⟩

end TCPConnection

end Sponge
