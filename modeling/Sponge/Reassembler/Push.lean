import Sponge.Reassembler.Merge

/-!
# What one push does

`Inv` is the invariant of the reassembler; it asks nothing of the data, so it
holds whatever is pushed. `leaked` is what `unassembledByte` counts beyond the
stored blocks: the bytes of a written block that the output did not accept are
dropped without being subtracted.

`Pushed` is the one specification of `pushSubstring`; everything later about
the reassembler comes from `pushSubstring_spec`.
-/

namespace Sponge

open Lib

namespace StreamReassembler

structure Inv (r : StreamReassembler) : Prop where
  wf : ∀ b ∈ r.blocks, b.WF
  gapped : Gapped r.blocks
  above : ∀ b ∈ r.blocks, r.headIndex < b.begin
  count : totalLength r.blocks ≤ r.unassembledByte
  stream : r.output.WF
  written : r.output.written = r.headIndex
  cap : r.output.capacity = r.capacity
  ended : r.eofFlag = true → r.unassembledByte = 0 → r.output.inputEnd = true

/-- Units of `unassembledByte` that stand for no stored byte. -/
def leaked (r : StreamReassembler) : Nat := r.unassembledByte - totalLength r.blocks

/-- Index `k` was written to the output or is stored. -/
def Received (r : StreamReassembler) (k : Nat) : Prop := k < r.headIndex ∨ Holds r.blocks k

/-- A push of `len` bytes at `index` is let in and brings index `k`. -/
def Offers (r : StreamReassembler) (index len k : Nat) : Prop :=
  index < r.headIndex + r.capacity ∧ index ≤ k ∧ k < index + len

/-- The push completes a run of bytes that begins at the head and reaches past
the room left in the output. -/
def Overruns (r : StreamReassembler) (index len : Nat) : Prop :=
  ∀ i, i ≤ r.output.remainingCapacity →
    Holds r.blocks (r.headIndex + i) ∨ r.Offers index len (r.headIndex + i)

instance (blocks : List BlockNode) (k : Nat) : Decidable (Holds blocks k) :=
  inferInstanceAs (Decidable (∃ b ∈ blocks, b.begin ≤ k ∧ k < b.stop))

instance (r : StreamReassembler) (k : Nat) : Decidable (r.Received k) :=
  inferInstanceAs (Decidable (_ ∨ _))

instance (r : StreamReassembler) (index len k : Nat) : Decidable (r.Offers index len k) :=
  inferInstanceAs (Decidable (_ ∧ _ ∧ _))

instance (r : StreamReassembler) (index len : Nat) : Decidable (r.Overruns index len) :=
  inferInstanceAs (Decidable (∀ i, i ≤ r.output.remainingCapacity → _ ∨ _))

theorem inv_mk {capacity : Nat} {r : StreamReassembler} (h : mk? capacity = some r) :
    r.Inv ∧ r.capacity = capacity ∧ capacity ≤ maxCapacity ∧
      r = { output := { capacity := capacity }, capacity := capacity } := by
  simp only [mk?] at h
  split at h
  · rename_i hc
    cases h
    exact ⟨⟨by simp, List.Pairwise.nil, by simp, Nat.le_refl _, ByteStream.wf_mk _, rfl, rfl,
      by simp⟩, rfl, hc, rfl⟩
  · cases h

/-! ## The last phase -/

section
variable (r : StreamReassembler) (eof : Bool)

theorem judgeEof_eq : r.judgeEof eof = { r with
    eofFlag := r.eofFlag || eof
    output := if (r.eofFlag || eof) && r.empty then r.output.endInput else r.output } := by
  unfold judgeEof
  cases eof <;> cases hf : r.eofFlag <;> cases he : r.empty <;> simp_all [empty] <;>
    (cases r; simp_all)

@[simp] theorem judgeEof_blocks : (r.judgeEof eof).blocks = r.blocks := by rw [judgeEof_eq]
@[simp] theorem judgeEof_unassembledByte :
    (r.judgeEof eof).unassembledByte = r.unassembledByte := by rw [judgeEof_eq]
@[simp] theorem judgeEof_headIndex : (r.judgeEof eof).headIndex = r.headIndex := by
  rw [judgeEof_eq]
@[simp] theorem judgeEof_capacity : (r.judgeEof eof).capacity = r.capacity := by rw [judgeEof_eq]
@[simp] theorem judgeEof_eofFlag : (r.judgeEof eof).eofFlag = (r.eofFlag || eof) := by
  rw [judgeEof_eq]

theorem judgeEof_output : (r.judgeEof eof).output =
    if (r.eofFlag || eof) && r.empty then r.output.endInput else r.output := by rw [judgeEof_eq]

@[simp] theorem judgeEof_buffer : (r.judgeEof eof).output.buffer = r.output.buffer := by
  rw [judgeEof_output]; split <;> rfl
@[simp] theorem judgeEof_written : (r.judgeEof eof).output.written = r.output.written := by
  rw [judgeEof_output]; split <;> rfl
@[simp] theorem judgeEof_readden : (r.judgeEof eof).output.readden = r.output.readden := by
  rw [judgeEof_output]; split <;> rfl
@[simp] theorem judgeEof_outCapacity : (r.judgeEof eof).output.capacity = r.output.capacity := by
  rw [judgeEof_output]; split <;> rfl
@[simp] theorem judgeEof_error : (r.judgeEof eof).output.error = r.output.error := by
  rw [judgeEof_output]; split <;> rfl

theorem judgeEof_inputEnd : (r.judgeEof eof).output.inputEnd =
    (r.output.inputEnd || ((r.eofFlag || eof) && r.empty)) := by
  rw [judgeEof_output]; split <;> simp_all

theorem empty_iff : r.empty = true ↔ r.unassembledByte = 0 := by simp [empty]

end

/-! ## The new block -/

theorem newBlock_spec {r : StreamReassembler} {data : List UInt8} {index : Nat}
    (h : r.headIndex < index + data.length) :
    (r.newBlock data index).WF ∧ (r.newBlock data index).begin = max r.headIndex index ∧
      (r.newBlock data index).stop = index + data.length ∧
      ∀ S, SliceAt S index data → (r.newBlock data index).SliceOf S := by
  unfold newBlock BlockNode.stop
  split
  · rename_i hlt
    refine ⟨⟨rfl⟩, ?_, ?_, fun S hs => hs.drop _⟩
    · simp only; omega
    · simp only [List.length_drop]; omega
  · rename_i hge
    refine ⟨⟨rfl⟩, ?_, rfl, fun S hs => hs⟩
    simp only; omega

/-! ## One push -/

/-- What `pushSubstring data index` does to `r`; `w` is what it writes. -/
structure Pushed (r : StreamReassembler) (data : List UInt8) (index : Nat)
    (r' : StreamReassembler) (w : List UInt8) : Prop where
  wf : ∀ b ∈ r'.blocks, b.WF
  gapped : Gapped r'.blocks
  above : ∀ b ∈ r'.blocks, r'.headIndex < b.begin
  count : totalLength r'.blocks ≤ r'.unassembledByte
  stream : r'.output.WF
  written : r'.output.written = r.output.written + w.length
  buffer : r'.output.buffer = r.output.buffer ++ w
  readden : r'.output.readden = r.output.readden
  outCapacity : r'.output.capacity = r.output.capacity
  error : r'.output.error = r.output.error
  head : r'.headIndex = r.headIndex + w.length
  capacity : r'.capacity = r.capacity
  covers : w ≠ [] → index ≤ r.headIndex ∧ r.headIndex < index + data.length
  slices : ∀ S, (∀ b ∈ r.blocks, b.SliceOf S) →
    (index < r.headIndex + r.capacity → r.headIndex < index + data.length → SliceAt S index data) →
    SliceAt S r.headIndex w ∧ ∀ b ∈ r'.blocks, b.SliceOf S
  leak : r.leaked ≤ r'.leaked
  overrun : r'.leaked = r.leaked ↔ ¬ r.Overruns index data.length
  received : r'.leaked = r.leaked →
    ∀ k, r'.Received k ↔ r.Received k ∨ r.Offers index data.length k

variable {r : StreamReassembler} {data : List UInt8} {index : Nat}

/-- What is written fits the room left in the output. -/
theorem Pushed.length_le {r' : StreamReassembler} {w : List UInt8}
    (h : Pushed r data index r' w) : w.length ≤ r.output.remainingCapacity := by
  have hfit := h.stream.fits
  rw [h.buffer, h.outCapacity, List.length_append] at hfit
  simp only [ByteStream.remainingCapacity, ByteStream.bufferSize]
  omega

/-- A push that stores nothing and writes nothing. -/
theorem Pushed.idle (h : r.Inv)
    (hi : r.headIndex + r.capacity ≤ index ∨ index + data.length ≤ r.headIndex) :
    Pushed r data index r [] where
  wf := h.wf
  gapped := h.gapped
  above := h.above
  count := h.count
  stream := h.stream
  written := rfl
  buffer := by simp
  readden := rfl
  outCapacity := rfl
  error := rfl
  head := rfl
  capacity := rfl
  covers hw := absurd rfl hw
  slices S hb _ := ⟨sliceAt_nil S _, hb⟩
  leak := Nat.le_refl _
  overrun := by
    refine iff_of_true rfl fun ho => ?_
    rcases ho 0 (Nat.zero_le _) with ⟨b, hb, hle, -⟩ | ⟨h1, h2, h3⟩
    · have := h.above b hb
      omega
    · omega
  received _ k := by
    refine ⟨.inl, ?_⟩
    rintro (hk | ⟨h1, h2, h3⟩)
    · exact hk
    · exact .inl (by omega)

/-- The state between `storeBlock` and `writeHead` for a push that is let in and
reaches past the head: `m` is the block the new bytes ended up in. -/
structure Stored (r : StreamReassembler) (data : List UInt8) (index : Nat) (p : List BlockNode)
    (m : BlockNode) (q : List BlockNode) (un : Nat) : Prop where
  wf : ∀ b ∈ p ++ m :: q, b.WF
  gapped : Gapped (p ++ m :: q)
  above : ∀ b ∈ p ++ q, r.headIndex < b.begin
  begin_le : r.headIndex ≤ m.begin
  begin_iff : m.begin = r.headIndex ↔ index ≤ r.headIndex
  leak : un + totalLength r.blocks = r.unassembledByte + totalLength (p ++ m :: q)
  holds : ∀ k, r.headIndex ≤ k →
    (Holds (p ++ m :: q) k ↔ Holds r.blocks k ∨ r.Offers index data.length k)
  slices : ∀ S, (∀ b ∈ r.blocks, b.SliceOf S) → SliceAt S index data →
    ∀ b ∈ p ++ m :: q, b.SliceOf S

theorem storeBlock_stored (h : r.Inv) (hin : index < r.headIndex + r.capacity)
    (hpast : r.headIndex < index + data.length) :
    ∃ p m q un, Stored r data index p m q un ∧
      r.storeBlock (r.newBlock data index) =
        { r with blocks := p ++ m :: q, unassembledByte := un } := by
  obtain ⟨hew, heb, hes, hesl⟩ := newBlock_spec hpast
  generalize r.newBlock data index = e at hew heb hes hesl
  have hoff : ∀ k, e.Covers k ↔ r.headIndex ≤ k ∧ r.Offers index data.length k := by
    intro k
    unfold BlockNode.Covers Offers
    rw [heb, hes]
    omega
  obtain ⟨p, bs, q, m, n, hpbq, habs, hgap, hmb, hst⟩ := storeBlock_spec hew h.wf h.gapped
  have hin' : ∀ b ∈ p ++ q, b ∈ r.blocks := by
    intro b hb
    rw [hpbq, List.append_assoc]
    rcases List.mem_append.mp hb with hb | hb
    · exact List.mem_append_left _ hb
    · exact List.mem_append_right _ (List.mem_append_right _ hb)
  have hbs : ∀ b ∈ bs, b ∈ r.blocks := fun b hb => by rw [hpbq]; simp [hb]
  have hmem : ∀ b ∈ p ++ m :: q, b = m ∨ b ∈ r.blocks := fun b hb => by
    rw [hpbq]
    exact eq_or_mem_of_replaced hb
  have hle : r.headIndex ≤ m.begin := by
    rcases hmb with hm | ⟨b, hb, hm⟩
    · omega
    · have := h.above b (hbs b hb); omega
  refine ⟨p, m, q, _, ?_, hst r rfl⟩
  exact {
    wf := fun b hb => by
      rcases hmem b hb with rfl | hb
      · exact habs.wf
      · exact h.wf b hb
    gapped := hgap
    above := fun b hb => h.above b (hin' b hb)
    begin_le := hle
    begin_iff := by
      constructor
      · intro hm
        rcases hmb with hm' | ⟨b, hb, hm'⟩
        · omega
        · have := h.above b (hbs b hb); omega
      · intro hi
        have hc : m.Covers r.headIndex := (habs.covers _).mpr (.inl ((hoff _).mpr
          ⟨Nat.le_refl _, hin, hi, hpast⟩))
        exact Nat.le_antisymm hc.1 hle
    leak := by
      have htot := h.count
      have hcount := habs.count
      rw [hpbq] at htot ⊢
      simp only [totalLength_append, totalLength_cons] at htot ⊢
      clear hmb
      omega
    holds := fun k hk => by
      rw [hpbq]
      simp only [holds_append, holds_cons, habs.covers, hoff, hk, true_and, or_assoc, or_left_comm,
        or_comm]
    slices := fun S hb hd b hm => by
      rcases hmem b hm with rfl | hm
      · exact habs.slice S (hesl S hd) fun c hc => hb c (hbs c hc)
      · exact hb b hm }

theorem Stored.count {p q : List BlockNode} {m : BlockNode} {un : Nat}
    (hs : Stored r data index p m q un) (h : r.Inv) : totalLength (p ++ m :: q) ≤ un := by
  have := hs.leak
  have := h.count
  omega

/-- Nothing is written when the new bytes do not reach down to the head. -/
theorem Stored.behind {p q : List BlockNode} {m : BlockNode} {un : Nat}
    (hs : Stored r data index p m q un) (h : r.Inv) (hi : r.headIndex < index)
    (hin : index < r.headIndex + r.capacity) (hpast : r.headIndex < index + data.length) :
    Pushed r data index
      (writeHead { r with blocks := p ++ m :: q, unassembledByte := un }) [] := by
  have hne := hs.begin_iff
  have hfirst : ∀ b ∈ p ++ m :: q, r.headIndex < b.begin := by
    intro b hb
    have hab := hs.above b
    have := hs.begin_le
    simp only [List.mem_append, List.mem_cons] at hb hab
    rcases hb with hb | rfl | hb
    · exact hab (.inl hb)
    · omega
    · exact hab (.inr hb)
  have hno : writeHead { r with blocks := p ++ m :: q, unassembledByte := un } =
      { r with blocks := p ++ m :: q, unassembledByte := un } := by
    unfold writeHead
    cases hb : p ++ m :: q with
    | nil => simp at hb
    | cons b l =>
      have := hfirst b (by rw [hb]; simp)
      simp only
      rw [if_neg (by omega)]
  have hleak : leaked { r with blocks := p ++ m :: q, unassembledByte := un } = r.leaked := by
    have := hs.leak
    have := h.count
    simp only [leaked]
    omega
  rw [hno]
  exact {
    wf := hs.wf
    gapped := hs.gapped
    above := hfirst
    count := hs.count h
    stream := h.stream
    written := rfl
    buffer := by simp
    readden := rfl
    outCapacity := rfl
    error := rfl
    head := rfl
    capacity := rfl
    covers := fun hw => absurd rfl hw
    slices := fun S hb hd => ⟨sliceAt_nil S _, hs.slices S hb (hd hin hpast)⟩
    leak := Nat.le_of_eq hleak.symm
    overrun := by
      refine iff_of_true hleak fun ho => ?_
      rcases ho 0 (Nat.zero_le _) with ⟨b, hb, hle, -⟩ | ⟨-, h2, -⟩
      · have := h.above b hb
        omega
      · omega
    received := fun _ k => by
      simp only [Received]
      rcases Nat.lt_or_ge k r.headIndex with hlt | hge
      · exact iff_of_true (.inl hlt) (.inl (.inl hlt))
      · rw [hs.holds k hge, or_assoc] }

/-- New bytes that reach down to the head end up in the first block. -/
theorem Stored.front_nil {p q : List BlockNode} {m : BlockNode} {un : Nat}
    (hs : Stored r data index p m q un) (hi : index ≤ r.headIndex) : p = [] := by
  have hbeg : m.begin = r.headIndex := hs.begin_iff.mpr hi
  cases p with
  | nil => rfl
  | cons b p =>
    have h1 := hs.above b (by simp)
    have h2 : b.stop < m.begin := (List.pairwise_cons.mp hs.gapped).1 m (by simp)
    have h3 := b.begin_le_stop
    omega

theorem Stored.holds_front {q : List BlockNode} {m : BlockNode} {un k : Nat}
    (hs : Stored r data index [] m q un) (hk : r.headIndex ≤ k) :
    m.Covers k ∨ Holds q k ↔ Holds r.blocks k ∨ r.Offers index data.length k := by
  rw [← hs.holds k hk, List.nil_append, holds_cons]

/-- The push overruns the room exactly when the first block does not fit. -/
theorem Stored.overruns_iff {q : List BlockNode} {m : BlockNode} {un : Nat}
    (hs : Stored r data index [] m q un) (hbeg : m.begin = r.headIndex) :
    r.Overruns index data.length ↔ r.output.remainingCapacity < m.length := by
  have hstop : m.stop = r.headIndex + m.length := by rw [← hbeg]; rfl
  constructor
  · -- the run goes on past the room, and there is no gap in a block only
    intro hov
    have hgap : Gapped (m :: q) := hs.gapped
    have hlt := hgap.run_in_head (n := r.headIndex + r.output.remainingCapacity)
      (fun k h1 h2 => by
        have hk := hov (k - r.headIndex) (by omega)
        rw [show r.headIndex + (k - r.headIndex) = k by omega] at hk
        exact (holds_cons ..).mpr ((hs.holds_front (by omega)).mpr hk)) m.begin_le_stop
    omega
  · intro hlt i hi
    exact (hs.holds_front (by omega)).mp (.inl ⟨by omega, by omega⟩)

/-- The block the new bytes ended up in is written when they reach down to the head. -/
theorem Stored.atHead {p q : List BlockNode} {m : BlockNode} {un : Nat}
    (hs : Stored r data index p m q un) (h : r.Inv) (hi : index ≤ r.headIndex)
    (hin : index < r.headIndex + r.capacity) (hpast : r.headIndex < index + data.length) :
    ∃ w, Pushed r data index
      (writeHead { r with blocks := p ++ m :: q, unassembledByte := un }) w := by
  have hbeg : m.begin = r.headIndex := hs.begin_iff.mpr hi
  obtain rfl := hs.front_nil hi
  have hgap : Gapped (m :: q) := hs.gapped
  obtain ⟨hgm, hgq⟩ := List.pairwise_cons.mp hgap
  have hstop : m.stop = r.headIndex + m.length := by rw [← hbeg]; rfl
  have hcount := hs.count h
  have hleq := hs.leak
  have hrc := h.count
  simp only [List.nil_append, totalLength_cons] at hcount hleq
  have hwh : writeHead { r with blocks := [] ++ m :: q, unassembledByte := un } =
      { r with
        output := (r.output.write m.data).1
        headIndex := r.headIndex + (r.output.write m.data).2
        unassembledByte := un - (r.output.write m.data).2
        blocks := q } := if_pos hbeg
  rw [hwh]
  have hN : (r.output.write m.data).2 = min m.length r.output.remainingCapacity := by
    rw [ByteStream.write_snd, (hs.wf m (by simp)).length_eq]
  have hwl : (m.data.take (r.output.write m.data).2).length = (r.output.write m.data).2 := by
    have := (hs.wf m (by simp)).length_eq
    rw [List.length_take]; omega
  have hleak : leaked { r with
      output := (r.output.write m.data).1
      headIndex := r.headIndex + (r.output.write m.data).2
      unassembledByte := un - (r.output.write m.data).2
      blocks := q } = r.leaked + (m.length - (r.output.write m.data).2) := by
    simp only [leaked]
    omega
  refine ⟨m.data.take (r.output.write m.data).2, ?_⟩
  exact {
    wf := fun b hb => hs.wf b (by simp [hb])
    gapped := hgq
    above := fun b hb => by
      have : m.stop < b.begin := hgm b hb
      simp only
      omega
    count := by simp only; omega
    stream := h.stream.write _
    written := by rw [hwl]; rfl
    buffer := rfl
    readden := rfl
    outCapacity := rfl
    error := rfl
    head := by rw [hwl]
    capacity := rfl
    covers := fun _ => ⟨hi, hpast⟩
    slices := fun S hb hd => by
      have hall := hs.slices S hb (hd hin hpast)
      have hm : SliceAt S m.begin m.data := hall m (by simp)
      rw [hbeg] at hm
      exact ⟨hm.take _, fun b hq => hall b (by simp [hq])⟩
    leak := by rw [hleak]; omega
    overrun := by
      rw [hleak, hs.overruns_iff hbeg]
      omega
    received := fun hl k => by
      rw [hleak] at hl
      simp only [Received]
      rcases Nat.lt_or_ge k r.headIndex with hlt | hge
      · exact iff_of_true (.inl (by omega)) (.inl (.inl hlt))
      · rw [or_assoc, ← hs.holds_front hge]
        unfold BlockNode.Covers
        constructor
        · rintro (h1 | h1)
          · exact .inr (.inl ⟨by omega, by omega⟩)
          · exact .inr (.inr h1)
        · rintro (h1 | ⟨-, h1⟩ | h1)
          · exact .inl (by omega)
          · exact .inl (by omega)
          · exact .inr h1 }

theorem Pushed.judgeEof {r' : StreamReassembler} {w : List UInt8} (h : Pushed r data index r' w)
    (eof : Bool) : Pushed r data index (r'.judgeEof eof) w where
  wf := by simpa using h.wf
  gapped := by simpa using h.gapped
  above := by simpa using h.above
  count := by simpa using h.count
  stream := by
    have := h.stream
    exact ⟨by simpa using this.fits, by simpa using this.count⟩
  written := by simpa using h.written
  buffer := by simpa using h.buffer
  readden := by simpa using h.readden
  outCapacity := by simpa using h.outCapacity
  error := by simpa using h.error
  head := by simpa using h.head
  capacity := by simpa using h.capacity
  covers := h.covers
  slices := by simpa using h.slices
  leak := by simpa [leaked] using h.leak
  overrun := by simpa [leaked] using h.overrun
  received := by simpa [leaked, Received] using h.received

theorem Pushed.endInput {r' : StreamReassembler} {w : List UInt8}
    (h : Pushed r data index r' w) :
    Pushed r data index { r' with output := r'.output.endInput } w where
  wf := h.wf
  gapped := h.gapped
  above := h.above
  count := h.count
  stream := h.stream.endInput
  written := h.written
  buffer := h.buffer
  readden := h.readden
  outCapacity := h.outCapacity
  error := h.error
  head := h.head
  capacity := h.capacity
  covers := h.covers
  slices := h.slices
  leak := h.leak
  overrun := h.overrun
  received := h.received

/-- The eof flag and the end of the output after a push. -/
structure Judged (r : StreamReassembler) (index : Nat) (eof : Bool) (r' : StreamReassembler) :
    Prop where
  eofFlag : r'.eofFlag = (r.eofFlag || (decide (index < r.headIndex + r.capacity) && eof))
  inputEnd : r'.output.inputEnd = (r.output.inputEnd ||
    (decide (index < r.headIndex + r.capacity) && (r'.eofFlag && r'.empty)))

theorem judgeEof_judged {r' : StreamReassembler} (eof : Bool)
    (hin : index < r.headIndex + r.capacity) (hf : r'.eofFlag = r.eofFlag)
    (he : r'.output.inputEnd = r.output.inputEnd) : Judged r index eof (r'.judgeEof eof) where
  eofFlag := by simp [hin, hf]
  inputEnd := by
    rw [judgeEof_inputEnd, he, judgeEof_eofFlag]
    simp [hin, empty]

@[simp] theorem writeHead_eofFlag (r : StreamReassembler) : r.writeHead.eofFlag = r.eofFlag := by
  unfold writeHead
  split
  · rfl
  · split <;> rfl

@[simp] theorem writeHead_inputEnd (r : StreamReassembler) :
    r.writeHead.output.inputEnd = r.output.inputEnd := by
  unfold writeHead
  split
  · rfl
  · split <;> rfl

theorem pushSubstring_spec (h : r.Inv) (data : List UInt8) (index : Nat) (eof : Bool) :
    ∃ w, Pushed r data index (r.pushSubstring data index eof) w ∧
      Judged r index eof (r.pushSubstring data index eof) := by
  unfold pushSubstring
  by_cases hin : index ≥ r.headIndex + r.capacity
  · rw [if_pos hin]
    exact ⟨[], Pushed.idle h (.inl hin), by simp [Nat.not_lt.mpr hin],
      by simp [Nat.not_lt.mpr hin]⟩
  · rw [if_neg hin]
    by_cases hold : index + data.length ≤ r.headIndex
    · rw [if_pos hold]
      exact ⟨[], (Pushed.idle h (.inr hold)).judgeEof eof,
        judgeEof_judged eof (by omega) rfl rfl⟩
    · rw [if_neg hold]
      have hpast : r.headIndex < index + data.length := by omega
      obtain ⟨p, m, q, un, hs, hst⟩ := storeBlock_stored h (by omega) hpast
      obtain ⟨w, hw⟩ : ∃ w, Pushed r data index
          ((r.storeBlock (r.newBlock data index)).writeHead) w := by
        rw [hst]
        rcases Nat.lt_or_ge r.headIndex index with hi | hi
        · exact ⟨[], hs.behind h hi (by omega) hpast⟩
        · exact hs.atHead h hi (by omega) hpast
      exact ⟨w, hw.judgeEof eof, judgeEof_judged eof (by omega)
        (writeHead_eofFlag _) (writeHead_inputEnd _)⟩

/-- A push keeps the invariant. -/
theorem Inv.push (h : r.Inv) (data : List UInt8) (index : Nat) (eof : Bool) :
    (r.pushSubstring data index eof).Inv := by
  obtain ⟨w, hp, hj⟩ := pushSubstring_spec h data index eof
  refine ⟨hp.wf, hp.gapped, hp.above, hp.count, hp.stream, ?_, ?_, fun hf hu => ?_⟩
  · rw [hp.written, hp.head, h.written]
  · rw [hp.outCapacity, hp.capacity, h.cap]
  · rw [hj.inputEnd]
    by_cases hin : index < r.headIndex + r.capacity
    · simp [hin, hf, (empty_iff _).mpr hu]
    · -- the push was turned away and nothing changed
      have hr : r.pushSubstring data index eof = r := if_pos (by omega)
      rw [hr] at hf hu
      simp [h.ended hf hu]

/-- Reading from the output keeps the invariant. -/
theorem Inv.readOut (h : r.Inv) (n : Nat) : (r.readOut n).Inv where
  wf := h.wf
  gapped := h.gapped
  above := h.above
  count := h.count
  stream := h.stream.popOutput n
  written := h.written
  cap := h.cap
  ended := h.ended

/-- The end of the output, once reached, stays. -/
theorem pushSubstring_inputEnd_mono (h : r.Inv) (eof : Bool) (he : r.output.inputEnd = true) :
    (r.pushSubstring data index eof).output.inputEnd = true := by
  obtain ⟨w, -, hj⟩ := pushSubstring_spec h data index eof
  simp [hj.inputEnd, he]

/-- The reassembler counts nothing exactly when nothing has leaked and no byte is stored. -/
theorem empty_iff_holds {r : StreamReassembler} (h : totalLength r.blocks ≤ r.unassembledByte) :
    r.empty = true ↔ r.leaked = 0 ∧ ∀ k, ¬ Holds r.blocks k := by
  rw [empty_iff, leaked]
  constructor
  · intro hzero
    exact ⟨by omega, not_holds_of_totalLength_zero (by omega)⟩
  · rintro ⟨hleak, hnone⟩
    have htotal : totalLength r.blocks = 0 := by
      refine totalLength_eq_zero fun b hb => ?_
      by_contra hne
      refine hnone b.begin ⟨b, hb, Nat.le_refl _, ?_⟩
      unfold BlockNode.stop
      omega
    omega

/-- A push of no bytes writes none, and leaves the reassembler empty or not as it was. -/
theorem Pushed.of_nil {r' : StreamReassembler} {w : List UInt8} (h : r.Inv)
    (hp : Pushed r [] index r' w) : w = [] ∧ r'.empty = r.empty := by
  have hoffers : ∀ k, ¬ r.Offers index 0 k := by
    rintro k ⟨-, hle, hlt⟩
    omega
  have hw : w = [] := by
    by_contra hne
    obtain ⟨hle, hlt⟩ := hp.covers hne
    exact absurd hlt (by simpa using hle)
  have hhead : r'.headIndex = r.headIndex := by rw [hp.head, hw]; rfl
  have hleak : r'.leaked = r.leaked := hp.overrun.mpr fun ho => by
    rcases ho 0 (Nat.zero_le _) with ⟨b, hb, hle, -⟩ | hoff
    · have := h.above b hb
      omega
    · exact hoffers _ hoff
  have hholds : ∀ k, Holds r'.blocks k ↔ Holds r.blocks k := fun k => by
    have hrec := hp.received hleak k
    simp only [Received, hhead, List.length_nil, hoffers k, or_false] at hrec
    constructor
    · rintro ⟨b, hb, hle, hlt⟩
      have hlow := hp.above b hb
      exact (hrec.mp (.inr ⟨b, hb, hle, hlt⟩)).resolve_left (by omega)
    · rintro ⟨b, hb, hle, hlt⟩
      have hlow := h.above b hb
      exact (hrec.mpr (.inr ⟨b, hb, hle, hlt⟩)).resolve_left (by omega)
  refine ⟨hw, Bool.eq_iff_iff.mpr ?_⟩
  rw [empty_iff_holds hp.count, empty_iff_holds h.count, hleak]
  simp only [hholds]

/-- A push that brings the byte at the head writes, if there is room. -/
theorem pushSubstring_writes (h : r.Inv) (eof : Bool) (hi : index ≤ r.headIndex)
    (hpast : r.headIndex < index + data.length) (hroom : 0 < r.output.remainingCapacity) :
    r.output.written < (r.pushSubstring data index eof).output.written := by
  have hcap : 0 < r.capacity := by
    rw [← h.cap]
    exact Nat.lt_of_lt_of_le hroom (Nat.sub_le _ _)
  unfold pushSubstring
  rw [if_neg (by omega), if_neg (by omega)]
  obtain ⟨p, m, q, un, hs, hst⟩ := storeBlock_stored h (by omega) hpast
  obtain rfl := hs.front_nil hi
  have hbeg : m.begin = r.headIndex := hs.begin_iff.mpr hi
  have hpos : 0 < m.length := by
    have hold := (hs.holds_front (Nat.le_refl _)).mpr (.inr ⟨by omega, hi, hpast⟩)
    rcases hold with hold | ⟨b, hb, hle, -⟩
    · have : m.stop = r.headIndex + m.length := by rw [← hbeg]; rfl
      have := hold.2
      omega
    · have := hs.above b hb
      omega
  have hwh : writeHead { r with blocks := [] ++ m :: q, unassembledByte := un } =
      { r with
        output := (r.output.write m.data).1
        headIndex := r.headIndex + (r.output.write m.data).2
        unassembledByte := un - (r.output.write m.data).2
        blocks := q } := if_pos hbeg
  have hdata := (hs.wf m (by simp)).length_eq
  rw [hst, hwh, judgeEof_written, ByteStream.write_written, ByteStream.write_snd]
  omega

/-- Behind the block that reaches down to the head there is only what was stored before. -/
theorem Stored.holds_rest {q : List BlockNode} {m : BlockNode} {un : Nat}
    (hs : Stored r data index [] m q un) (hi : index ≤ r.headIndex) {k : Nat} (hk : Holds q k) :
    Holds r.blocks k := by
  have hbeg : m.begin = r.headIndex := hs.begin_iff.mpr hi
  have hgap : Gapped (m :: q) := hs.gapped
  obtain ⟨b, hb, hle, hlt⟩ := hk
  have hhead : r.headIndex < b.begin := hs.above b (by simpa using hb)
  have hmb : m.stop < b.begin := (List.pairwise_cons.mp hgap).1 b hb
  rcases (hs.holds_front (k := k) (by omega)).mp (.inr ⟨b, hb, hle, hlt⟩) with
    hold | ⟨hin, -, hend⟩
  · exact hold
  · -- from the head on all of it is new, so there is no gap before it
    have hrun := hgap.run_in_head (n := k) (fun k' h1 h2 => (holds_cons ..).mpr
      ((hs.holds_front (by omega)).mpr (.inr ⟨hin, by omega, by omega⟩))) m.begin_le_stop
    omega

/-- A push that reaches down to the head stores nothing new. -/
theorem holds_pushSubstring (h : r.Inv) (eof : Bool) (hi : index ≤ r.headIndex) {k : Nat}
    (hk : Holds (r.pushSubstring data index eof).blocks k) : Holds r.blocks k := by
  unfold pushSubstring at hk
  by_cases hin : index ≥ r.headIndex + r.capacity
  · rwa [if_pos hin] at hk
  · rw [if_neg hin] at hk
    by_cases hold : index + data.length ≤ r.headIndex
    · rwa [if_pos hold, judgeEof_blocks] at hk
    · rw [if_neg hold, judgeEof_blocks] at hk
      obtain ⟨p, m, q, un, hs, hst⟩ := storeBlock_stored h (Nat.not_le.mp hin) (Nat.not_le.mp hold)
      obtain rfl := hs.front_nil hi
      have hwh : (writeHead { r with blocks := [] ++ m :: q, unassembledByte := un }).blocks = q :=
        congrArg blocks (if_pos (hs.begin_iff.mpr hi))
      rw [hst, hwh] at hk
      exact hs.holds_rest hi hk

/-- The first byte of the stream is written at once. -/
theorem pushSubstring_first {capacity : Nat} (hc : 1 < capacity) {data : List UInt8}
    (hd : data.length ≤ 1) :
    ({ output := { capacity := capacity }, capacity := capacity } :
        StreamReassembler).pushSubstring data 0 false =
      { output := { capacity := capacity, written := data.length, buffer := data },
        headIndex := data.length, capacity := capacity } := by
  have hin : ¬ 0 ≥ 0 + capacity := by omega
  unfold pushSubstring
  rw [if_neg hin]
  match data, hd with
  | [], _ => rfl
  | [b], _ =>
    have hw : ({ capacity := capacity } : ByteStream).write [b] =
        ({ capacity := capacity, written := 1, buffer := [b] }, 1) := by
      simp [ByteStream.write, ByteStream.bufferSize, hc]
    have hstore : storeBlock { output := { capacity := capacity }, capacity := capacity }
        (newBlock { output := { capacity := capacity }, capacity := capacity } [b] 0) =
        { output := { capacity := capacity }, capacity := capacity, unassembledByte := 1,
          blocks := [({ length := 1, data := [b] } : BlockNode)] } := rfl
    have hpast : ¬ 0 + [b].length ≤ 0 := Nat.not_succ_le_zero 0
    simp only [if_neg hpast, hstore, writeHead, if_true, hw]
    rfl

end StreamReassembler

end Sponge
