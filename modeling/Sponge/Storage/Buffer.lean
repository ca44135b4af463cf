import Mathlib.Data.List.Basic
import Mathlib.Tactic.Common

/-!
# Buffers that discard bytes from the front

A `Buffer` is a string and the offset its contents start at; it lets go of the
string once all of it is discarded. A `BufferList` is a queue of buffers, some of
them possibly empty, and its contents are those of the buffers one behind the
other. Removing a prefix of the contents drops whole buffers and discards bytes
of the one the prefix ends in; it throws only when asked for more than there is
(`BufferList.removePrefix_spec`).
-/

namespace Sponge.Storage

/-- The string is read-only and may be shared; a copy of a buffer has an offset of its own. -/
structure Buffer where
  storage : Option (List UInt8)
  startingOffset : Nat
  offset_le : ∀ s ∈ storage, startingOffset ≤ s.length
  deriving DecidableEq, Repr

namespace Buffer

def ofString (str : List UInt8) : Buffer where
  storage := some str
  startingOffset := 0
  offset_le _ _ := Nat.zero_le _

def str (b : Buffer) : List UInt8 :=
  match b.storage with
  | none => []
  | some s => s.drop b.startingOffset

def size (b : Buffer) : Nat := b.str.length

/-- The offset moves on; the string is let go when the offset reaches its end. -/
def skip : (storage : Option (List UInt8)) → (offset : Nat) →
    (∀ s ∈ storage, offset ≤ s.length) → Buffer
  | none, offset, _ => ⟨none, offset, by rintro _ ⟨⟩⟩
  | some s, offset, h => if offset = s.length then ⟨none, offset, by rintro _ ⟨⟩⟩
    else ⟨some s, offset, h⟩

theorem offset_add_le (b : Buffer) {n : Nat} (h : n ≤ b.str.length) :
    ∀ s ∈ b.storage, b.startingOffset + n ≤ s.length := by
  intro s hs
  have hle := b.offset_le s hs
  rw [Option.mem_def] at hs
  rw [str, hs, List.length_drop] at h
  omega

def removePrefix (b : Buffer) (n : Nat) : Except String Buffer :=
  if h : n ≤ b.str.length then
    .ok (skip b.storage (b.startingOffset + n) (b.offset_add_le h))
  else .error "Buffer::remove_prefix"

@[simp] theorem ofString_str (s : List UInt8) : (ofString s).str = s := List.drop_zero

theorem skip_str (storage : Option (List UInt8)) (offset : Nat)
    (h : ∀ s ∈ storage, offset ≤ s.length) :
    (skip storage offset h).str = (storage.getD []).drop offset := by
  cases storage with
  | none => exact List.drop_nil.symm
  | some s =>
    rw [skip]
    split
    · rename_i heq
      exact (List.drop_of_length_le (Nat.le_of_eq heq.symm)).symm
    · rfl

/-- A prefix that is there is removed. -/
theorem removePrefix_spec (b : Buffer) {n : Nat} (h : n ≤ b.size) :
    ∃ b', b.removePrefix n = .ok b' ∧ b'.str = b.str.drop n := by
  refine ⟨_, dif_pos h, ?_⟩
  rw [skip_str, str]
  cases b.storage with
  | none => simp
  | some s => exact List.drop_drop.symm

end Buffer

structure BufferList where
  buffers : List Buffer := []
  deriving DecidableEq, Repr

namespace BufferList

/-- `push_back` of every buffer of the other list. -/
def append (l other : BufferList) : BufferList :=
  { buffers := other.buffers.foldl (fun bufs buf => bufs ++ [buf]) l.buffers }

def ofString (str : List UInt8) : BufferList :=
  append {} { buffers := [Buffer.ofString str] }

def concatenate (l : BufferList) : List UInt8 := l.buffers.foldl (fun ret buf => ret ++ buf.str) []

def size (l : BufferList) : Nat := l.buffers.foldl (fun ret buf => ret + buf.size) 0

/-- The loop of `remove_prefix`; each turn but the last drops a buffer. -/
def removeLoop : List Buffer → Nat → Except String (List Buffer)
  | buffers, 0 => .ok buffers
  | [], _ + 1 => .error "BufferList::remove_prefix"
  | front :: rest, n + 1 =>
    if n + 1 < front.str.length then (front.removePrefix (n + 1)).map (· :: rest)
    else removeLoop rest (n + 1 - front.str.length)

def removePrefix (l : BufferList) (n : Nat) : Except String BufferList :=
  (removeLoop l.buffers n).map BufferList.mk

/-! ## The contents -/

/-- The contents of a queue of buffers. -/
def contents (buffers : List Buffer) : List UInt8 := buffers.flatMap Buffer.str

@[simp] theorem contents_cons (b : Buffer) (l : List Buffer) :
    contents (b :: l) = b.str ++ contents l := List.flatMap_cons

theorem concatenate_eq (l : BufferList) : l.concatenate = contents l.buffers := by
  have hfold : ∀ (bufs : List Buffer) (ret : List UInt8),
      bufs.foldl (fun ret buf => ret ++ buf.str) ret = ret ++ contents bufs := by
    intro bufs
    induction bufs with
    | nil => exact fun ret => (List.append_nil ret).symm
    | cons b bufs ih =>
      intro ret
      rw [List.foldl_cons, ih, contents_cons, List.append_assoc]
  exact hfold l.buffers []

theorem size_eq (l : BufferList) : l.size = l.concatenate.length := by
  have hfold : ∀ (bufs : List Buffer) (ret : Nat),
      bufs.foldl (fun ret buf => ret + buf.size) ret = ret + (contents bufs).length := by
    intro bufs
    induction bufs with
    | nil => exact fun ret => rfl
    | cons b bufs ih =>
      intro ret
      rw [List.foldl_cons, ih, contents_cons, List.length_append, Buffer.size, Nat.add_assoc]
  rw [concatenate_eq, size, hfold, Nat.zero_add]

theorem append_buffers (l other : BufferList) :
    (l.append other).buffers = l.buffers ++ other.buffers := by
  have hfold : ∀ (bufs acc : List Buffer),
      bufs.foldl (fun bufs buf => bufs ++ [buf]) acc = acc ++ bufs := by
    intro bufs
    induction bufs with
    | nil => exact fun acc => (List.append_nil acc).symm
    | cons b bufs ih =>
      intro acc
      rw [List.foldl_cons, ih, List.append_assoc]
      rfl
  exact hfold other.buffers l.buffers

@[simp] theorem append_concatenate (l other : BufferList) :
    (l.append other).concatenate = l.concatenate ++ other.concatenate := by
  simp only [concatenate_eq, append_buffers, contents, List.flatMap_append]

@[simp] theorem ofString_concatenate (s : List UInt8) : (ofString s).concatenate = s := by
  rw [concatenate_eq, ofString, append_buffers]
  simp [contents]

theorem removeLoop_spec : ∀ (buffers : List Buffer) (n : Nat), n ≤ (contents buffers).length →
    ∃ buffers', removeLoop buffers n = .ok buffers' ∧
      contents buffers' = (contents buffers).drop n
  | buffers, 0, _ => by
    refine ⟨buffers, ?_, List.drop_zero.symm⟩
    cases buffers <;> rfl
  | [], n + 1, h => by
    rw [contents, List.flatMap_nil] at h
    exact absurd h (Nat.not_succ_le_zero n)
  | front :: rest, n + 1, h => by
    rw [removeLoop, contents_cons]
    rw [contents_cons, List.length_append] at h
    split
    · -- the prefix ends in this buffer
      rename_i hlt
      obtain ⟨front', hr, hstr⟩ := front.removePrefix_spec (Nat.le_of_lt hlt)
      refine ⟨front' :: rest, by rw [hr]; rfl, ?_⟩
      rw [contents_cons, hstr, List.drop_append_of_le_length (Nat.le_of_lt hlt)]
    · -- the whole buffer goes
      rename_i hge
      obtain ⟨rest', hr, hcontents⟩ := removeLoop_spec rest (n + 1 - front.str.length) (by omega)
      refine ⟨rest', hr, ?_⟩
      rw [hcontents, List.drop_append, List.drop_of_length_le (Nat.not_lt.mp hge), List.nil_append]

/-- A prefix of the contents is removed, whatever buffers it is spread over. -/
theorem removePrefix_spec (l : BufferList) {n : Nat} (h : n ≤ l.size) :
    ∃ l', l.removePrefix n = .ok l' ∧ l'.concatenate = l.concatenate.drop n := by
  rw [size_eq, concatenate_eq] at h
  obtain ⟨buffers', hr, hcontents⟩ := removeLoop_spec l.buffers n h
  refine ⟨⟨buffers'⟩, by rw [removePrefix, hr]; rfl, ?_⟩
  rw [concatenate_eq, concatenate_eq, hcontents]

end BufferList

end Sponge.Storage
