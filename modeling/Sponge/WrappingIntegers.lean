import Mathlib.Algebra.Order.Ring.Nat
import Mathlib.Tactic.Common

/-!
# Wrapping 32-bit sequence numbers

`WrappingInt32` is a raw 32-bit value. `wrap` turns an absolute 64-bit number
into one, relative to an initial sequence number; `unwrap` picks the absolute
number next to a checkpoint. A 64-bit number is a `Nat`; the operations whose
result can leave the 64-bit range say so (`sub64`, the sum in `unwrap`).

All facts about `unwrap` come from `unwrap_wrap`, which gives its value on
`wrap p isn` as arithmetic on `p` and the checkpoint; `unwrap_closest` says what
it is for.
-/

namespace Sponge

/-- Unsigned 64-bit subtraction. -/
def sub64 (a b : Nat) : Nat := (a + (2 ^ 64 - b % 2 ^ 64)) % 2 ^ 64

theorem sub64_of_le {a b : Nat} (h : b ≤ a) (ha : a - b < 2 ^ 64) : sub64 a b = a - b := by
  unfold sub64; omega

theorem sub64_eq_zero_iff {a b : Nat} (ha : a < 2 ^ 64) (hb : b < 2 ^ 64) :
    sub64 a b = 0 ↔ a = b := by
  unfold sub64; omega

theorem sub64_lt (a b : Nat) : sub64 a b < 2 ^ 64 := Nat.mod_lt _ (by decide)

theorem sub64_add {a b n : Nat} (h : sub64 a b + n < 2 ^ 64) :
    sub64 (a + n) b = sub64 a b + n := by
  unfold sub64 at *
  omega

structure WrappingInt32 where
  rawValue : UInt32
  deriving DecidableEq, Repr

namespace WrappingInt32

/-- The point `b` steps past `a`. -/
def add (a : WrappingInt32) (b : UInt32) : WrappingInt32 := ⟨a.rawValue + b⟩

end WrappingInt32

/-- Transform an absolute 64-bit sequence number into a relative one. -/
def wrap (n : Nat) (isn : WrappingInt32) : WrappingInt32 :=
  ⟨UInt32.ofNat (n % 2 ^ 32 + isn.rawValue.toNat)⟩

/-- Transform a relative sequence number into an absolute one near `checkpoint`. -/
def unwrap (n isn : WrappingInt32) (checkpoint : Nat) : Nat :=
  let diff := (n.rawValue - (wrap checkpoint isn).rawValue).toNat
  let res := (diff + checkpoint) % 2 ^ 64
  if 2 ^ 31 ≤ diff ∧ 2 ^ 32 ≤ res then res - 2 ^ 32 else res

theorem WrappingInt32.ext_toNat {a b : WrappingInt32}
    (h : a.rawValue.toNat = b.rawValue.toNat) : a = b := by
  cases a; cases b; simpa using UInt32.toNat_inj.mp h

theorem wrap_toNat (n : Nat) (isn : WrappingInt32) :
    (wrap n isn).rawValue.toNat = (n + isn.rawValue.toNat) % 2 ^ 32 := by
  simp only [wrap, UInt32.toNat_ofNat']; omega

theorem wrap_eq_wrap {a b : Nat} {isn : WrappingInt32} :
    wrap a isn = wrap b isn ↔ a % 2 ^ 32 = b % 2 ^ 32 := by
  have hi := isn.rawValue.toNat_lt
  constructor
  · intro h
    have h' := congrArg (·.rawValue.toNat) h
    simp only [wrap_toNat] at h'
    omega
  · intro h
    apply WrappingInt32.ext_toNat
    simp only [wrap_toNat]
    omega

@[simp] theorem wrap_zero (isn : WrappingInt32) : wrap 0 isn = isn := by
  have hi := isn.rawValue.toNat_lt
  apply WrappingInt32.ext_toNat
  rw [wrap_toNat]; omega

/-- Adding to a relative number adds to the absolute one. -/
theorem wrap_add (a b : Nat) (isn : WrappingInt32) :
    (wrap a isn).add (UInt32.ofNat b) = wrap (a + b) isn := by
  apply WrappingInt32.ext_toNat
  simp only [WrappingInt32.add, UInt32.toNat_add, wrap_toNat, UInt32.toNat_ofNat']
  omega

theorem add_one_eq_wrap (isn : WrappingInt32) : isn.add 1 = wrap 1 isn := by
  have h := wrap_add 0 1 isn
  rwa [wrap_zero] at h

/-- Every relative number is the image of some absolute one. -/
theorem exists_wrap (n isn : WrappingInt32) : ∃ a, a < 2 ^ 32 ∧ wrap a isn = n := by
  have hn := n.rawValue.toNat_lt
  have hi := isn.rawValue.toNat_lt
  refine ⟨(n.rawValue.toNat + (2 ^ 32 - isn.rawValue.toNat)) % 2 ^ 32, Nat.mod_lt _ (by decide), ?_⟩
  apply WrappingInt32.ext_toNat
  rw [wrap_toNat]; omega

/-- How far `p` lies past `c`, modulo 2^32. -/
def spread (p c : Nat) : Nat := (p + (2 ^ 32 - c % 2 ^ 32)) % 2 ^ 32

theorem unwrap_wrap (p c : Nat) (isn : WrappingInt32) :
    unwrap (wrap p isn) isn c =
      if 2 ^ 31 ≤ spread p c ∧ 2 ^ 32 ≤ (spread p c + c) % 2 ^ 64
      then (spread p c + c) % 2 ^ 64 - 2 ^ 32 else (spread p c + c) % 2 ^ 64 := by
  have hd : ((wrap p isn).rawValue - (wrap c isn).rawValue).toNat = spread p c := by
    have hi := isn.rawValue.toNat_lt
    rw [UInt32.toNat_sub, wrap_toNat, wrap_toNat, spread]
    omega
  simp only [unwrap, hd]

/-- `unwrap` returns a number that wraps to its argument. -/
theorem wrap_unwrap (n isn : WrappingInt32) (c : Nat) : wrap (unwrap n isn c) isn = n := by
  obtain ⟨p, -, rfl⟩ := exists_wrap n isn
  rw [wrap_eq_wrap, unwrap_wrap, spread]
  split <;> omega

theorem unwrap_lt (n isn : WrappingInt32) (c : Nat) : unwrap n isn c < 2 ^ 64 := by
  have h : ((n.rawValue - (wrap c isn).rawValue).toNat + c) % 2 ^ 64 < 2 ^ 64 :=
    Nat.mod_lt _ (by decide)
  simp only [unwrap]
  split <;> omega

/-- A number less than half the ring away from the checkpoint is recovered. -/
theorem unwrap_wrap_near {p c : Nat} (isn : WrappingInt32) (hc : c + 2 ^ 32 ≤ 2 ^ 64)
    (h1 : c ≤ p + 2 ^ 31) (h2 : p < c + 2 ^ 31) : unwrap (wrap p isn) isn c = p := by
  rw [unwrap_wrap, spread]
  split <;> omega

/-- The checkpoint itself is never read as a larger number. -/
theorem unwrap_wrap_self_le (p : Nat) (isn : WrappingInt32) :
    unwrap (wrap p isn) isn p ≤ p := by
  have hz : spread p p = 0 := by
    unfold spread
    omega
  rw [unwrap_wrap, hz]
  split <;> omega

/-- A number not far below the checkpoint is never read as a larger one. -/
theorem unwrap_wrap_le {p c : Nat} (isn : WrappingInt32) (hc : c + 2 ^ 32 ≤ 2 ^ 64)
    (h : c ≤ p + 2 ^ 31) : unwrap (wrap p isn) isn c ≤ p := by
  rw [unwrap_wrap, spread]
  split <;> omega

/-- A number at or below the checkpoint is never read as a smaller one. -/
theorem le_unwrap_wrap {p c : Nat} (isn : WrappingInt32) (hc : c + 2 ^ 32 ≤ 2 ^ 64)
    (h : p ≤ c) : p ≤ unwrap (wrap p isn) isn c := by
  rw [unwrap_wrap, spread]
  split <;> omega

/-- At exactly half the ring above the checkpoint, the reading is the number
itself or one full ring below. -/
theorem unwrap_wrap_tie {p c : Nat} (isn : WrappingInt32) (hc : c + 2 ^ 32 ≤ 2 ^ 64)
    (h : p = c + 2 ^ 31) :
    unwrap (wrap p isn) isn c = p ∨ unwrap (wrap p isn) isn c + 2 ^ 32 = p := by
  rw [unwrap_wrap, spread]
  split <;> omega

/-! ## The closest number -/

/-- How far apart two absolute numbers are. -/
def distance (a b : Nat) : Nat := Int.natAbs ((a : Int) - b)

/-- Half a ring away at most; or above the checkpoint, with nothing one ring below. -/
def Nearest (r c : Nat) : Prop := distance r c ≤ 2 ^ 31 ∨ (r < 2 ^ 32 ∧ c ≤ r)

/-- Numbers that wrap alike are whole rings apart. -/
theorem Nearest.distance_le {r s c : Nat} {isn : WrappingInt32} (hr : Nearest r c)
    (h : wrap r isn = wrap s isn) : distance r c ≤ distance s c := by
  rw [wrap_eq_wrap] at h
  unfold Nearest distance at *
  omega

theorem unwrap_nearest (n isn : WrappingInt32) {c : Nat} (hc : c ≤ 2 ^ 64 - 2 ^ 32) :
    Nearest (unwrap n isn c) c := by
  obtain ⟨p, -, rfl⟩ := exists_wrap n isn
  rw [unwrap_wrap, spread]
  unfold Nearest distance
  split <;> omega

/-- **`unwrap` returns the closest absolute number.** No 64-bit number that wraps to `n` is
closer to the checkpoint, so that a number less than half a ring away is recovered. -/
theorem unwrap_closest (n isn : WrappingInt32) {c : Nat} (hc : c ≤ 2 ^ 64 - 2 ^ 32) :
    wrap (unwrap n isn c) isn = n ∧
      (∀ s < 2 ^ 64, wrap s isn = n → distance (unwrap n isn c) c ≤ distance s c) ∧
      ∀ v < 2 ^ 64, distance v c < 2 ^ 31 → unwrap (wrap v isn) isn c = v := by
  refine ⟨wrap_unwrap n isn c, fun s _ hs => ?_, fun v _ hv => ?_⟩
  · exact (unwrap_nearest n isn hc).distance_le ((wrap_unwrap n isn c).trans hs.symm)
  · unfold distance at hv
    exact unwrap_wrap_near isn (by omega) (by omega) (by omega)

/-- Half a ring below the checkpoint and half a ring above it are equally close; the lower
number is returned. -/
theorem unwrap_closest_tie : unwrap ⟨0x80000000⟩ ⟨0⟩ (2 ^ 32) = 2 ^ 31 ∧
    ∀ s < 2 ^ 64, wrap s ⟨0⟩ = ⟨0x80000000⟩ →
      distance (unwrap ⟨0x80000000⟩ ⟨0⟩ (2 ^ 32)) (2 ^ 32) ≤ distance s (2 ^ 32) :=
  ⟨by decide, (unwrap_closest ⟨0x80000000⟩ ⟨0⟩ (by decide)).2.1⟩

end Sponge
