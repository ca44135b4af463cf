import Mathlib.Data.List.Basic
import Mathlib.Logic.Function.Basic
import Mathlib.Tactic.Common

/-!
# Soft state

A table that forgets: a key is unknown, asked for, or bound to a value, and both
of the latter end when they are old enough (`Lifetimes`). `SoftState` keeps the
table with its clock and with its history, the newest entry first.

`Sound` is what the table says about the history: a bound value is the latest
one that was learned for its key and is still fresh, and a key was never asked
for twice within the lifetime of a question. It is kept by asking for an unknown
key (`Sound.ask`), by learning (`Sound.learn`) and by time (`Sound.advance`).
-/

namespace Lib

/-- How long a question is pending and a value is bound. -/
structure Lifetimes where
  ask : Nat
  keep : Nat

inductive Binding (α : Type*) where
  | unknown
  | pending (since : Nat)
  | bound (value : α) (since : Nat)

namespace Binding

variable {α : Type*}

/-- What is left of a binding at `now`. -/
def expire (l : Lifetimes) (now : Nat) : Binding α → Binding α
  | unknown => unknown
  | pending since => if now < since + l.ask then pending since else unknown
  | bound value since => if now < since + l.keep then bound value since else unknown

theorem expire_pending (l : Lifetimes) (now since : Nat) :
    (pending since : Binding α).expire l now =
      if now < since + l.ask then pending since else unknown := rfl

theorem expire_bound (l : Lifetimes) (now : Nat) (value : α) (since : Nat) :
    (bound value since).expire l now =
      if now < since + l.keep then bound value since else unknown := rfl

theorem expire_eq_pending {l : Lifetimes} {now since : Nat} {b : Binding α} :
    b.expire l now = pending since ↔ b = pending since ∧ now < since + l.ask := by
  cases b with
  | unknown => simp [expire]
  | pending since' =>
    rw [expire_pending]
    split <;> simp <;> grind
  | bound value since' =>
    rw [expire_bound]
    split <;> simp

theorem expire_eq_bound {l : Lifetimes} {now since : Nat} {value : α} {b : Binding α} :
    b.expire l now = bound value since ↔ b = bound value since ∧ now < since + l.keep := by
  cases b with
  | unknown => simp [expire]
  | pending since' =>
    rw [expire_pending]
    split <;> simp
  | bound value' since' =>
    rw [expire_bound]
    split <;> simp <;> grind

def Alive (l : Lifetimes) (now : Nat) : Binding α → Prop
  | unknown => True
  | pending since => since ≤ now ∧ now < since + l.ask
  | bound _ since => since ≤ now ∧ now < since + l.keep

/-- A question of the time `asked` is over, or answered, or the one that is pending. -/
def Settles (l : Lifetimes) (now asked : Nat) : Binding α → Prop
  | unknown => asked + l.ask ≤ now
  | pending since => asked ≤ since
  | bound _ since => asked ≤ since

theorem Alive.expire {l : Lifetimes} {now : Nat} {b : Binding α} (h : b.Alive l now) (ms : Nat) :
    (b.expire l (now + ms)).Alive l (now + ms) := by
  cases b with
  | unknown => trivial
  | pending since =>
    obtain ⟨hle, -⟩ := h
    rw [expire_pending]
    split
    · exact ⟨by omega, by assumption⟩
    · trivial
  | bound value since =>
    obtain ⟨hle, -⟩ := h
    rw [expire_bound]
    split
    · exact ⟨by omega, by assumption⟩
    · trivial

theorem Settles.expire {l : Lifetimes} (hl : l.ask ≤ l.keep) {now asked : Nat} {b : Binding α}
    (h : b.Settles l now asked) (ms : Nat) :
    (b.expire l (now + ms)).Settles l (now + ms) asked := by
  cases b with
  | unknown =>
    have hle : asked + l.ask ≤ now := h
    show asked + l.ask ≤ now + ms
    omega
  | pending since =>
    have hle : asked ≤ since := h
    rw [expire_pending]
    split
    · exact hle
    · show asked + l.ask ≤ now + ms
      omega
  | bound value since =>
    have hle : asked ≤ since := h
    rw [expire_bound]
    split
    · exact hle
    · show asked + l.ask ≤ now + ms
      omega

end Binding

/-- A table with its clock and its history. -/
structure SoftState (κ α : Type*) where
  now : Nat
  table : κ → Binding α
  learned : List (κ × α × Nat)
  asked : List (κ × Nat)

namespace SoftState

variable {κ α : Type*} [DecidableEq κ]

def ask (c : SoftState κ α) (k : κ) : SoftState κ α :=
  { c with
    table := Function.update c.table k (.pending c.now)
    asked := (k, c.now) :: c.asked }

def learn (c : SoftState κ α) (k : κ) (value : α) : SoftState κ α :=
  { c with
    table := Function.update c.table k (.bound value c.now)
    learned := (k, value, c.now) :: c.learned }

def advance (l : Lifetimes) (c : SoftState κ α) (ms : Nat) : SoftState κ α :=
  { c with
    now := c.now + ms
    table := fun k => (c.table k).expire l (c.now + ms) }

/-- Two questions for one key are a lifetime apart. -/
def Paced (l : Lifetimes) (asked : List (κ × Nat)) : Prop :=
  asked.Pairwise fun x y => x.1 = y.1 → y.2 + l.ask ≤ x.2

structure Sound (l : Lifetimes) (c : SoftState κ α) : Prop where
  alive : ∀ k, (c.table k).Alive l c.now
  latest : ∀ k value since, c.table k = .bound value since →
    c.learned.lookup k = some (value, since)
  settled : ∀ k t, (k, t) ∈ c.asked → (c.table k).Settles l c.now t
  paced : Paced l c.asked

variable {l : Lifetimes} {c : SoftState κ α}

theorem sound_new (l : Lifetimes) (now : Nat) :
    Sound l ({ now := now, table := fun _ => .unknown, learned := [], asked := [] } :
      SoftState κ α) where
  alive _ := trivial
  latest _ _ _ h := by cases h
  settled _ _ h := by cases h
  paced := List.Pairwise.nil

/-- An unknown key is asked for. -/
theorem Sound.ask (h : Sound l c) (hl : 0 < l.ask) {k : κ} (hk : c.table k = .unknown) :
    Sound l (c.ask k) := by
  -- every question for the key is over
  have hover : ∀ t, (k, t) ∈ c.asked → t + l.ask ≤ c.now := by
    intro t hm
    have hold := h.settled k t hm
    rw [hk] at hold
    exact hold
  refine ⟨?_, ?_, ?_, ?_⟩
  · refine (Function.forall_update_iff c.table fun _ b => b.Alive l c.now).mpr
      ⟨⟨Nat.le_refl _, by omega⟩, fun k' _ => h.alive k'⟩
  · refine (Function.forall_update_iff c.table fun k' b => ∀ value since,
      b = .bound value since → c.learned.lookup k' = some (value, since)).mpr
      ⟨by rintro _ _ ⟨⟩, fun k' _ => h.latest k'⟩
  · refine (Function.forall_update_iff c.table fun k' b => ∀ t,
      (k', t) ∈ (k, c.now) :: c.asked → b.Settles l c.now t).mpr ⟨?_, ?_⟩
    · intro t hm
      rcases List.mem_cons.mp hm with heq | hm
      · cases heq
        exact Nat.le_refl _
      · exact Nat.le_trans (Nat.le_add_right _ _) (hover t hm)
    · intro k' he t hm
      rcases List.mem_cons.mp hm with heq | hm
      · cases heq
        exact absurd rfl he
      · exact h.settled k' t hm
  · refine List.pairwise_cons.mpr ⟨?_, h.paced⟩
    rintro ⟨k', t⟩ hm rfl
    exact hover t hm

theorem Binding.Alive.since_le {b : Binding α} {now asked : Nat} (h : b.Alive l now)
    (hs : b.Settles l now asked) : asked ≤ now := by
  cases b with
  | unknown => exact Nat.le_trans (Nat.le_add_right _ _) hs
  | pending since => exact Nat.le_trans hs h.1
  | bound value since => exact Nat.le_trans hs h.1

theorem Sound.learn (h : Sound l c) (hl : 0 < l.keep) (k : κ) (value : α) :
    Sound l (c.learn k value) := by
  refine ⟨?_, ?_, ?_, h.paced⟩
  · refine (Function.forall_update_iff c.table fun _ b => b.Alive l c.now).mpr
      ⟨⟨Nat.le_refl _, by omega⟩, fun k' _ => h.alive k'⟩
  · refine (Function.forall_update_iff c.table fun k' b => ∀ v since, b = .bound v since →
      ((k, value, c.now) :: c.learned).lookup k' = some (v, since)).mpr ⟨?_, ?_⟩
    · rintro v since ⟨⟩
      exact List.lookup_cons_self
    · intro k' he v since hb
      have hne : (k' == k) = false := beq_eq_false_iff_ne.mpr he
      rw [List.lookup_cons, hne]
      exact h.latest k' v since hb
  · refine (Function.forall_update_iff c.table fun k' b => ∀ t,
      (k', t) ∈ c.asked → b.Settles l c.now t).mpr ⟨?_, fun k' _ => h.settled k'⟩
    exact fun t hm => Binding.Alive.since_le (h.alive k) (h.settled k t hm)

theorem Sound.advance (h : Sound l c) (hl : l.ask ≤ l.keep) (ms : Nat) :
    Sound l (c.advance l ms) where
  alive k := (h.alive k).expire ms
  latest k value since hb := by
    apply h.latest
    simp only [SoftState.advance] at hb
    cases hc : c.table k with
    | unknown =>
      rw [hc] at hb
      cases hb
    | pending since' =>
      rw [hc, Binding.expire_pending] at hb
      split at hb <;> cases hb
    | bound value' since' =>
      rw [hc, Binding.expire_bound] at hb
      split at hb
      · exact hb
      · cases hb
  settled k t hm := (h.settled k t hm).expire hl ms
  paced := h.paced

/-- A bound value is fresh. -/
theorem Sound.fresh (h : Sound l c) {k : κ} {value : α} {since : Nat}
    (hb : c.table k = .bound value since) : c.now < since + l.keep := by
  have halive := h.alive k
  rw [hb] at halive
  exact halive.2

end SoftState

end Lib
