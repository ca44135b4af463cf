import Mathlib.Data.List.Infix

/-!
# Two parties that exchange bytes

The books of a party hold what it has taken from its partner and whether it has
been told the end, what it has given, and whether it has ended that.

Where nothing is taken but the front of what was given and has not been taken yet,
each party has at all times taken a prefix of what the other has given (`Joined`).
Where the end is told only after all has been taken, and nothing is given after it,
a party that has been told the end has taken everything (`Heard`).
-/

namespace Lib

structure Books (α : Type*) where
  taken : List α
  told : Bool := false
  given : List α
  ended : Bool := false

namespace Books

variable {α : Type*}

/-- Nothing is taken, and nothing that was given is lost. -/
structure Grows (a a' : Books α) : Prop where
  taken : a'.taken = a.taken
  told : a'.told = a.told
  given : a.given <+: a'.given
  ended : a.ended = true → a'.ended = true

/-- The items `data`, if any, are taken; that there are none tells the end. -/
structure Takes (data : Option (List α)) (a a' : Books α) : Prop where
  taken : ∃ items ∈ data, a'.taken = a.taken ++ items
  told : a'.told = true → a.told = true ∨ data = some []
  given : a.given <+: a'.given
  ended : a.ended = true → a'.ended = true

/-- Each has taken a prefix of what the other has given. -/
structure Joined (a b : Books α) : Prop where
  left : a.taken <+: b.given
  right : b.taken <+: a.given

/-- If `a` has been told the end, it has taken all that `b` has given and will ever give. -/
def Heard (a b : Books α) : Prop := a.told = true → b.ended = true ∧ a.taken = b.given

variable {a a' a'' b b' : Books α} {data : Option (List α)}

theorem Grows.refl (a : Books α) : a.Grows a := ⟨rfl, rfl, List.prefix_rfl, id⟩

theorem Grows.trans (h : a.Grows a') (h' : a'.Grows a'') : a.Grows a'' :=
  ⟨h'.taken.trans h.taken, h'.told.trans h.told, h.given.trans h'.given, h'.ended ∘ h.ended⟩

theorem Grows.takes (h : a.Grows a') (h' : a'.Takes data a'') : a.Takes data a'' := by
  obtain ⟨items, hm, heq⟩ := h'.taken
  refine ⟨⟨items, hm, by rw [heq, h.taken]⟩, ?_, h.given.trans h'.given, h'.ended ∘ h.ended⟩
  rw [← h.told]
  exact h'.told

theorem Takes.grows (h : a.Takes data a') (h' : a'.Grows a'') : a.Takes data a'' := by
  obtain ⟨items, hm, heq⟩ := h.taken
  refine ⟨⟨items, hm, h'.taken.trans heq⟩, ?_, h.given.trans h'.given, h'.ended ∘ h.ended⟩
  rw [h'.told]
  exact h.told

theorem Joined.symm (h : Joined a b) : Joined b a := ⟨h.right, h.left⟩

theorem Joined.grows (h : Joined a b) (hg : a.Grows a') : Joined a' b :=
  ⟨hg.taken ▸ h.left, h.right.trans hg.given⟩

/-- What is taken is the front of what is there. -/
theorem Joined.takes (h : Joined a b) (ht : a.Takes data a')
    (hd : ∀ items ∈ data, a.taken ++ items <+: b.given) : Joined a' b := by
  obtain ⟨items, hm, heq⟩ := ht.taken
  exact ⟨heq ▸ hd items hm, h.right.trans ht.given⟩

theorem Heard.grows (h : Heard a b) (hg : a.Grows a') : Heard a' b := by
  unfold Heard
  rw [hg.told, hg.taken]
  exact h

/-- The end is told of what has been ended and taken. -/
theorem Heard.takes (h : Heard a b) (ht : a.Takes data a')
    (hd : ∀ items ∈ data, a.taken ++ items <+: b.given)
    (hend : data = some [] → b.ended = true ∧ a.taken = b.given) : Heard a' b := by
  obtain ⟨items, hm, heq⟩ := ht.taken
  intro htold
  obtain ⟨hb, hall⟩ := (ht.told htold).elim h hend
  have hnil : items = [] := by
    have hp := (hd items hm).length_le
    rw [← hall, List.length_append] at hp
    exact List.length_eq_zero_iff.mp (by omega)
  rw [heq, hnil, List.append_nil]
  exact ⟨hb, hall⟩

/-- Nothing is given after the end. -/
theorem Heard.given (h : Heard a b) (hended : b.ended = true → b'.ended = true)
    (hsilent : b.ended = true → b'.given = b.given) : Heard a b' := by
  intro htold
  obtain ⟨hb, hall⟩ := h htold
  exact ⟨hended hb, hall.trans (hsilent hb).symm⟩

end Books

end Lib
