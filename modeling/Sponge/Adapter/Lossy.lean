import Sponge.Network.Enqueued

/-!
# Adapters that drop

`FdAdapter` is what `LossyFdAdapter` asks of the adapter it wraps. A read is dropped
only after that adapter has seen the message, so that a SYN can be lost which has
made a listening adapter take up its sender.

`LawfulFdAdapter` says what the adapters have in common: which messages get through
(`read_cases`), and what becomes of those that two of them exchange (`read_own`,
`read_other`). An adapter that keeps to it has one peer (`reads_onePeer`).
-/

namespace Sponge

open Lib

/-- An adapter, and the messages that its device takes and gives. -/
class FdAdapter (α : Type) (μ : outParam Type) where
  config : α → FdAdapterConfig
  listening : α → Bool
  /-- The device hands the message to the adapter. -/
  reaches : α → μ → Bool
  read : α → μ → Except String (Option TCPSegment × α)
  write : α → TCPSegment → Except String μ

/-- The loss rates are those of the configuration. -/
structure LossyFdAdapter (α : Type) where
  adapter : α
  lossRateDn : UInt16 := 0
  lossRateUp : UInt16 := 0
  deriving DecidableEq, Repr

namespace LossyFdAdapter

variable {α μ : Type} [FdAdapter α μ]

/-- `rand` is the number that is drawn. -/
def shouldDrop (a : LossyFdAdapter α) (uplink : Bool) (rand : UInt32) : Bool :=
  let loss := if uplink then a.lossRateUp else a.lossRateDn
  decide (loss ≠ 0 ∧ rand.toUInt16 < loss)

/-- What a read returns, and the adapter behind it. -/
def read (a : LossyFdAdapter α) (m : μ) (rand : UInt32) :
    Except String (Option TCPSegment × LossyFdAdapter α) := do
  let ret ← FdAdapter.read a.adapter m
  let a := { a with adapter := ret.2 }
  if a.shouldDrop false rand then return (none, a) else return (ret.1, a)

/-- What is written, if anything. -/
def write (a : LossyFdAdapter α) (seg : TCPSegment) (rand : UInt32) : Except String (Option μ) :=
  if a.shouldDrop true rand then .ok none else (FdAdapter.write a.adapter seg).map some

/-- The segment that a read returns, if any. -/
def returned (a : LossyFdAdapter α) (m : μ × UInt32) : Option TCPSegment :=
  (a.read m.1 m.2).toOption.bind Prod.fst

/-- The adapter after a read. -/
def hears (a : LossyFdAdapter α) (m : μ × UInt32) : LossyFdAdapter α :=
  (a.read m.1 m.2).toOption.elim a Prod.snd

end LossyFdAdapter

class LawfulFdAdapter (α : Type) (μ : outParam Type) [FdAdapter α μ] where
  /-- Where a message comes from. -/
  origin : μ → SocketAddress
  /-- A message carries a segment that opens a connection. -/
  opens : μ → Bool
  /-- A message is dropped by the adapter as it was; or it comes from its peer, which it may have
  taken up just now. -/
  read_cases : ∀ (a : α) (m : μ), FdAdapter.read a m = .ok (none, a) ∨
    ∃ seg a', FdAdapter.read a m = .ok (some seg, a') ∧ FdAdapter.listening a' = false ∧
      origin m = (FdAdapter.config a').destination ∧
      (a' = a ∨ (FdAdapter.listening a = true ∧ opens m = true))
  /-- What `a` sends is not accepted by `r`, of the same host. -/
  Apart : α → α → Prop
  read_own : ∀ {a r : α} {seg : TCPSegment} {m : μ}, Apart a r → seg.FitsDatagram →
    FdAdapter.write a seg = .ok m → FdAdapter.reaches r m = true →
    FdAdapter.read r m = .ok (none, r)
  /-- What `a` sends is accepted by `r` of the other host as it was sent. -/
  read_other : ∀ {a b r r' : α} {seg seg' : TCPSegment} {m : μ}, Apart a b →
    seg.FitsDatagram → FdAdapter.write a seg = .ok m → FdAdapter.reaches r m = true →
    FdAdapter.read r m = .ok (some seg', r') →
    Alike seg seg' ∧ Apart r' r' ∧ ∀ c, Apart c r → Apart c r'

namespace LossyFdAdapter

variable {α μ : Type} [FdAdapter α μ] {a a' : LossyFdAdapter α} {m : μ} {rand : UInt32}
  {seg : TCPSegment}

/-- A read is that of the adapter below, or drops what that returns. -/
theorem read_of_ok {ret : Option TCPSegment × α} (h : FdAdapter.read a.adapter m = .ok ret)
    (rand : UInt32) :
    a.read m rand = .ok (none, { a with adapter := ret.2 }) ∨
      a.read m rand = .ok (ret.1, { a with adapter := ret.2 }) := by
  rw [LossyFdAdapter.read, h]
  simp only [bind, Except.bind]
  split
  · exact .inl rfl
  · exact .inr rfl

/-- What is written is what the adapter below writes. -/
theorem write_some (h : a.write seg rand = .ok (some m)) :
    FdAdapter.write a.adapter seg = .ok m := by
  unfold LossyFdAdapter.write at h
  split at h
  · cases h
  · cases hw : FdAdapter.write a.adapter seg with
    | error what => rw [hw] at h; cases h
    | ok m' =>
      rw [hw] at h
      rw [Option.some.inj (Except.ok.inj h)]

variable [LawfulFdAdapter α μ]

open LawfulFdAdapter FdAdapter

/-- A read drops the message; or the message makes the adapter take up a peer; or it comes from
the peer. -/
theorem read_cases (a : LossyFdAdapter α) (m : μ) (rand : UInt32) :
    a.read m rand = .ok (none, a) ∨
    ∃ seg a', FdAdapter.read a.adapter m = .ok (some seg, a') ∧
      (a.read m rand = .ok (none, { a with adapter := a' }) ∨
        a.read m rand = .ok (some seg, { a with adapter := a' })) ∧
      listening a' = false ∧ LawfulFdAdapter.origin α m = (config a').destination ∧
      (a' = a.adapter ∨ (listening a.adapter = true ∧ LawfulFdAdapter.opens α m = true)) := by
  rcases LawfulFdAdapter.read_cases a.adapter m with heq | ⟨seg, a', heq, hrest⟩
  · left
    rcases read_of_ok heq rand with hr | hr <;> exact hr
  · exact .inr ⟨seg, a', heq, read_of_ok heq rand, hrest⟩

/-- A message is ignored, or comes from the peer that the adapter then has. -/
theorem hears_cases (a : LossyFdAdapter α) (m : μ × UInt32) :
    (a.returned m = none ∧ a.hears m = a) ∨
      (listening (a.hears m).adapter = false ∧
        origin α m.1 = (config (a.hears m).adapter).destination ∧
        (a.hears m = a ∨ (listening a.adapter = true ∧ opens α m.1 = true))) := by
  rcases a.read_cases m.1 m.2 with heq | ⟨seg, a', -, heq, hlisten, hfrom, hstays⟩
  · left
    unfold returned hears
    rw [heq]
    exact ⟨rfl, rfl⟩
  · right
    have hears_eq : a.hears m = { a with adapter := a' } := by
      unfold hears
      rcases heq with heq | heq <;> rw [heq] <;> rfl
    rw [hears_eq]
    refine ⟨hlisten, hfrom, hstays.imp_left fun heq => ?_⟩
    rw [heq]

/-- A connected adapter stays as it is. -/
theorem hears_connected (h : listening a.adapter = false) (m : μ × UInt32) : a.hears m = a := by
  rcases a.hears_cases m with ⟨-, heq⟩ | ⟨-, -, heq | ⟨hlisten, -⟩⟩
  · exact heq
  · exact heq
  · rw [h] at hlisten
    cases hlisten

theorem run_hears_connected (h : listening a.adapter = false) (ms : List (μ × UInt32)) :
    run hears a ms = a :=
  run_inv (I := fun b => b = a) rfl (fun b m hb => by rw [hb, hears_connected h]) ms

/-- Whatever comes in, all that is returned comes from the one peer that the adapter ends up
with, and nothing but an opening segment of this peer changes the adapter. -/
theorem reads_onePeer (a : LossyFdAdapter α) (ms : List (μ × UInt32)) :
    Along hears (fun b m =>
      (∀ seg ∈ b.returned m, origin α m.1 = (config (run hears a ms).adapter).destination) ∧
      (b.hears m = b ∨ (listening b.adapter = true ∧ opens α m.1 = true ∧
        origin α m.1 = (config (run hears a ms).adapter).destination))) a ms := by
  induction ms generalizing a with
  | nil => trivial
  | cons m ms ih =>
    refine ⟨?_, ih (a.hears m)⟩
    rcases a.hears_cases m with ⟨hnone, heq⟩ | ⟨hlisten, hfrom, hstays⟩
    · rw [hnone]
      exact ⟨(fun _ h => nomatch h), .inl heq⟩
    · have hrun : run hears a (m :: ms) = a.hears m := by
        rw [run_cons, run_hears_connected hlisten]
      rw [hrun]
      exact ⟨fun _ _ => hfrom, hstays.imp_right fun ⟨h, hopens⟩ => ⟨h, hopens, hfrom⟩⟩

end LossyFdAdapter

end Sponge
