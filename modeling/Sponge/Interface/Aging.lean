import Sponge.Interface.Resolve

/-!
# What a tick leaves

Read over unbounded integers, a tick leaves the mappings and the requests that
have not reached the end of their life, each older by the time that has passed
(`AgesRight`). The counter of an entry is an `int`: in 32 bits, a long time can
leave an entry that has expired, as a young one or as one of the other kind. A
run ages rightly as long as its ticks show what has expired (`along_ages_iff`).
-/

namespace Sponge

open Lib NetworkInterface

namespace NetworkInterface

/-- A mapping, and how long ago it has been learned. -/
def Learned (s : NetworkInterface) (ip : UInt32) (addr : EthernetAddress) (age : Nat) : Prop :=
  s.mapStatus.lookup ip = some (age : Int) ∧ s.addrMap.lookup ip = some addr

/-- A request, and how long ago it has been sent. -/
def Pending (s : NetworkInterface) (ip : UInt32) (age : Nat) : Prop :=
  s.mapStatus.lookup ip = some (-1 - age : Int)

/-- What is learned and pending after a tick. -/
structure AgesRight (s : NetworkInterface) (ms : Nat) : Prop where
  learned : ∀ ip addr age, (s.tickOnce ms).2.Learned ip addr age ↔
    ∃ old, s.Learned ip addr old ∧ age = old + ms ∧ age < 30000
  mapped : ∀ ip addr, (s.tickOnce ms).2.addrMap.lookup ip = some addr →
    ∃ age, (s.tickOnce ms).2.Learned ip addr age
  pending : ∀ ip age, (s.tickOnce ms).2.Pending ip age ↔
    ∃ old, s.Pending ip old ∧ age = old + ms ∧ age < 5000
  kind : ∀ ip status status', s.mapStatus.lookup ip = some status →
    (s.tickOnce ms).2.mapStatus.lookup ip = some status' → (status ≥ 0 ↔ status' ≥ 0)

def stepOnce (s : NetworkInterface) (op : Op) : NetworkInterface := (s.callOnce op).2

/-- The ticks age the entries rightly. -/
def Ages (s : NetworkInterface) : Op → Prop
  | .tick ms => s.AgesRight ms
  | .sendDatagram .. | .recvFrame _ => True

/-- The ticks show what has expired. -/
def TickShows (s : NetworkInterface) : Op → Prop
  | .tick ms => s.ShowsAge ms
  | .sendDatagram .. | .recvFrame _ => True

instance (s : NetworkInterface) : (op : Op) → Decidable (s.TickShows op)
  | .tick ms => inferInstanceAs (Decidable (s.ShowsAge ms))
  | .sendDatagram .. | .recvFrame _ => inferInstanceAs (Decidable True)

end NetworkInterface

namespace Resolver

section
variable {w : Resolver} {table : UInt32 → Binding EthernetAddress} {ms : Nat}
  {ip : UInt32} {addr : EthernetAddress}

theorem Coherent.learned_iff (h : w.Coherent table) {age : Nat} :
    w.iface.Learned ip addr age ↔ ∃ since, table ip = .bound addr since ∧ since + age = w.now := by
  have halive := h.alive ip
  unfold Learned
  rw [h.status_eq, h.addr_eq]
  cases hb : table ip with
  | unknown => simp [written]
  | pending since => simp [written]
  | bound addr' since =>
    rw [hb] at halive
    obtain ⟨hle, -⟩ := halive
    simp only [written, Option.some.injEq, Binding.bound.injEq]
    constructor
    · rintro ⟨hage, rfl⟩
      exact ⟨since, ⟨rfl, rfl⟩, by omega⟩
    · rintro ⟨_, ⟨rfl, rfl⟩, hage⟩
      exact ⟨by omega, rfl⟩

theorem Coherent.pending_iff (h : w.Coherent table) {age : Nat} :
    w.iface.Pending ip age ↔ ∃ since, table ip = .pending since ∧ since + age = w.now := by
  have halive := h.alive ip
  unfold Pending
  rw [h.status_eq]
  cases hb : table ip with
  | unknown => simp [written]
  | pending since =>
    rw [hb] at halive
    obtain ⟨hle, -⟩ := halive
    simp only [written, Option.some.injEq, Binding.pending.injEq]
    constructor
    · intro hage
      exact ⟨since, rfl, by omega⟩
    · rintro ⟨_, rfl, hage⟩
      omega
  | bound addr' since =>
    rw [hb] at halive
    obtain ⟨hle, -⟩ := halive
    simp only [written, Option.some.injEq, reduceCtorEq, false_and, exists_false, iff_false]
    omega

theorem Coherent.learned_of_mapped (h : w.Coherent table)
    (haddr : w.iface.addrMap.lookup ip = some addr) : ∃ age, w.iface.Learned ip addr age := by
  obtain ⟨status, hs, hge⟩ := NetworkInterface.ready_iff.mp
    ((h.ready_iff ip).mpr (by rw [haddr]; rfl))
  exact ⟨status.toNat, by rw [hs, Int.toNat_of_nonneg hge], haddr⟩

/-- What a tick should do keeps the kind of an entry. -/
theorem aged_kind {status : Int} : status ≥ 0 ↔ aged ms status ≥ 0 := by
  unfold aged
  split <;> omega

theorem tickOnce_status {s : NetworkInterface} {status status' : Int}
    (hs : s.mapStatus.lookup ip = some status)
    (hs' : (s.tickOnce ms).2.mapStatus.lookup ip = some status') :
    Stays ms status ∧ status' = agedInt ms status := by
  have hentry : (s.tickOnce ms).2.entry ip = turnInt ms (some status, s.addrMap.lookup ip) := by
    rw [tickOnce_entry, entry, hs]
  have hfst := congrArg Prod.fst hentry
  rw [show ((s.tickOnce ms).2.entry ip).1 = some status' from hs', turnInt] at hfst
  split at hfst
  · rename_i hstays
    cases hfst
    exact ⟨hstays, rfl⟩
  · cases hfst

/-- Ticks that show what has expired leave what the table keeps. -/
theorem Coherent.agesRight (h : w.Coherent table) (hms : w.iface.ShowsAge ms) :
    w.iface.AgesRight ms := by
  have hnext := (h.tick hms).1
  have hnow : (w.step (.tick ms)).now = w.now + ms := rfl
  have hkeep : lifetimes.keep = 30000 := rfl
  have hask : lifetimes.ask = 5000 := rfl
  refine ⟨fun ip addr age => ?_, fun ip addr haddr => hnext.learned_of_mapped haddr,
    fun ip age => ?_, fun ip status status' hs hs' => ?_⟩
  · change (w.step (.tick ms)).iface.Learned ip addr age ↔ _
    simp only [h.learned_iff, hnext.learned_iff, Binding.expire_eq_bound, hnow, hkeep]
    have halive := h.alive ip
    constructor
    · rintro ⟨since, ⟨hb, hlt⟩, hage⟩
      rw [hb] at halive
      obtain ⟨hle, -⟩ := halive
      exact ⟨w.now - since, ⟨since, hb, by omega⟩, by omega, by omega⟩
    · rintro ⟨old, ⟨since, hb, hold⟩, hage, hlt⟩
      exact ⟨since, ⟨hb, by omega⟩, by omega⟩
  · change (w.step (.tick ms)).iface.Pending ip age ↔ _
    simp only [h.pending_iff, hnext.pending_iff, Binding.expire_eq_pending, hnow, hask]
    have halive := h.alive ip
    constructor
    · rintro ⟨since, ⟨hb, hlt⟩, hage⟩
      rw [hb] at halive
      obtain ⟨hle, -⟩ := halive
      exact ⟨w.now - since, ⟨since, hb, by omega⟩, by omega, by omega⟩
    · rintro ⟨old, ⟨since, hb, hold⟩, hage, hlt⟩
      exact ⟨since, ⟨hb, by omega⟩, by omega⟩
  · obtain ⟨hstays, rfl⟩ := tickOnce_status hs hs'
    have hlives : Lives ms status :=
      (shows_iff.mp (showsAge_iff.mp hms ip status hs)).resolve_right (not_not.mpr hstays)
    rw [agedInt_lives hlives]
    exact aged_kind

/-- An entry that has expired and stays is there with an age it does not have, or as one of the
other kind. -/
theorem Coherent.showsAge_of_agesRight (h : w.Coherent table) (hages : w.iface.AgesRight ms) :
    w.iface.ShowsAge ms := by
  rw [showsAge_iff]
  intro ip status hs
  by_contra hno
  rw [shows_iff, not_or, not_not] at hno
  obtain ⟨hexpired, hstays⟩ := hno
  have hentry : (w.iface.tickOnce ms).2.entry ip =
      (some (agedInt ms status), w.iface.addrMap.lookup ip) := by
    rw [tickOnce_entry, entry, hs]
    exact if_pos hstays
  have hs' : (w.iface.tickOnce ms).2.mapStatus.lookup ip = some (agedInt ms status) :=
    congrArg Prod.fst hentry
  have hkind := hages.kind ip status _ hs hs'
  by_cases hge : status ≥ 0
  · -- a mapping that is too old
    obtain ⟨addr, haddr⟩ := Option.isSome_iff_exists.mp
      ((h.ready_iff ip).mp (NetworkInterface.ready_iff.mpr ⟨status, hs, hge⟩))
    have hnew : (w.iface.tickOnce ms).2.Learned ip addr (agedInt ms status).toNat := by
      refine ⟨?_, (congrArg Prod.snd hentry).trans haddr⟩
      rw [hs', Int.toNat_of_nonneg (hkind.mp hge)]
    obtain ⟨old, ⟨hold, -⟩, hage, hlt⟩ := (hages.learned ip addr _).mp hnew
    rw [hs, Option.some.injEq] at hold
    exact hexpired ⟨fun _ => by omega, fun _ => by omega⟩
  · -- a request that is too old
    have hneg : ¬ agedInt ms status ≥ 0 := mt hkind.mpr hge
    have hnew : (w.iface.tickOnce ms).2.Pending ip (-1 - agedInt ms status).toNat := by
      unfold Pending
      rw [hs', Int.toNat_of_nonneg (by omega)]
      congr 1
      omega
    obtain ⟨old, hold, hage, hlt⟩ := (hages.pending ip _).mp hnew
    unfold Pending at hold
    rw [hs, Option.some.injEq] at hold
    exact hexpired ⟨fun _ => by omega, fun _ => by omega⟩

theorem Coherent.ages_iff (h : w.Coherent table) (op : Op) :
    w.iface.Ages op ↔ w.iface.TickShows op := by
  cases op with
  | sendDatagram dgram nextHop => exact Iff.rfl
  | recvFrame frame => exact Iff.rfl
  | tick ms => exact ⟨h.showsAge_of_agesRight, h.agesRight⟩

end

end Resolver

namespace NetworkInterface

/-- **The age of an entry.** The ticks of a run age all entries rightly exactly when each of them
shows what has expired. -/
theorem along_ages_iff (ethernetAddress : EthernetAddress) (ipAddress : Address) (ops : List Op) :
    Along stepOnce Ages { ethernetAddress, ipAddress } ops ↔
      Along stepOnce TickShows { ethernetAddress, ipAddress } ops := by
  have htrue : Along stepOnce (fun _ _ => True) { ethernetAddress, ipAddress } ops :=
    along_of_forall fun _ _ => trivial
  have hnew : ∃ w table, Resolver.Coherent w table ∧
      w.iface = { ethernetAddress, ipAddress } :=
    ⟨_, _, Resolver.coherent_new ethernetAddress ipAddress, rfl⟩
  refine along_iff_along (I := fun s => ∃ w table, Resolver.Coherent w table ∧ w.iface = s)
    htrue hnew ?_ ?_
  · rintro _ op ⟨w, table, h, rfl⟩ - hshows
    have hms : ∀ ms, op = .tick ms → w.iface.ShowsAge ms := by
      rintro ms rfl
      exact hshows
    obtain ⟨table', hnext⟩ := (h.step hms).1
    exact ⟨w.step op, table', hnext, rfl⟩
  · rintro _ op ⟨w, table, h, rfl⟩ -
    exact h.ages_iff op

/-- To the request, 2^32 ms are no time; the mapping is a request after 2^31 ms. -/
theorem tick_unseen :
    (run stepOnce { ethernetAddress := Outbound.localEth, ipAddress := ⟨0x04030201⟩ }
      [.sendDatagram (Outbound.byteDatagram 1) ⟨0xc0a80001⟩, .tick (2 ^ 32)]).mapStatus.lookup
        0xc0a80001 = some (-1) ∧
    (run stepOnce { ethernetAddress := Outbound.localEth, ipAddress := ⟨0x04030201⟩ }
      [.recvFrame (Outbound.replyFrom 1), .tick (2 ^ 31)]).mapStatus.lookup
        0xc0a80001 = some (-2147483648) ∧
    ¬ Along stepOnce Ages { ethernetAddress := Outbound.localEth, ipAddress := ⟨0x04030201⟩ }
      [.sendDatagram (Outbound.byteDatagram 1) ⟨0xc0a80001⟩, .tick (2 ^ 32)] := by
  refine ⟨by decide, by decide +kernel, fun h => ?_⟩
  have hages : AgesRight _ (2 ^ 32) := h.2.1
  obtain ⟨old, -, hage, -⟩ := (hages.pending 0xc0a80001 0).mp (by unfold Pending; decide)
  omega

end NetworkInterface

end Sponge
