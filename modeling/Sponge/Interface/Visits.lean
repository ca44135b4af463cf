import Sponge.Interface.Flush

/-!
# A tick that visits every entry

`tick` moves on from an entry that it may have erased. `tickOnce` is `tick` with
its loop read as visiting each entry present at its start exactly once; where the
loop of `tick` comes to its end, it is `tick` (`tick_eq_tickOnce`).

Both maps together hold one entry for each IP (`entry`), and what a tick does to
it is `turnInt`, whatever the others are (`tickEach_entry`). In unbounded
integers it would be `turn`; the two agree exactly where the `int` of the entry
shows that it has expired (`turnInt_eq_iff`).
-/

namespace Sponge.NetworkInterface

def visitAll (ms : Nat) (ips : List UInt32) (s : NetworkInterface) : NetworkInterface :=
  ips.foldl (fun s ip => (s.visit ms ip).1) s

/-- Each entry is visited once. -/
def tickEach (s : NetworkInterface) (msSinceLastTick : Nat) : NetworkInterface :=
  visitAll msSinceLastTick (s.mapStatus.keys.insertionSort (· ≤ ·)) s

def tickOnce (s : NetworkInterface) (msSinceLastTick : Nat) : Outcome × NetworkInterface :=
  (s.tickEach msSinceLastTick).sendStageDatagram

def callOnce (s : NetworkInterface) : Op → Outcome × NetworkInterface
  | .sendDatagram dgram nextHop => s.sendDatagram dgram nextHop
  | .recvFrame frame => s.recvFrame frame
  | .tick ms => s.tickOnce ms

/-- What the two maps hold for `ip`. -/
def entry (s : NetworkInterface) (ip : UInt32) : Option Int × Option EthernetAddress :=
  (s.mapStatus.lookup ip, s.addrMap.lookup ip)

/-- An entry of this age does not expire within `ms`. -/
def Lives (ms : Nat) (status : Int) : Prop :=
  (status ≥ 0 → status + ms < 30000) ∧ (status < 0 → -5001 < status - ms)

instance (ms : Nat) (status : Int) : Decidable (Lives ms status) :=
  inferInstanceAs (Decidable (_ ∧ _))

/-- What a tick does to an entry. -/
def turn (ms : Nat) : Option Int × Option EthernetAddress → Option Int × Option EthernetAddress
  | (none, addr) => (none, addr)
  | (some status, addr) =>
    if Lives ms status then (some (aged ms status), addr)
    else (none, if status ≥ 0 then none else addr)

theorem turn_lives {ms : Nat} {status : Int} (h : Lives ms status)
    (addr : Option EthernetAddress) :
    turn ms (some status, addr) = (some (aged ms status), addr) := if_pos h

theorem turn_expires {ms : Nat} {status : Int} (h : ¬ Lives ms status)
    (addr : Option EthernetAddress) :
    turn ms (some status, addr) = (none, if status ≥ 0 then none else addr) := if_neg h

/-- What a visit does to an entry. -/
def turnInt (ms : Nat) :
    Option Int × Option EthernetAddress → Option Int × Option EthernetAddress
  | (none, addr) => (none, addr)
  | (some status, addr) =>
    if Stays ms status then (some (agedInt ms status), addr)
    else (none, if status ≥ 0 then none else addr)

/-- How long an entry has been there. -/
def age (status : Int) : Int := if status ≥ 0 then status else -1 - status

def lifetime (status : Int) : Int := if status ≥ 0 then 30000 else 5000

/-- The `int` of an entry shows whether it has expired. -/
def Shows (ms : Nat) (status : Int) : Prop :=
  age status + ms < lifetime status ∨
    lifetime status ≤ (age status + ms) % 2 ^ 32 ∧ (age status + ms) % 2 ^ 32 < 2 ^ 31

instance (ms : Nat) (status : Int) : Decidable (Shows ms status) :=
  inferInstanceAs (Decidable (_ ∨ _))

theorem lives_iff {ms : Nat} {status : Int} :
    Lives ms status ↔ age status + ms < lifetime status := by
  unfold Lives age lifetime
  split <;> omega

/-- An entry goes when its age, in 32 bits, is past its lifetime and below 2^31. -/
theorem stays_iff {ms : Nat} {status : Int} : Stays ms status ↔
    ¬ (lifetime status ≤ (age status + ms) % 2 ^ 32 ∧ (age status + ms) % 2 ^ 32 < 2 ^ 31) := by
  unfold Stays agedInt aged age lifetime
  rw [Int.bmod_def]
  by_cases h : status ≥ 0
  · simp only [if_pos h]
    split <;> omega
  · simp only [if_neg h]
    split <;> omega

theorem agedInt_lives {ms : Nat} {status : Int} (h : Lives ms status) :
    agedInt ms status = aged ms status := by
  unfold Lives at h
  apply agedInt_eq
  · unfold aged
    split <;> omega
  · unfold aged
    split <;> omega

theorem shows_iff {ms : Nat} {status : Int} :
    Shows ms status ↔ Lives ms status ∨ ¬ Stays ms status := by
  unfold Shows
  rw [lives_iff, stays_iff, not_not]

/-- What a visit does is what the tick should do exactly when the `int` shows it. -/
theorem turnInt_eq_iff {ms : Nat} {status : Int} {addr : Option EthernetAddress} :
    turnInt ms (some status, addr) = turn ms (some status, addr) ↔ Shows ms status := by
  rw [shows_iff]
  by_cases hl : Lives ms status
  · have hs : Stays ms status := by
      unfold Stays
      rw [agedInt_lives hl]
      unfold Lives at hl
      unfold aged
      split <;> omega
    rw [turn_lives hl, ← agedInt_lives hl]
    exact iff_of_true (if_pos hs) (.inl hl)
  · rw [turn_expires hl]
    by_cases hs : Stays ms status
    · refine iff_of_false ?_ (by simp [hl, hs])
      rw [show turnInt ms (some status, addr) = _ from if_pos hs]
      simp
    · exact iff_of_true (if_neg hs) (.inr hs)

section
variable {s : NetworkInterface} {ms : Nat} {ip : UInt32}

/-- A visit touches the two maps only. -/
theorem visit_frame (s : NetworkInterface) (ms : Nat) (ip : UInt32) : ∃ entries addrs,
    (s.visit ms ip).1 = { s with mapStatus := entries, addrMap := addrs } := by
  rw [visit_eq]
  split
  · exact ⟨_, s.addrMap, rfl⟩
  · exact ⟨_, _, rfl⟩

theorem visitAll_frame (ms : Nat) (ips : List UInt32) (s : NetworkInterface) :
    ∃ entries addrs, visitAll ms ips s = { s with mapStatus := entries, addrMap := addrs } := by
  induction ips generalizing s with
  | nil => exact ⟨s.mapStatus, s.addrMap, rfl⟩
  | cons ip ips ih =>
    obtain ⟨entries, addrs, hvisit⟩ := visit_frame s ms ip
    obtain ⟨entries', addrs', hrest⟩ := ih (s.visit ms ip).1
    refine ⟨entries', addrs', ?_⟩
    show visitAll ms ips (s.visit ms ip).1 = _
    rw [hrest, hvisit]

/-- A visit that erases nothing leaves the entry there. -/
theorem visit_kept (h : (s.visit ms ip).2 = false) :
    ∃ status, (s.visit ms ip).1.mapStatus = s.mapStatus.insert ip status := by
  rw [visit_eq] at h ⊢
  split at h
  · rename_i hstays
    rw [if_pos hstays]
    exact ⟨_, rfl⟩
  · cases h

/-- A loop that comes to its end has visited each entry once. -/
theorem tickLoop_eq_visitAll (ms : Nat) : ∀ (ips : List UInt32) (s : NetworkInterface),
    (∀ ip ∈ ips, ip ∈ s.mapStatus) → (tickLoop ms ips s).1 ≠ .erasedAccess →
    tickLoop ms ips s = (.returned none, visitAll ms ips s)
  | [], _, _, _ => rfl
  | ip :: ips, s, hmem, h => by
    have hin := hmem ip List.mem_cons_self
    have hkeys : s.mapStatus.keys ≠ [] := fun hnil => by
      rw [AList.mem_keys, hnil] at hin
      cases hin
    rw [tickLoop, if_neg hkeys] at h ⊢
    simp only at h ⊢
    by_cases hv : (s.visit ms ip).2 = true
    · rw [if_pos hv] at h
      exact absurd rfl h
    · rw [if_neg hv] at h ⊢
      obtain ⟨status, hstatus⟩ := visit_kept (Bool.eq_false_iff.mpr hv)
      refine tickLoop_eq_visitAll ms ips _ (fun ip' hm => ?_) h
      rw [hstatus]
      exact (AList.mem_insert _).mpr (.inr (hmem ip' (List.mem_cons_of_mem _ hm)))

/-- Where the loop of `tick` comes to its end, it visits each entry once. -/
theorem tick_eq_tickOnce
    (h : (tickLoop ms (s.mapStatus.keys.insertionSort (· ≤ ·)) s).1 ≠ .erasedAccess) :
    s.tick ms = s.tickOnce ms := by
  unfold tick tickOnce tickEach
  rw [tickLoop_eq_visitAll ms _ s (fun ip hm => ?_) h]
  rwa [List.mem_insertionSort] at hm

/-! ## One entry -/

theorem entry_insert (status : Int) (ip' : UInt32) :
    entry { s with mapStatus := s.mapStatus.insert ip status } ip' =
      if ip' = ip then (some status, s.addrMap.lookup ip) else s.entry ip' := by
  unfold entry
  split
  · rename_i he
    subst he
    simp only [AList.lookup_insert]
  · rename_i he
    simp only [AList.lookup_insert_ne he]

/-- An entry that goes, with its mapping if `learned`. -/
theorem entry_erase (learned : Prop) [Decidable learned] (ip' : UInt32) :
    entry { s with
      mapStatus := s.mapStatus.erase ip
      addrMap := if learned then s.addrMap.erase ip else s.addrMap } ip' =
      if ip' = ip then (none, if learned then none else s.addrMap.lookup ip)
      else s.entry ip' := by
  unfold entry
  by_cases he : ip' = ip
  · subst he
    split <;> simp only [AList.lookup_erase, if_true]
  · rw [if_neg he]
    split <;> simp only [AList.lookup_erase_ne he]

theorem visit_entry (ms : Nat) {status : Int} (h : s.mapStatus.lookup ip = some status)
    (ip' : UInt32) :
    (s.visit ms ip).1.entry ip' = if ip' = ip then turnInt ms (s.entry ip) else s.entry ip' := by
  have hstatus : s.status ip = status := by
    rw [NetworkInterface.status, h]
    rfl
  have hentry : s.entry ip = (some status, s.addrMap.lookup ip) := by
    unfold entry
    rw [h]
  rw [hentry, turnInt, visit_eq, hstatus]
  by_cases hs : Stays ms status
  · rw [if_pos hs, if_pos hs]
    exact entry_insert _ ip'
  · rw [if_neg hs, if_neg hs]
    exact entry_erase _ ip'

theorem visit_status {status : Int} (h : s.mapStatus.lookup ip = some status) {ip' : UInt32}
    (hne : ip' ≠ ip) : (s.visit ms ip).1.mapStatus.lookup ip' = s.mapStatus.lookup ip' := by
  have hentry := visit_entry ms h ip'
  rw [if_neg hne] at hentry
  exact congrArg Prod.fst hentry

theorem visitAll_entry (ms : Nat) : ∀ (ips : List UInt32) (s : NetworkInterface), ips.Nodup →
    (∀ ip ∈ ips, (s.mapStatus.lookup ip).isSome) → ∀ ip, (visitAll ms ips s).entry ip =
      if ip ∈ ips then turnInt ms (s.entry ip) else s.entry ip
  | [], s, _, _, ip => by
    rw [if_neg List.not_mem_nil]
    rfl
  | ip :: ips, s, hnodup, hmem, ip' => by
    obtain ⟨hnot, hnodup'⟩ := List.nodup_cons.mp hnodup
    obtain ⟨status, hstatus⟩ := Option.isSome_iff_exists.mp (hmem ip List.mem_cons_self)
    have hne {ip' : UInt32} (hm : ip' ∈ ips) : ip' ≠ ip := fun he => hnot (he ▸ hm)
    have hrest := visitAll_entry ms ips (s.visit ms ip).1 hnodup'
      (fun ip' hm => by
        rw [visit_status hstatus (hne hm)]
        exact hmem ip' (List.mem_cons_of_mem _ hm)) ip'
    show (visitAll ms ips (s.visit ms ip).1).entry ip' = _
    rw [hrest, visit_entry ms hstatus ip']
    by_cases he : ip' = ip
    · subst he
      rw [if_neg hnot, if_pos rfl, if_pos List.mem_cons_self]
    · rw [if_neg he]
      simp [he]

/-- A tick does the same to each entry, whatever the others are. -/
theorem tickEach_entry (s : NetworkInterface) (ms : Nat) (ip : UInt32) :
    (s.tickEach ms).entry ip = turnInt ms (s.entry ip) := by
  have hsorted (ip' : UInt32) :
      ip' ∈ s.mapStatus.keys.insertionSort (· ≤ ·) ↔ ip' ∈ s.mapStatus.keys :=
    List.mem_insertionSort _
  have hnodup : (s.mapStatus.keys.insertionSort (· ≤ ·)).Nodup :=
    (List.perm_insertionSort _ _).nodup_iff.mpr s.mapStatus.keys_nodup
  unfold tickEach
  rw [visitAll_entry ms _ s hnodup
    (fun ip' hm => AList.lookup_isSome.mpr ((hsorted ip').mp hm)) ip]
  split
  · rfl
  · rename_i hnot
    have hnone : s.mapStatus.lookup ip = none :=
      AList.lookup_eq_none.mpr fun hm => hnot ((hsorted ip).mpr hm)
    unfold entry
    rw [hnone]
    rfl

/-- The flush leaves every entry. -/
theorem tickOnce_entry (s : NetworkInterface) (ms : Nat) (ip : UInt32) :
    (s.tickOnce ms).2.entry ip = turnInt ms (s.entry ip) := by
  obtain ⟨frames, stage, hflush, -⟩ :=
    stageLoop_frame (s.tickEach ms).dgramStage.length 0 (s.tickEach ms)
  have hiface : (s.tickOnce ms).2 =
      { s.tickEach ms with framesOut := frames, dgramStage := stage } := hflush
  rw [hiface, ← tickEach_entry]
  rfl

/-- The `int` of every entry shows whether it has expired. -/
def ShowsAge (s : NetworkInterface) (ms : Nat) : Prop :=
  ∀ ip ∈ s.mapStatus.keys, Shows ms (s.status ip)

instance (s : NetworkInterface) (ms : Nat) : Decidable (s.ShowsAge ms) := List.decidableBAll _ _

theorem showsAge_iff : s.ShowsAge ms ↔ ∀ ip status, s.mapStatus.lookup ip = some status →
    Shows ms status := by
  constructor
  · intro h ip status hs
    have hshows := h ip (AList.lookup_isSome.mp (by rw [hs]; rfl))
    rwa [NetworkInterface.status, hs] at hshows
  · intro h ip hm
    obtain ⟨status, hs⟩ := Option.isSome_iff_exists.mp (AList.lookup_isSome.mpr hm)
    unfold NetworkInterface.status
    rw [hs]
    exact h ip status hs

theorem ShowsAge.turn (h : s.ShowsAge ms) (ip : UInt32) :
    turnInt ms (s.entry ip) = NetworkInterface.turn ms (s.entry ip) := by
  unfold entry
  cases hs : s.mapStatus.lookup ip with
  | none => rfl
  | some status => exact turnInt_eq_iff.mpr (showsAge_iff.mp h ip status hs)

end

end Sponge.NetworkInterface
