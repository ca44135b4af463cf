import Mathlib.Data.List.Nodup
import Sponge.Lib.Run
import Sponge.Util.FileDescriptor

/-!
# The event loop

The callbacks of a rule are functions of the state they work on; they add no
rules. What `poll` returns is an argument. A call that throws leaves the rules and
the state as they are by then.

`Keeps` is the rule for a loop: what its callbacks keep, given what their interest
has promised and no other callback takes away, each call of `waitNextEvent` keeps
(`Keeps.wait`). Two more look at a single rule: it is called once at most in a call
(`wait_once`), and one that waits for input is cancelled only when there is no more
(`wait_dead`). `waits_lifecycle` follows each rule through a run.
-/

namespace Sponge

namespace EventLoop

inductive Direction where
  | input
  | output
  deriving DecidableEq, Repr

/-- `φ` is how a callback fails. -/
structure Rule (σ φ : Type*) where
  fd : σ → FileDescriptor
  direction : Direction
  callback : σ → Except φ Unit × σ
  interest : σ → Bool := fun _ => true
  cancel : σ → σ := id

def Rule.serviceCount {σ φ : Type*} (r : Rule σ φ) (s : σ) : UInt32 :=
  match r.direction with
  | .input => (r.fd s).readCount
  | .output => (r.fd s).writeCount

/-- What `poll` says of a descriptor. -/
structure Revents where
  pollIn : Bool := false
  pollOut : Bool := false
  pollErr : Bool := false
  pollNval : Bool := false
  pollHup : Bool := false
  deriving DecidableEq, Repr

/-- The event that the rule is for is among those reported. -/
def Rule.reported {σ φ : Type*} (r : Rule σ φ) (revents : Revents) : Bool :=
  match r.direction with
  | .input => revents.pollIn
  | .output => revents.pollOut

/-- A count that goes up by one or two has changed. -/
theorem served_ne (n : UInt32) : n ≠ n + 1 ∧ n ≠ n + 1 + 1 := by
  constructor <;> grind

inductive PollResult where
  | ready (revents : List Revents)
  | timeout
  | interrupted
  | failed
  deriving DecidableEq, Repr

inductive Result where
  | success
  | timeout
  | exit
  deriving DecidableEq, Repr

def polledError : String := "EventLoop: error on polled file descriptor"

def busyWait : String :=
  "EventLoop: busy wait detected: callback did not read/write fd and is still interested"

section
variable {ι σ φ : Type*} (rule : ι → Rule σ φ) (threw : String → φ)

/-- There is no more reading, or the descriptor is closed. -/
def Rule.dead (r : Rule σ φ) (s : σ) : Bool :=
  (r.direction == .input && (r.fd s).eof) || (r.fd s).closed

/-- The loop that sets up a `pollfd` for each rule that is left, with whether it is interested. -/
def setUp : List ι → σ → List (ι × Bool) × σ
  | [], s => ([], s)
  | i :: is, s =>
    if (rule i).dead s then setUp is ((rule i).cancel s)
    else
      let rest := setUp is s
      ((i, (rule i).interest s) :: rest.1, rest.2)

/-- The loop through the poll results. -/
def serve : List (ι × Bool) → List Revents → σ → Except φ Unit × List ι × σ
  | [], _, s => (.ok (), [], s)
  | (i, asked) :: rest, revents, s =>
    let r := revents.headD {}
    let keep := fun (served : Except φ Unit × List ι × σ) => (served.1, i :: served.2.1, served.2.2)
    if r.pollErr || r.pollNval then (.error (threw polledError), i :: rest.map Prod.fst, s)
    else
      let pollReady := asked && (rule i).reported r
      if r.pollHup && asked && !pollReady then serve rest revents.tail ((rule i).cancel s)
      else if pollReady then
        match (rule i).callback s with
        | (.error fault, s') => (.error fault, i :: rest.map Prod.fst, s')
        | (.ok (), s') =>
          if (rule i).serviceCount s = (rule i).serviceCount s' ∧ (rule i).interest s' = true then
            (.error (threw busyWait), i :: rest.map Prod.fst, s')
          else keep (serve rest revents.tail s')
      else keep (serve rest revents.tail s)

/-- What a call returns, the rules that are left, and the state. A failure of `poll` that is no
interruption is swallowed, and nothing is ready then. -/
def waitNextEvent (rules : List ι) (poll : PollResult) (s : σ) :
    Except φ Result × List ι × σ :=
  let pollfds := setUp rule rules s
  if pollfds.1.any Prod.snd = false then (.ok .exit, pollfds.1.map Prod.fst, pollfds.2)
  else
    let served := fun (revents : List Revents) =>
      let served := serve rule threw pollfds.1 revents pollfds.2
      (served.1.map fun _ => Result.success, served.2)
    match poll with
    | .timeout => (.ok .timeout, pollfds.1.map Prod.fst, pollfds.2)
    | .interrupted => (.ok .exit, pollfds.1.map Prod.fst, pollfds.2)
    | .failed => served []
    | .ready revents => served revents

end

/-! ## What a loop keeps -/

/-- What a loop over `rules` is proved to keep: of the state, of a rule that is in the list, of one
that has been cancelled, of one that has been found interested until its callback is called, of
one that has been found uninterested when the loop exits, and of how a call fails. -/
structure Contract (ι σ φ : Type*) where
  rules : List ι
  inv : σ → Prop
  live : ι → σ → Prop := fun _ _ => True
  gone : ι → σ → Prop := fun _ _ => True
  asked : ι → σ → Prop := fun _ _ => True
  idle : ι → σ → Prop := fun _ _ => True
  fault : φ → Prop := fun _ => True

section
variable {ι σ φ : Type*}

/-- What is known of the other rules is still true after a call of `i`. -/
structure Contract.Stays (k : Contract ι σ φ) (i : ι) (s t : σ) : Prop where
  live : ∀ j, j ≠ i → k.live j s → k.live j t
  gone : ∀ j, j ≠ i → k.gone j s → k.gone j t
  asked : ∀ j, j ≠ i → k.live j s → k.asked j s → k.asked j t

/-- What is known between two calls. -/
structure Contract.Holds (k : Contract ι σ φ) (rules : List ι) (s : σ) : Prop where
  sublist : rules.Sublist k.rules
  inv : k.inv s
  live : ∀ i ∈ rules, k.live i s
  gone : ∀ i ∈ k.rules, i ∉ rules → k.gone i s

/-- The rules keep the contract. -/
structure Keeps (rule : ι → Rule σ φ) (threw : String → φ) (k : Contract ι σ φ) : Prop where
  nodup : k.rules.Nodup
  asked : ∀ i s, k.inv s → k.live i s → (rule i).dead s = false → (rule i).interest s = true →
    k.asked i s
  idle : ∀ i s, k.inv s → k.live i s → (rule i).dead s = false → (rule i).interest s = false →
    k.idle i s
  callback : ∀ i s, k.inv s → k.live i s → k.asked i s →
    k.inv ((rule i).callback s).2 ∧ k.live i ((rule i).callback s).2 ∧
      k.Stays i s ((rule i).callback s).2
  fails : ∀ i s fault, k.inv s → k.live i s → k.asked i s →
    ((rule i).callback s).1 = .error fault → k.fault fault
  busy : ∀ i s, k.inv s → k.live i s → k.asked i s → ((rule i).callback s).1 = .ok () →
    (rule i).serviceCount s ≠ (rule i).serviceCount ((rule i).callback s).2 ∨
      (rule i).interest ((rule i).callback s).2 = false
  cancel : ∀ i s, k.inv s → k.live i s →
    k.inv ((rule i).cancel s) ∧ k.gone i ((rule i).cancel s) ∧ k.Stays i s ((rule i).cancel s)
  /-- Only the rules behind it are cancelled after a rule has been asked. -/
  cancel_idle : ∀ i j s, [j, i].Sublist k.rules → k.inv s → k.live i s → k.idle j s →
    k.idle j ((rule i).cancel s)
  polled : k.fault (threw polledError)

variable {rule : ι → Rule σ φ} {threw : String → φ} {k : Contract ι σ φ} {i : ι} {s t : σ}
  {done rules : List ι}

theorem Contract.Holds.ne (h : k.Holds (done ++ i :: rules) s) (hn : k.rules.Nodup) {j : ι}
    (hj : j ∈ done ++ rules) : j ≠ i := by
  rintro rfl
  have hnodup := hn.sublist h.sublist
  rw [List.nodup_middle, List.nodup_cons] at hnodup
  exact hnodup.1 hj

theorem Contract.Holds.serve (h : k.Holds (done ++ i :: rules) s) (hinv : k.inv t)
    (hlive : k.live i t) (hs : k.Stays i s t) : k.Holds (done ++ i :: rules) t := by
  refine ⟨h.sublist, hinv, fun j hj => ?_, fun j hj hout => hs.gone j ?_ (h.gone j hj hout)⟩
  · by_cases hji : j = i
    · rw [hji]
      exact hlive
    · exact hs.live j hji (h.live j hj)
  · rintro rfl
    exact hout (by simp)

theorem Contract.Holds.cancel (h : k.Holds (done ++ i :: rules) s) (hn : k.rules.Nodup)
    (hinv : k.inv t) (hgone : k.gone i t) (hs : k.Stays i s t) : k.Holds (done ++ rules) t := by
  refine ⟨((List.sublist_cons_self i rules).append_left done).trans h.sublist, hinv,
    fun j hj => hs.live j (h.ne hn hj) (h.live j ?_), fun j hj hout => ?_⟩
  · rcases List.mem_append.mp hj with hj | hj
    · exact List.mem_append_left _ hj
    · exact List.mem_append_right _ (List.mem_cons_of_mem _ hj)
  · by_cases hji : j = i
    · rw [hji]
      exact hgone
    · refine hs.gone j hji (h.gone j hj fun hin => hout ?_)
      simpa [hji] using hin

/-- What the set-up keeps of the rules that have been asked (`done`), and finds out of the
others. -/
structure SetUp (rule : ι → Rule σ φ) (k : Contract ι σ φ) (done rules : List ι) (s : σ) :
    Prop where
  holds : k.Holds (done ++ (setUp rule rules s).1.map Prod.fst) (setUp rule rules s).2
  asked : ∀ i, (i, true) ∈ (setUp rule rules s).1 → k.asked i (setUp rule rules s).2
  idle : ∀ i, (i, false) ∈ (setUp rule rules s).1 → k.idle i (setUp rule rules s).2
  asked_done : ∀ i ∈ done, k.asked i s → k.asked i (setUp rule rules s).2
  idle_done : ∀ i ∈ done, k.idle i s → k.idle i (setUp rule rules s).2

theorem Keeps.setUp (h : Keeps rule threw k) (rules : List ι) : ∀ (done : List ι) {s : σ},
    k.Holds (done ++ rules) s → SetUp rule k done rules s := by
  induction rules with
  | nil =>
    exact fun _ _ hk =>
      ⟨hk, by rintro i ⟨⟩, by rintro i ⟨⟩, fun _ _ hi => hi, fun _ _ hi => hi⟩
  | cons i is ih =>
    intro done s hk
    have hlive : k.live i s := hk.live i (by simp)
    have hcons : done ++ i :: is = (done ++ [i]) ++ is := by rw [List.append_assoc]; rfl
    cases hdead : (rule i).dead s with
    | true =>
      have heq : EventLoop.setUp rule (i :: is) s = EventLoop.setUp rule is ((rule i).cancel s) :=
        if_pos hdead
      obtain ⟨hinv, hgone, hs⟩ := h.cancel i s hk.inv hlive
      have hrest := ih done (hk.cancel h.nodup hinv hgone hs)
      have hne : ∀ j ∈ done, j ≠ i := fun j hj => hk.ne h.nodup (List.mem_append_left _ hj)
      constructor
      · rw [heq]
        exact hrest.holds
      · rw [heq]
        exact hrest.asked
      · rw [heq]
        exact hrest.idle
      · rw [heq]
        exact fun j hj hq => hrest.asked_done j hj
          (hs.asked j (hne j hj) (hk.live j (List.mem_append_left _ hj)) hq)
      · rw [heq]
        refine fun j hj hq => hrest.idle_done j hj (h.cancel_idle i j s ?_ hk.inv hlive hq)
        refine List.Sublist.trans ?_ hk.sublist
        exact (List.singleton_sublist.mpr hj).append (List.singleton_sublist.mpr (by simp))
    | false =>
      have heq : EventLoop.setUp rule (i :: is) s =
          ((i, (rule i).interest s) :: (EventLoop.setUp rule is s).1,
            (EventLoop.setUp rule is s).2) := if_neg (by rw [hdead]; exact Bool.false_ne_true)
      rw [hcons] at hk
      have hrest := ih (done ++ [i]) hk
      have hmem : i ∈ done ++ [i] := by simp
      constructor
      · rw [heq, List.map_cons, show done ++ i :: (EventLoop.setUp rule is s).1.map Prod.fst =
          (done ++ [i]) ++ (EventLoop.setUp rule is s).1.map Prod.fst by
            rw [List.append_assoc]; rfl]
        exact hrest.holds
      · rw [heq]
        intro j hm
        rcases List.mem_cons.mp hm with hj | hm
        · obtain ⟨rfl, hint⟩ := Prod.mk.inj hj
          exact hrest.asked_done j hmem (h.asked j s hk.inv hlive hdead hint.symm)
        · exact hrest.asked j hm
      · rw [heq]
        intro j hm
        rcases List.mem_cons.mp hm with hj | hm
        · obtain ⟨rfl, hint⟩ := Prod.mk.inj hj
          exact hrest.idle_done j hmem (h.idle j s hk.inv hlive hdead hint.symm)
        · exact hrest.idle j hm
      · rw [heq]
        exact fun j hj => hrest.asked_done j (List.mem_append_left _ hj)
      · rw [heq]
        exact fun j hj => hrest.idle_done j (List.mem_append_left _ hj)

theorem Keeps.serve (h : Keeps rule threw k) (pollfds : List (ι × Bool)) :
    ∀ (done : List ι) (revents : List Revents) {s : σ},
      k.Holds (done ++ pollfds.map Prod.fst) s → (∀ i, (i, true) ∈ pollfds → k.asked i s) →
      k.Holds (done ++ (serve rule threw pollfds revents s).2.1)
        (serve rule threw pollfds revents s).2.2 ∧
      ∀ fault, (serve rule threw pollfds revents s).1 = .error fault → k.fault fault := by
  induction pollfds with
  | nil => exact fun _ _ _ hk _ => ⟨hk, by rintro _ ⟨⟩⟩
  | cons pollfd rest ih =>
    obtain ⟨i, asked⟩ := pollfd
    intro done revents s hk hq
    rw [List.map_cons] at hk
    have hlive : k.live i s := hk.live i (by simp)
    have hmem : ∀ {j}, (j, true) ∈ rest → j ∈ done ++ rest.map Prod.fst := fun hj =>
      List.mem_append_right _ (List.mem_map.mpr ⟨_, hj, rfl⟩)
    have hstay : ∀ {t : σ}, k.Stays i s t → ∀ j, (j, true) ∈ rest → k.asked j t :=
      fun hs j hj => hs.asked j (hk.ne h.nodup (hmem hj))
        (hk.live j (List.mem_append_right _ (List.mem_cons_of_mem _
          (List.mem_map.mpr ⟨_, hj, rfl⟩)))) (hq j (List.mem_cons_of_mem _ hj))
    -- the rule stays in the list, and the loop goes on
    have hkeep : ∀ {revents : List Revents} {t : σ}, k.Holds (done ++ i :: rest.map Prod.fst) t →
        (∀ j, (j, true) ∈ rest → k.asked j t) →
        k.Holds (done ++ i :: (EventLoop.serve rule threw rest revents t).2.1)
          (EventLoop.serve rule threw rest revents t).2.2 ∧
        ∀ fault, (EventLoop.serve rule threw rest revents t).1 = .error fault →
          k.fault fault := by
      intro revents t ht hqt
      have hi := ih (done ++ [i]) revents (by rw [List.append_assoc]; exact ht) hqt
      rw [List.append_assoc] at hi
      exact hi
    rw [EventLoop.serve]
    simp only
    split
    · refine ⟨hk, ?_⟩
      rintro _ ⟨⟩
      exact h.polled
    · split
      · obtain ⟨hinv, hgone, hs⟩ := h.cancel i s hk.inv hlive
        exact ih done revents.tail (hk.cancel h.nodup hinv hgone hs) (hstay hs)
      · split
        · rename_i hready
          rw [Bool.and_eq_true] at hready
          have hqi : k.asked i s := hq i (by rw [hready.1]; exact List.mem_cons_self)
          obtain ⟨hinv, hlive', hs⟩ := h.callback i s hk.inv hlive hqi
          have hserved := hk.serve hinv hlive' hs
          have hasked := hstay hs
          have hfails := fun fault => h.fails i s fault hk.inv hlive hqi
          have hbusy := h.busy i s hk.inv hlive hqi
          split <;> rename_i heq <;> rw [heq] at hserved hasked hfails hbusy
          · refine ⟨hserved, ?_⟩
            rintro fault hf
            exact hfails fault hf
          · split
            · rename_i hwait
              rcases hbusy rfl with hb | hb
              · exact absurd hwait.1 hb
              · rw [hb] at hwait
                cases hwait.2
            · exact hkeep hserved hasked
        · exact hkeep hk fun j hj => hq j (List.mem_cons_of_mem _ hj)

/-- **The rule for a loop.** A call keeps the contract; and when it says to exit without having
been interrupted, no rule in the list is interested. -/
theorem Keeps.wait (h : Keeps rule threw k) (hk : k.Holds rules s) (poll : PollResult) :
    k.Holds (waitNextEvent rule threw rules poll s).2.1
      (waitNextEvent rule threw rules poll s).2.2 ∧
    (∀ fault, (waitNextEvent rule threw rules poll s).1 = .error fault → k.fault fault) ∧
    ((waitNextEvent rule threw rules poll s).1 = .ok .exit → poll ≠ .interrupted →
      ∀ i ∈ (waitNextEvent rule threw rules poll s).2.1,
        k.idle i (waitNextEvent rule threw rules poll s).2.2) := by
  have hset := h.setUp rules [] hk
  have hserve := fun revents =>
    h.serve (EventLoop.setUp rule rules s).1 [] revents hset.holds hset.asked
  unfold waitNextEvent
  simp only
  split
  · rename_i hnone
    refine ⟨hset.holds, by rintro _ ⟨⟩, fun _ _ i hi => hset.idle i ?_⟩
    obtain ⟨⟨j, asked⟩, hm, rfl⟩ := List.mem_map.mp hi
    have hasked : asked = false := by
      rw [List.any_eq_false] at hnone
      simpa using hnone _ hm
    rw [← hasked]
    exact hm
  · have hserved : ∀ revents,
        let served := EventLoop.serve rule threw (EventLoop.setUp rule rules s).1 revents
          (EventLoop.setUp rule rules s).2
        k.Holds served.2.1 served.2.2 ∧
          (∀ fault, (served.1.map fun _ => Result.success) = .error fault → k.fault fault) ∧
          (served.1.map fun _ => Result.success) ≠ .ok .exit := by
      intro revents
      obtain ⟨hholds, hfault⟩ := hserve revents
      refine ⟨hholds, ?_⟩
      cases hr : (EventLoop.serve rule threw (EventLoop.setUp rule rules s).1 revents
        (EventLoop.setUp rule rules s).2).1 with
      | ok _ => exact ⟨by rintro _ ⟨⟩, by rintro ⟨⟩⟩
      | error fault =>
        refine ⟨fun fault' hf => hfault fault' ?_, by rintro ⟨⟩⟩
        rw [hr, Except.error.inj hf]
    cases poll with
    | timeout => exact ⟨hset.holds, by rintro _ ⟨⟩, by rintro ⟨⟩⟩
    | interrupted => exact ⟨hset.holds, by rintro _ ⟨⟩, fun _ hne => absurd rfl hne⟩
    | failed =>
      obtain ⟨hholds, hfault, hexit⟩ := hserved []
      exact ⟨hholds, hfault, fun he => absurd he hexit⟩
    | ready revents =>
      obtain ⟨hholds, hfault, hexit⟩ := hserved revents
      exact ⟨hholds, hfault, fun he => absurd he hexit⟩

end

/-! ## One call of each rule -/

section
variable {ι σ φ : Type*} {rule : ι → Rule σ φ} {threw : String → φ} {i : ι} {rules : List ι}
  {s : σ} {P Q : σ → Prop}

theorem setUp_inv (hcancel : ∀ j s, P s → P ((rule j).cancel s)) (rules : List ι) :
    ∀ {s : σ}, P s → P (setUp rule rules s).2 ∧
      ((setUp rule rules s).1.map Prod.fst).Sublist rules := by
  induction rules with
  | nil => exact fun h => ⟨h, List.Sublist.refl _⟩
  | cons j js ih =>
    intro s h
    rw [setUp]
    split
    · obtain ⟨hP, hsub⟩ := ih (hcancel j s h)
      exact ⟨hP, hsub.cons _⟩
    · obtain ⟨hP, hsub⟩ := ih h
      exact ⟨hP, hsub.cons_cons _⟩

theorem serve_inv (hcancel : ∀ j s, P s → P ((rule j).cancel s)) (pollfds : List (ι × Bool)) :
    (∀ j ∈ pollfds.map Prod.fst, ∀ s, P s → P ((rule j).callback s).2) →
    ∀ (revents : List Revents) {s : σ}, P s → P (serve rule threw pollfds revents s).2.2 := by
  induction pollfds with
  | nil => exact fun _ _ _ h => h
  | cons pollfd rest ih =>
    obtain ⟨j, asked⟩ := pollfd
    intro hcall revents s h
    have hrest := ih fun j' hj' => hcall j' (List.mem_cons_of_mem _ hj')
    have hj := hcall j List.mem_cons_self s h
    rw [serve]
    simp only
    split
    · exact h
    · split
      · exact hrest _ (hcancel j s h)
      · split
        · split <;> rename_i heq <;> rw [heq] at hj
          · exact hj
          · split
            · exact hj
            · exact hrest _ hj
        · exact hrest _ h

/-- What a call of `i` turns into something else is turned once: the other rules keep both. -/
theorem serve_once (hP : ∀ j s, P s → P ((rule j).cancel s))
    (hQ : ∀ j s, Q s → Q ((rule j).cancel s))
    (hcallP : ∀ j, j ≠ i → ∀ s, P s → P ((rule j).callback s).2)
    (hcallQ : ∀ j, j ≠ i → ∀ s, Q s → Q ((rule j).callback s).2)
    (hcall : ∀ s, P s → P ((rule i).callback s).2 ∨ Q ((rule i).callback s).2)
    (pollfds : List (ι × Bool)) : (pollfds.map Prod.fst).Nodup →
    ∀ (revents : List Revents) {s : σ}, P s →
      P (serve rule threw pollfds revents s).2.2 ∨ Q (serve rule threw pollfds revents s).2.2 := by
  induction pollfds with
  | nil => exact fun _ _ _ h => .inl h
  | cons pollfd rest ih =>
    obtain ⟨j, asked⟩ := pollfd
    intro hn revents s h
    obtain ⟨hnot, hn⟩ := List.nodup_cons.mp hn
    have hrest := ih hn
    have hj : P ((rule j).callback s).2 ∨ (j = i ∧ Q ((rule j).callback s).2) := by
      by_cases hji : j = i
      · rw [hji]
        exact (hcall s h).imp_right fun hq => ⟨rfl, hq⟩
      · exact .inl (hcallP j hji s h)
    rw [serve]
    simp only
    split
    · exact .inl h
    · split
      · exact hrest _ (hP j s h)
      · split
        · split <;> rename_i heq <;> rw [heq] at hj
          · exact hj.imp_right And.right
          · split
            · exact hj.imp_right And.right
            · rcases hj with hj | ⟨rfl, hj⟩
              · exact hrest _ hj
              · refine .inr (serve_inv hQ rest (fun j' hj' => hcallQ j' ?_) _ hj)
                rintro rfl
                exact hnot hj'
        · exact hrest _ h

/-- The state that a call leaves is that of the set-up, or of the loop behind it. -/
theorem wait_state (rule : ι → Rule σ φ) (threw : String → φ) (rules : List ι)
    (poll : PollResult) (s : σ) :
    (waitNextEvent rule threw rules poll s).2.2 = (setUp rule rules s).2 ∨
      ∃ revents, (waitNextEvent rule threw rules poll s).2.2 =
        (serve rule threw (setUp rule rules s).1 revents (setUp rule rules s).2).2.2 := by
  unfold waitNextEvent
  simp only
  split
  · exact .inl rfl
  · cases poll with
    | timeout | interrupted => exact .inl rfl
    | failed => exact .inr ⟨[], rfl⟩
    | ready revents => exact .inr ⟨revents, rfl⟩

/-- What every call keeps. -/
theorem wait_inv (hcancel : ∀ j s, P s → P ((rule j).cancel s))
    (hcall : ∀ j s, P s → P ((rule j).callback s).2) (poll : PollResult) (h : P s) :
    P (waitNextEvent rule threw rules poll s).2.2 := by
  obtain ⟨hset, -⟩ := setUp_inv hcancel rules h
  rcases wait_state rule threw rules poll s with heq | ⟨revents, heq⟩ <;> rw [heq]
  · exact hset
  · exact serve_inv hcancel _ (fun j _ => hcall j) revents hset

/-- **The rule for one rule of the loop.** A call of `waitNextEvent` calls it once at most. -/
theorem wait_once (hn : rules.Nodup) (hP : ∀ j s, P s → P ((rule j).cancel s))
    (hQ : ∀ j s, Q s → Q ((rule j).cancel s))
    (hcallP : ∀ j, j ≠ i → ∀ s, P s → P ((rule j).callback s).2)
    (hcallQ : ∀ j, j ≠ i → ∀ s, Q s → Q ((rule j).callback s).2)
    (hcall : ∀ s, P s → P ((rule i).callback s).2 ∨ Q ((rule i).callback s).2)
    (poll : PollResult) (h : P s) :
    P (waitNextEvent rule threw rules poll s).2.2 ∨
      Q (waitNextEvent rule threw rules poll s).2.2 := by
  obtain ⟨hset, hsub⟩ := setUp_inv hP rules h
  rcases wait_state rule threw rules poll s with heq | ⟨revents, heq⟩ <;> rw [heq]
  · exact .inl hset
  · exact serve_once hP hQ hcallP hcallQ hcall _ (hn.sublist hsub) revents hset

/-- A hang-up of the descriptor of `i` is reported together with input, if it is asked for. -/
def ReadableHup (rule : ι → Rule σ φ) (rules : List ι) (i : ι) (s : σ) : PollResult → Prop
  | .ready revents => ∀ p ∈ (setUp rule rules s).1.zip revents,
      p.1 = (i, true) → p.2.pollHup = true → p.2.pollIn = true
  | .timeout | .interrupted | .failed => True

instance [DecidableEq ι] (rule : ι → Rule σ φ) (rules : List ι) (i : ι) (s : σ) :
    ∀ poll, Decidable (ReadableHup rule rules i s poll)
  | .ready revents => inferInstanceAs (Decidable
      (∀ p ∈ (setUp rule rules s).1.zip revents, p.1 = (i, true) → _ → _))
  | .timeout | .interrupted | .failed => isTrue trivial

/-- Of a descriptor that is open, only the end is left. -/
theorem Rule.dead_eof {r : Rule σ φ} (hdead : r.dead s = true)
    (hclosed : (r.fd s).closed = false) : (r.fd s).eof = true := by
  rw [Rule.dead, hclosed, Bool.or_false, Bool.and_eq_true] at hdead
  exact hdead.2

theorem setUp_dead (hcancel : ∀ j, j ≠ i → ∀ s, P s → P ((rule j).cancel s))
    (hdead : ∀ s, P s → (rule i).dead s = true → P ((rule i).cancel s)) (rules : List ι) :
    ∀ {s : σ}, P s → P (setUp rule rules s).2 := by
  induction rules with
  | nil => exact fun h => h
  | cons j js ih =>
    intro s h
    rw [setUp]
    split
    · rename_i hd
      by_cases hji : j = i
      · rw [hji] at hd ⊢
        exact ih (hdead s h hd)
      · exact ih (hcancel j hji s h)
    · exact ih h

theorem serve_dead (hi : (rule i).direction = .input)
    (hcancel : ∀ j, j ≠ i → ∀ s, P s → P ((rule j).cancel s))
    (hcall : ∀ j s, P s → P ((rule j).callback s).2) (pollfds : List (ι × Bool)) :
    ∀ (revents : List Revents) {s : σ},
      (∀ p ∈ pollfds.zip revents, p.1 = (i, true) → p.2.pollHup = true → p.2.pollIn = true) →
      P s →
      P (serve rule threw pollfds revents s).2.2 := by
  induction pollfds with
  | nil => exact fun _ _ _ h => h
  | cons pollfd rest ih =>
    obtain ⟨j, asked⟩ := pollfd
    intro revents s hup h
    have hrest : ∀ {t : σ}, P t → P (serve rule threw rest revents.tail t).2.2 := by
      refine fun ht => ih _ (fun p hp => ?_) ht
      cases revents with
      | nil =>
        rw [List.tail_nil, List.zip_nil_right] at hp
        cases hp
      | cons r rs => exact hup p (List.mem_cons_of_mem _ hp)
    have hready : j = i → asked = true → (revents.headD {}).pollHup = true →
        (rule j).reported (revents.headD {}) = true := by
      rintro rfl rfl hr
      cases revents with
      | nil => cases hr
      | cons r rs =>
        rw [Rule.reported, hi]
        exact hup ((j, true), r) List.mem_cons_self rfl hr
    have hj := hcall j s h
    rw [serve]
    simp only
    split
    · exact h
    · split
      · rename_i hcut
        simp only [Bool.and_eq_true, Bool.not_eq_true'] at hcut
        refine hrest (hcancel j (fun hji => ?_) s h)
        have hr := hready hji hcut.1.2 hcut.1.1
        rw [hr, hcut.1.2] at hcut
        cases hcut.2
      · split
        · split <;> rename_i heq <;> rw [heq] at hj
          · exact hj
          · split
            · exact hj
            · exact hrest hj
        · exact hrest h

/-- A rule that waits for input is cancelled only when there is no more, if a hang-up is reported
together with input. -/
theorem wait_dead (hi : (rule i).direction = .input)
    (hcancel : ∀ j, j ≠ i → ∀ s, P s → P ((rule j).cancel s))
    (hdead : ∀ s, P s → (rule i).dead s = true → P ((rule i).cancel s))
    (hcall : ∀ j s, P s → P ((rule j).callback s).2) {poll : PollResult}
    (hup : ReadableHup rule rules i s poll) (h : P s) :
    P (waitNextEvent rule threw rules poll s).2.2 := by
  have hset := setUp_dead hcancel hdead rules h
  unfold waitNextEvent
  simp only
  split
  · exact hset
  · cases poll with
    | timeout | interrupted => exact hset
    | failed => exact serve_dead hi hcancel hcall _ [] (by simp) hset
    | ready revents => exact serve_dead hi hcancel hcall _ revents hup hset

end

/-! ## The life of a rule -/

inductive Act where
  | served
  | cancelled
  deriving DecidableEq, Repr

/-- The rules, with a record of what is called. -/
def logged {ι σ φ : Type*} (rule : ι → Rule σ φ) (i : ι) : Rule (σ × List (ι × Act)) φ where
  fd s := (rule i).fd s.1
  direction := (rule i).direction
  callback s :=
    let called := (rule i).callback s.1
    (called.1, called.2, s.2 ++ [(i, .served)])
  interest s := (rule i).interest s.1
  cancel s := ((rule i).cancel s.1, s.2 ++ [(i, .cancelled)])

/-- Of the rules `added`, those in the list have not been cancelled, and the others have; nothing
of a rule is called after its cancellation. -/
structure Lived {ι : Type*} (added rules : List ι) (log : List (ι × Act)) : Prop where
  gone : ∀ i ∈ added, (i, .cancelled) ∈ log ↔ i ∉ rules
  last : log.Pairwise fun called later => called.2 = .cancelled → later.1 ≠ called.1
  sublist : rules.Sublist added
  nodup : added.Nodup

section
variable {ι σ φ : Type*} {rule : ι → Rule σ φ} {threw : String → φ} {i : ι}
  {added done rules : List ι} {log : List (ι × Act)}

theorem Lived.call (h : Lived added rules log) (hi : i ∈ rules) (act : Act) :
    (log ++ [(i, act)]).Pairwise
      fun called later => called.2 = .cancelled → later.1 ≠ called.1 := by
  rw [List.pairwise_append]
  refine ⟨h.last, List.pairwise_singleton .., fun called hc later hl hcancel heq => ?_⟩
  obtain rfl := List.mem_singleton.mp hl
  obtain ⟨j, act⟩ := called
  obtain rfl : act = .cancelled := hcancel
  obtain rfl : i = j := heq
  exact (h.gone i (h.sublist.subset hi)).mp hc hi

theorem Lived.serve (h : Lived added rules log) (hi : i ∈ rules) :
    Lived added rules (log ++ [(i, .served)]) := by
  refine ⟨fun j hj => ?_, h.call hi _, h.sublist, h.nodup⟩
  rw [← h.gone j hj, List.mem_append]
  exact or_iff_left (by simp)

theorem Lived.cancel (h : Lived added (done ++ i :: rules) log) :
    Lived added (done ++ rules) (log ++ [(i, .cancelled)]) := by
  have hn := h.nodup.sublist h.sublist
  refine ⟨fun j hj => ?_, h.call (by simp) _, ?_, h.nodup⟩
  · have hgone := h.gone j hj
    rw [List.nodup_middle, List.nodup_cons] at hn
    rw [List.mem_append, hgone]
    by_cases hji : j = i
    · rw [hji]
      exact iff_of_true (.inr List.mem_cons_self) hn.1
    · simp [hji]
  · exact ((List.sublist_cons_self i rules).append_left done).trans h.sublist

theorem setUp_lived (rule : ι → Rule σ φ) (rules : List ι) : ∀ (done : List ι)
    {s : σ × List (ι × Act)},
    Lived added (done ++ rules) s.2 →
    Lived added (done ++ (setUp (logged rule) rules s).1.map Prod.fst)
      (setUp (logged rule) rules s).2.2 := by
  induction rules with
  | nil => exact fun _ _ h => h
  | cons i is ih =>
    intro done s h
    rw [EventLoop.setUp]
    split
    · exact ih done h.cancel
    · have hi := ih (done ++ [i]) (s := s) (by rw [List.append_assoc]; exact h)
      rw [List.append_assoc] at hi
      exact hi

theorem serve_lived (rule : ι → Rule σ φ) (threw : String → φ) (pollfds : List (ι × Bool)) :
    ∀ (done : List ι) (revents : List Revents) {s : σ × List (ι × Act)},
    Lived added (done ++ pollfds.map Prod.fst) s.2 →
    Lived added (done ++ (serve (logged rule) threw pollfds revents s).2.1)
      (serve (logged rule) threw pollfds revents s).2.2.2 := by
  induction pollfds with
  | nil => exact fun _ _ _ h => h
  | cons pollfd rest ih =>
    obtain ⟨i, asked⟩ := pollfd
    intro done revents s h
    rw [List.map_cons] at h
    have hkeep : ∀ {revents : List Revents} {t : σ × List (ι × Act)},
        Lived added (done ++ i :: rest.map Prod.fst) t.2 →
        Lived added (done ++ i :: (serve (logged rule) threw rest revents t).2.1)
          (serve (logged rule) threw rest revents t).2.2.2 := by
      intro revents t ht
      have hi := ih (done ++ [i]) revents (s := t)
        (by rw [List.append_assoc]; exact ht)
      rw [List.append_assoc] at hi
      exact hi
    have hserved := h.serve (i := i) (by simp)
    rw [EventLoop.serve]
    simp only
    split
    · exact h
    · split
      · exact ih done revents.tail h.cancel
      · split
        · split <;> rename_i heq <;> rw [Prod.mk.injEq] at heq <;> obtain ⟨-, rfl⟩ := heq
          · exact hserved
          · split
            · exact hserved
            · exact hkeep hserved
        · exact hkeep h

/-- One call of the loop that has the rules `s.1`. -/
def wait (rule : ι → Rule σ φ) (threw : String → φ) (s : List ι × σ) (poll : PollResult) :
    List ι × σ :=
  (waitNextEvent rule threw s.1 poll s.2).2

theorem wait_lived {s : List ι × σ × List (ι × Act)} (h : Lived added s.1 s.2.2)
    (poll : PollResult) :
    Lived added (wait (logged rule) threw s poll).1 (wait (logged rule) threw s poll).2.2 := by
  have hset := setUp_lived rule s.1 [] h
  have hserve : ∀ revents, Lived added
      (serve (logged rule) threw (setUp (logged rule) s.1 s.2).1 revents
        (setUp (logged rule) s.1 s.2).2).2.1
      (serve (logged rule) threw (setUp (logged rule) s.1 s.2).1 revents
        (setUp (logged rule) s.1 s.2).2).2.2.2 :=
    fun revents => serve_lived rule threw _ [] revents hset
  unfold wait waitNextEvent
  simp only
  split
  · exact hset
  · cases poll with
    | timeout | interrupted => exact hset
    | failed => exact hserve []
    | ready revents => exact hserve revents

end

/-- **The life of a rule.** In every run of calls, whatever the callbacks do and `poll` returns, a
rule that has left the list has been cancelled, once, and it is neither served nor cancelled after
that. -/
theorem waits_lifecycle {ι σ φ : Type*} [DecidableEq ι] (rule : ι → Rule σ φ)
    (threw : String → φ) (rules : List ι) (s : σ) (polls : List PollResult) (hn : rules.Nodup) :
    let after := Lib.run (wait (logged rule) threw) (rules, s, []) polls
    after.1.Sublist rules ∧
      (∀ i ∈ rules, after.2.2.count (i, .cancelled) = if i ∈ after.1 then 0 else 1) ∧
      after.2.2.Pairwise fun called later => called.2 = .cancelled → later.1 ≠ called.1 := by
  have h0 : Lived rules rules ([] : List (ι × Act)) :=
    ⟨fun i hi => iff_of_false (List.not_mem_nil) (not_not.mpr hi), List.Pairwise.nil,
      List.Sublist.refl _, hn⟩
  have h : Lived rules (Lib.run (wait (logged rule) threw) (rules, s, []) polls).1
      (Lib.run (wait (logged rule) threw) (rules, s, []) polls).2.2 :=
    Lib.run_inv (I := fun (t : List ι × σ × List (ι × Act)) => Lived rules t.1 t.2.2) h0
      (fun _ poll ht => wait_lived ht poll) polls
  refine ⟨h.sublist, fun i hi => ?_, h.last⟩
  split
  · rename_i hin
    rw [List.count_eq_zero, h.gone i hi]
    exact not_not.mpr hin
  · rename_i hout
    refine Nat.le_antisymm (Nat.not_lt.mp fun htwo => ?_)
      (List.count_pos_iff.mpr ((h.gone i hi).mpr hout))
    -- two cancellations would be in the order that the record excludes
    have hpair := h.last.sublist (List.replicate_sublist_iff.mpr htwo)
    exact (List.pairwise_cons.mp hpair).1 _ List.mem_cons_self rfl rfl

/-- A reader (`true`) that gets to the end at once, and a writer, of one descriptor. -/
def readAndWrite (reads : Bool) : Rule FileDescriptor String where
  fd s := s
  direction := if reads then .input else .output
  callback s := (.ok (), if reads then (s.read 1 (some [])).2 else s.registerWrite)

theorem lifecycle_readAndWrite :
    let polls := [.ready [{ pollIn := true }, { pollOut := true }], .ready [{ pollHup := true }]]
    let after := Lib.run (wait (logged readAndWrite) id) ([true, false], {}, []) polls
    after.2.2 = [(true, .served), (false, .served), (true, .cancelled), (false, .cancelled)] ∧
      ∀ reads ∈ [true, false], after.2.2.count (reads, .cancelled) =
        if reads ∈ after.1 then 0 else 1 := by
  refine ⟨by decide, ?_⟩
  exact (waits_lifecycle readAndWrite id [true, false] ({} : FileDescriptor) _ (by decide)).2.1

end EventLoop

end Sponge
