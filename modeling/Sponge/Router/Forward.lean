import Mathlib.Data.List.MinMax
import Sponge.Router.Model

/-!
# What the router sends

The table as a specification: `bestRoute` is the route whose prefix is the
longest of those that agree with an address, and `forward` what a datagram is
sent on as, if at all. The search with a mask finds that route
(`findLongestPrefix_picks`), and a run of `route` makes the calls `forward` says
for the queued datagrams, in their order, and no other (`route_forwards`): the
interfaces behind it are what these calls leave (`sendAll`).
-/

namespace Sponge

/-- The first `n` bits of an address. -/
def leadingBits (n : Nat) (address : UInt32) : Nat := address.toNat >>> (32 - n)

/-- The address starts with the prefix of the route. -/
def RouteElem.Matches (route : RouteElem) (dst : UInt32) : Prop :=
  leadingBits route.prefixLength.toNat dst = leadingBits route.prefixLength.toNat route.routePrefix

instance (dst : UInt32) : DecidablePred (RouteElem.Matches · dst) :=
  fun route => inferInstanceAs (Decidable (leadingBits _ dst = leadingBits _ route.routePrefix))

namespace Router

/-- The matching route with the longest prefix, the first of several in the table. -/
def bestRoute (routes : List RouteElem) (dst : UInt32) : Option RouteElem :=
  (routes.filter fun route => decide (route.Matches dst)).argmax fun route =>
    route.prefixLength.toNat

/-- How a datagram is sent on, if at all. -/
def forward (routes : List RouteElem) (dgram : InternetDatagram) : Option Send :=
  if 2 ≤ dgram.header.ttl.toNat then
    (bestRoute routes dgram.header.dst).map fun route =>
      { interfaceNum := route.interfaceNum
        dgram := lowerTtl dgram
        nextHop := route.nextHop.getD ⟨dgram.header.dst⟩ }
  else none

/-- What the calls leave of the interfaces. -/
def sendAll (interfaces : List NetworkInterface) (sends : List Send) : List NetworkInterface :=
  sends.foldl (fun interfaces f => interfaces.modify f.interfaceNum fun interface =>
    (interface.sendDatagram f.dgram f.nextHop).2) interfaces

/-- Prefixes have at most 32 bits, and routes lead to interfaces that are there. -/
def Valid (r : Router) : Prop :=
  ∀ route ∈ r.routes, route.prefixLength.toNat ≤ 32 ∧ route.interfaceNum < r.interfaces.length

instance (r : Router) : Decidable r.Valid := List.decidableBAll _ _

/-- `sendDatagram` does not throw for this call, whatever the interface has learned. -/
def Sendable (f : Send) : Prop :=
  ∀ (s : NetworkInterface) what, (s.sendDatagram f.dgram f.nextHop).1 ≠ .threw what

/-! ## The search -/

theorem ones_and {n k x : Nat} (hx : x < 2 ^ (n + k)) :
    ((2 ^ n - 1) <<< k) &&& x = (x >>> k) <<< k := by
  apply Nat.eq_of_testBit_eq
  intro i
  rw [Nat.testBit_and, Nat.testBit_shiftLeft, Nat.testBit_shiftLeft, Nat.testBit_shiftRight,
    Nat.testBit_two_pow_sub_one]
  rcases Nat.lt_or_ge i k with hik | hik
  · simp [Nat.not_le.mpr hik]
  · rw [Nat.add_sub_cancel' hik]
    by_cases hn : i - k < n
    · simp [hik, hn]
    · have hbit : x.testBit i = false :=
        Nat.testBit_lt_two_pow (Nat.lt_of_lt_of_le hx (Nat.pow_le_pow_right (by decide) (by omega)))
      simp [hbit]

theorem mask_toNat : ∀ n ≤ 32, (mask (UInt8.ofNat n)).toNat = (2 ^ n - 1) <<< (32 - n) := by
  decide

/-- The mask compares the leading bits. -/
theorem mask_and_iff {n : UInt8} (hn : n.toNat ≤ 32) (a b : UInt32) :
    (mask n &&& a) = (mask n &&& b) ↔ leadingBits n.toNat a = leadingBits n.toNat b := by
  have hmask : (mask n).toNat = (2 ^ n.toNat - 1) <<< (32 - n.toNat) := by
    have := mask_toNat n.toNat hn
    rwa [UInt8.ofNat_toNat] at this
  have hlt (x : UInt32) : x.toNat < 2 ^ (n.toNat + (32 - n.toNat)) := by
    rw [Nat.add_sub_cancel' hn]
    exact x.toNat_lt
  rw [← UInt32.toNat_inj, UInt32.toNat_and, UInt32.toNat_and, hmask, ones_and (hlt a),
    ones_and (hlt b), leadingBits, leadingBits, Nat.shiftLeft_eq, Nat.shiftLeft_eq]
  exact Nat.mul_left_inj (Nat.pos_iff_ne_zero.mp (Nat.two_pow_pos _))

/-- Where the search stands after the routes `done`. -/
def Found (dst : UInt32) (done : List RouteElem) (longest idx : Int) : Prop :=
  match bestRoute done dst with
  | none => longest = -1 ∧ idx = -1
  | some route => longest = route.prefixLength.toNat ∧ 0 ≤ idx ∧ done[idx.toNat]? = some route

theorem bestRoute_concat (done : List RouteElem) (route : RouteElem) (dst : UInt32) :
    bestRoute (done ++ [route]) dst =
      if route.Matches dst then
        match bestRoute done dst with
        | none => some route
        | some best =>
          if best.prefixLength.toNat < route.prefixLength.toNat then some route else some best
      else bestRoute done dst := by
  unfold bestRoute
  rw [List.filter_append]
  split
  · rename_i hm
    rw [List.filter_cons_of_pos (by simpa using hm), List.filter_nil, List.argmax_concat]
    cases List.argmax (fun route : RouteElem => route.prefixLength.toNat)
      (done.filter fun route => decide (route.Matches dst)) <;> rfl
  · rename_i hm
    rw [List.filter_cons_of_neg (by simpa using hm), List.filter_nil, List.append_nil]

theorem Found.keep {dst : UInt32} {done : List RouteElem} {longest idx : Int} {route : RouteElem}
    (h : Found dst done longest idx)
    (hbest : bestRoute (done ++ [route]) dst = bestRoute done dst) :
    Found dst (done ++ [route]) longest idx := by
  unfold Found at h ⊢
  rw [hbest]
  cases hb : bestRoute done dst with
  | none =>
    rw [hb] at h
    exact h
  | some best =>
    rw [hb] at h
    obtain ⟨h1, h2, h3⟩ := h
    refine ⟨h1, h2, ?_⟩
    rw [List.getElem?_append_left (List.getElem?_eq_some_iff.mp h3).1]
    exact h3

/-- A longer match takes the place of the best one. -/
theorem Found.take {dst : UInt32} {done : List RouteElem} {longest idx : Int} {route : RouteElem}
    (h : Found dst done longest idx) (hm : route.Matches dst)
    (hl : longest < route.prefixLength.toNat) :
    Found dst (done ++ [route]) route.prefixLength.toNat done.length := by
  have hbest : bestRoute (done ++ [route]) dst = some route := by
    rw [bestRoute_concat, if_pos hm]
    unfold Found at h
    cases hb : bestRoute done dst with
    | none => rfl
    | some best =>
      rw [hb] at h
      simp only at h ⊢
      exact if_pos (by omega)
  unfold Found
  rw [hbest]
  exact ⟨rfl, Int.natCast_nonneg _, by simp⟩

/-- A match that is not longer does not. -/
theorem Found.skip {dst : UInt32} {done : List RouteElem} {longest idx : Int} {route : RouteElem}
    (h : Found dst done longest idx)
    (hn : ¬ (route.Matches dst ∧ longest < route.prefixLength.toNat)) :
    Found dst (done ++ [route]) longest idx := by
  refine h.keep ?_
  rw [bestRoute_concat]
  split
  · rename_i hm
    have hl : ¬ longest < route.prefixLength.toNat := fun hl => hn ⟨hm, hl⟩
    unfold Found at h
    cases hb : bestRoute done dst with
    | none =>
      rw [hb] at h
      simp only at h
      omega
    | some best =>
      rw [hb] at h
      simp only at h ⊢
      exact if_neg (by omega)
  · rfl

/-- **Loop rule of the search.** What each route keeps, taken or passed over, holds at the end. -/
theorem findLoop_inv {dst : UInt32} {P : List RouteElem → Int → Int → Prop}
    (htake : ∀ done longest idx (route : RouteElem), P done longest idx → route.Matches dst →
      longest < route.prefixLength.toNat →
      P (done ++ [route]) route.prefixLength.toNat done.length)
    (hskip : ∀ done longest idx (route : RouteElem), P done longest idx →
      ¬ (route.Matches dst ∧ longest < route.prefixLength.toNat) →
      P (done ++ [route]) longest idx) :
    ∀ (rest done : List RouteElem) (longest idx : Int),
      (∀ route ∈ rest, route.prefixLength.toNat ≤ 32) → P done longest idx →
      ∃ longest', P (done ++ rest) longest' (findLoop dst rest longest idx done.length)
  | [], done, longest, idx, _, h => ⟨longest, by rw [List.append_nil]; exact h⟩
  | route :: rest, done, longest, idx, hlen, h => by
    have hmask := mask_and_iff (hlen route List.mem_cons_self) dst route.routePrefix
    have hcount : (done.length : Int) + 1 = (done ++ [route]).length := by simp
    have hrest := fun r hr => hlen r (List.mem_cons_of_mem _ hr)
    rw [List.append_cons, findLoop]
    simp only [hmask, hcount]
    split
    · rename_i hc
      exact findLoop_inv htake hskip rest _ _ _ hrest (htake done longest idx route h hc.1 hc.2)
    · rename_i hc
      exact findLoop_inv htake hskip rest _ _ _ hrest (hskip done longest idx route h hc)

/-- The search finds the best route. -/
theorem findLongestPrefix_picks {r : Router} (hr : r.Valid) (dst : UInt32) :
    match bestRoute r.routes dst with
    | none => r.findLongestPrefix dst = -1
    | some route =>
      0 ≤ r.findLongestPrefix dst ∧ r.routes[(r.findLongestPrefix dst).toNat]? = some route := by
  obtain ⟨longest, h⟩ := findLoop_inv (P := Found dst) (fun _ _ _ _ h hm hl => h.take hm hl)
    (fun _ _ _ _ h hn => h.skip hn) r.routes [] (-1) (-1) (fun route hm => (hr route hm).1)
    ⟨rfl, rfl⟩
  unfold Found at h
  rw [List.nil_append] at h
  cases hb : bestRoute r.routes dst with
  | none =>
    rw [hb] at h
    exact h.2
  | some route =>
    rw [hb] at h
    exact h.2

/-! ## One datagram -/

/-- The queues of the interfaces. -/
def queues (r : Router) : List (List InternetDatagram) := r.interfaces.map (·.datagramsOut)

/-- The interfaces without their queues. -/
def networkInterfaces (r : Router) : List NetworkInterface := r.interfaces.map (·.interface)

section
variable {r : Router}

theorem sendDatagram_returned {s : NetworkInterface} {dgram : InternetDatagram} {nextHop : Address}
    (h : ∀ what, (s.sendDatagram dgram nextHop).1 ≠ .threw what) :
    (s.sendDatagram dgram nextHop).1 = .returned none := by
  unfold NetworkInterface.sendDatagram at h ⊢
  split
  · split
    · rename_i hl _ what he
      simp only [hl, he] at h
      exact absurd rfl (h what)
    · rfl
  · split
    · split
      · rename_i hl _ hs _ what he
        simp only [hl, hs, he] at h
        exact absurd rfl (h what)
      · rfl
    · split <;> rfl

/-- What `serialize` accepts is sent or staged. -/
theorem sendable_of_serialize {f : Send} {payload : BufferList}
    (h : f.dgram.serialize = .ok payload) : Sendable f := by
  intro s what hthrew
  unfold NetworkInterface.sendDatagram at hthrew
  obtain ⟨bytes, harp⟩ := ARPMessage.serialize_ok
    (show (s.arpRequest f.nextHop.ipv4Numeric).Supported from ⟨rfl, rfl, rfl, rfl, .inl rfl⟩)
  rw [h, harp] at hthrew
  repeat' split at hthrew
  all_goals simp_all

theorem bestRoute_mem {routes : List RouteElem} {dst : UInt32} {route : RouteElem}
    (h : bestRoute routes dst = some route) : route ∈ routes :=
  List.mem_of_mem_filter (List.argmax_mem h)

/-- `r'` is what is left of `r` when the datagrams have been routed, up to the queues. -/
structure Forwarded (r : Router) (dgrams : List InternetDatagram) (r' : Router) : Prop where
  routes : r'.routes = r.routes
  count : r'.interfaces.length = r.interfaces.length
  sends : r'.sends = r.sends ++ dgrams.filterMap (forward r.routes)
  sent : r'.networkInterfaces =
    sendAll r.networkInterfaces (dgrams.filterMap (forward r.routes))

theorem Forwarded.refl (r : Router) : Forwarded r [] r :=
  ⟨rfl, rfl, by rw [List.filterMap_nil, List.append_nil], rfl⟩

/-- A datagram that is not sent on leaves everything as it is. -/
theorem Forwarded.dropped {dgram : InternetDatagram} (h : forward r.routes dgram = none) :
    Forwarded r [dgram] r := by
  have hnone : [dgram].filterMap (forward r.routes) = [] := List.filterMap_cons_none h
  exact ⟨rfl, rfl, by rw [hnone, List.append_nil], by rw [hnone]; rfl⟩

theorem Forwarded.trans {r₁ r₂ r₃ : Router} {ds es : List InternetDatagram}
    (h : Forwarded r₁ ds r₂) (h' : Forwarded r₂ es r₃) : Forwarded r₁ (ds ++ es) r₃ where
  routes := h'.routes.trans h.routes
  count := h'.count.trans h.count
  sends := by rw [h'.sends, h.sends, h.routes, List.filterMap_append, List.append_assoc]
  sent := by
    rw [h'.sent, h.sent, h.routes, List.filterMap_append]
    exact List.foldl_append.symm

theorem Forwarded.valid {dgrams : List InternetDatagram} {r' : Router}
    (h : Forwarded r dgrams r') (hr : r.Valid) : r'.Valid := by
  unfold Valid
  rw [h.routes, h.count]
  exact hr

/-- A table built by adding interfaces and routes to them is valid. -/
theorem Valid.addInterface (hr : r.Valid) (interface : AsyncNetworkInterface) :
    (r.addInterface interface).2.Valid := by
  intro route hroute
  obtain ⟨hlen, hnum⟩ := hr route hroute
  refine ⟨hlen, ?_⟩
  simp only [Router.addInterface, List.length_append]
  omega

theorem Valid.addRoute (hr : r.Valid) (routePrefix : UInt32) {prefixLength : UInt8}
    (hlen : prefixLength.toNat ≤ 32) (nextHop : Option Address) {interfaceNum : Nat}
    (hnum : interfaceNum < r.interfaces.length) :
    (r.addRoute routePrefix prefixLength nextHop interfaceNum).Valid := by
  intro route hroute
  rcases List.mem_append.mp hroute with hroute | hroute
  · exact hr route hroute
  · rw [List.mem_singleton.mp hroute]
    exact ⟨hlen, hnum⟩

theorem sendOn_spec {n : Nat} {dgram : InternetDatagram} {nextHop : Address}
    (hn : n < r.interfaces.length) (hs : Sendable ⟨n, dgram, nextHop⟩) :
    ∃ r', r.sendOn n dgram nextHop = (.returned none, r') ∧ r'.routes = r.routes ∧
      r'.queues = r.queues ∧ r'.sends = r.sends ++ [⟨n, dgram, nextHop⟩] ∧
      r'.networkInterfaces = sendAll r.networkInterfaces [⟨n, dgram, nextHop⟩] := by
  unfold sendOn
  rw [List.getElem?_eq_getElem hn]
  simp only [sendDatagram_returned (hs _)]
  refine ⟨_, rfl, rfl, ?_, rfl, ?_⟩
  · unfold queues
    simp only
    have hlt : n < (r.interfaces.map (·.datagramsOut)).length := by rwa [List.length_map]
    have hset : (r.interfaces.map (·.datagramsOut)).set n (r.interfaces.map (·.datagramsOut))[n] =
        r.interfaces.map (·.datagramsOut) := List.set_getElem_self hlt
    rw [List.getElem_map] at hset
    rw [List.map_set]
    exact hset
  · unfold networkInterfaces
    simp only
    rw [List.map_set, sendAll, List.foldl_cons, List.foldl_nil, List.modify_eq_set_getElem?,
      List.getElem?_map, List.getElem?_eq_getElem hn]
    rfl

theorem length_queues (r : Router) : r.queues.length = r.interfaces.length := List.length_map _

/-- A datagram is sent on as the table says, or dropped. -/
theorem routeOneDatagram_spec (hr : r.Valid) {dgram : InternetDatagram}
    (hs : ∀ f ∈ forward r.routes dgram, Sendable f) :
    ∃ d r', r.routeOneDatagram dgram = (.returned none, d, r') ∧ Forwarded r [dgram] r' ∧
      r'.queues = r.queues := by
  have hpick := findLongestPrefix_picks hr dgram.header.dst
  have httl : dgram.header.ttl > 1 ↔ 2 ≤ dgram.header.ttl.toNat := by
    rw [gt_iff_lt, UInt8.lt_iff_toNat_lt]
    exact Iff.rfl
  unfold routeOneDatagram
  simp only [httl]
  by_cases ht : 2 ≤ dgram.header.ttl.toNat
  · cases hb : bestRoute r.routes dgram.header.dst with
    | none =>
      have hf : forward r.routes dgram = none := by rw [forward, if_pos ht, hb]; rfl
      rw [hb] at hpick
      simp only at hpick
      rw [if_neg (by omega)]
      exact ⟨_, r, rfl, .dropped hf, rfl⟩
    | some route =>
      have hf : forward r.routes dgram = some ⟨route.interfaceNum, lowerTtl dgram,
          route.nextHop.getD ⟨dgram.header.dst⟩⟩ := by rw [forward, if_pos ht, hb]; rfl
      rw [hb] at hpick
      obtain ⟨hidx, hroute⟩ := hpick
      obtain ⟨r', hsend, hroutes, hqueues, hsends, hsent⟩ :=
        sendOn_spec (hr route (bestRoute_mem hb)).2 (hs _ hf)
      rw [if_pos ⟨ht, by omega⟩, hroute]
      refine ⟨_, r', by simp only [lowerTtl] at hsend ⊢; rw [hsend], ⟨hroutes, ?_, ?_, ?_⟩,
        hqueues⟩
      · rw [← length_queues, hqueues, length_queues]
      · rw [hsends, List.filterMap_cons_some hf, List.filterMap_nil]
      · rw [hsent, List.filterMap_cons_some hf, List.filterMap_nil]
  · have hf : forward r.routes dgram = none := if_neg ht
    rw [if_neg (fun h => ht h.1)]
    exact ⟨_, r, rfl, .dropped hf, rfl⟩

/-! ## The queues -/

theorem queue_eq (r : Router) (i : Nat) : r.queue i = (r.queues[i]?).getD [] := by
  unfold queue queues
  rw [List.getElem?_map]
  cases r.interfaces[i]? <;> rfl

theorem setQueue_queues (r : Router) (i : Nat) (q : List InternetDatagram) :
    (r.setQueue i q).queues = r.queues.set i q := by
  apply List.ext_getElem?
  intro j
  unfold setQueue queues
  simp only
  rw [List.getElem?_map, List.getElem?_modify, List.getElem?_set, List.getElem?_map]
  by_cases hij : i = j
  · subst hij
    cases hi : r.interfaces[i]? with
    | none => simp [List.getElem?_eq_none_iff.mp hi]
    | some iface => simp [(List.getElem?_eq_some_iff.mp hi).1]
  · simp [hij]

theorem setQueue_networkInterfaces (r : Router) (i : Nat) (q : List InternetDatagram) :
    (r.setQueue i q).networkInterfaces = r.networkInterfaces := by
  apply List.ext_getElem?
  intro j
  unfold setQueue networkInterfaces
  simp only
  rw [List.getElem?_map, List.getElem?_modify, List.getElem?_map]
  cases r.interfaces[j]? <;> split <;> rfl

theorem setQueue_forwarded (r : Router) (i : Nat) (q : List InternetDatagram) :
    Forwarded r [] (r.setQueue i q) where
  routes := rfl
  count := by rw [← length_queues, setQueue_queues, List.length_set, length_queues]
  sends := by rw [List.filterMap_nil, List.append_nil]; rfl
  sent := setQueue_networkInterfaces r i q

/-- A queue is emptied, and what is in it routed in its order. -/
theorem drainLoop_spec (i : Nat) : ∀ (q : List InternetDatagram) (r : Router), r.Valid →
    i < r.interfaces.length → r.queue i = q →
    (∀ dgram ∈ q, ∀ f ∈ forward r.routes dgram, Sendable f) →
    ∃ r', drainLoop i q.length r = (.returned none, r') ∧ Forwarded r q r' ∧
      r'.queues = r.queues.set i []
  | [], r, _, hi, hq, _ => by
    refine ⟨r, rfl, .refl r, ?_⟩
    have hlt : i < r.queues.length := by rwa [length_queues]
    have hset : r.queues.set i r.queues[i] = r.queues := List.set_getElem_self hlt
    rw [queue_eq, List.getElem?_eq_getElem hlt, Option.getD_some] at hq
    rw [hq] at hset
    exact hset.symm
  | dgram :: rest, r, hr, hi, hq, hs => by
    obtain ⟨d, r₁, hone, hfwd, hqueues⟩ := routeOneDatagram_spec hr (hs dgram List.mem_cons_self)
    have hset := setQueue_forwarded r₁ i rest
    have hfwd' : Forwarded r [dgram] (r₁.setQueue i rest) := by
      simpa using hfwd.trans hset
    have hi' : i < (r₁.setQueue i rest).interfaces.length := by rwa [hfwd'.count]
    have hq' : (r₁.setQueue i rest).queue i = rest := by
      rw [queue_eq, setQueue_queues, List.getElem?_set_self]
      · rfl
      · rwa [length_queues, hfwd.count]
    obtain ⟨r', hdrain, hrest, hqueues'⟩ := drainLoop_spec i rest (r₁.setQueue i rest)
      (hfwd'.valid hr) hi' hq' (by
        rw [hfwd'.routes]
        exact fun e he => hs e (List.mem_cons_of_mem _ he))
    refine ⟨r', ?_, by simpa using hfwd'.trans hrest, ?_⟩
    · rw [List.length_cons, drainLoop, hq]
      simp only [hone]
      exact hdrain
    · rw [hqueues', setQueue_queues, hqueues, List.set_set]

theorem routeLoop_spec : ∀ (is : List Nat) (r : Router), r.Valid → is.Nodup →
    (∀ i ∈ is, i < r.interfaces.length) →
    (∀ i ∈ is, ∀ dgram ∈ r.queue i, ∀ f ∈ forward r.routes dgram, Sendable f) →
    ∃ r', routeLoop is r = (.returned none, r') ∧ Forwarded r (is.flatMap r.queue) r' ∧
      ∀ j, r'.queue j = if j ∈ is then [] else r.queue j
  | [], r, _, _, _, _ => ⟨r, rfl, .refl r, fun j => by simp⟩
  | i :: is, r, hr, hnodup, hi, hs => by
    obtain ⟨hnot, hnodup'⟩ := List.nodup_cons.mp hnodup
    have hlt := hi i List.mem_cons_self
    obtain ⟨r₁, hdrain, hfwd, hqueues⟩ := drainLoop_spec i (r.queue i) r hr hlt rfl
      (hs i List.mem_cons_self)
    have hqueue : ∀ j, r₁.queue j = if j = i then [] else r.queue j := by
      intro j
      rw [queue_eq, hqueues, List.getElem?_set, length_queues]
      by_cases hij : i = j
      · rw [if_pos hij, if_pos hlt, if_pos hij.symm]
        rfl
      · rw [if_neg hij, if_neg (Ne.symm hij), queue_eq]
    have hothers : ∀ j ∈ is, r₁.queue j = r.queue j := fun j hj => by
      rw [hqueue, if_neg]
      rintro rfl
      exact hnot hj
    obtain ⟨r', hloop, hrest, hempty⟩ := routeLoop_spec is r₁ (hfwd.valid hr) hnodup'
      (fun j hj => by rw [hfwd.count]; exact hi j (List.mem_cons_of_mem _ hj))
      (fun j hj => by
        rw [hothers j hj, hfwd.routes]
        exact hs j (List.mem_cons_of_mem _ hj))
    refine ⟨r', ?_, ?_, fun j => ?_⟩
    · rw [routeLoop, hdrain]
      exact hloop
    · have hflat : is.flatMap r₁.queue = is.flatMap r.queue := by
        rw [List.flatMap_def, List.flatMap_def, List.map_congr_left hothers]
      rw [List.flatMap_cons, ← hflat]
      exact hfwd.trans hrest
    · rw [hempty, hqueue]
      by_cases hj : j = i
      · simp [hj]
      · simp [hj]

end

/-- The datagrams that wait in the queues, in the order of the interfaces. -/
def queued (r : Router) : List InternetDatagram := r.interfaces.flatMap (·.datagramsOut)

theorem queued_eq (r : Router) : (List.range r.interfaces.length).flatMap r.queue = r.queued := by
  have hmap : (List.range r.interfaces.length).map r.queue = r.queues := by
    refine List.ext_getElem (by simp [length_queues]) fun j h1 h2 => ?_
    rw [List.getElem_map, List.getElem_range, queue_eq, List.getElem?_eq_getElem h2]
    rfl
  rw [List.flatMap_def, hmap, queued, List.flatMap_def]
  rfl

/-- **Routing.** For every valid table and all contents of the queues, `route` returns with the
queues empty; the calls of `sendDatagram` it makes are those the table says for the queued
datagrams, in the order of the interfaces and, within one, of its queue, and they alone make the
interfaces what they are then. -/
theorem route_forwards (r : Router) (hr : r.Valid)
    (hs : ∀ dgram ∈ r.queued, ∀ f ∈ forward r.routes dgram, Sendable f) :
    r.route.1 = .returned none ∧ (∀ iface ∈ r.route.2.interfaces, iface.datagramsOut = []) ∧
      r.route.2.sends = r.sends ++ r.queued.filterMap (forward r.routes) ∧
      r.route.2.networkInterfaces =
        sendAll r.networkInterfaces (r.queued.filterMap (forward r.routes)) := by
  obtain ⟨r', hroute, hfwd, hempty⟩ := routeLoop_spec (List.range r.interfaces.length) r hr
    List.nodup_range (fun i hi => List.mem_range.mp hi) (fun i hi dgram hd => hs dgram (by
      rw [← queued_eq]
      exact List.mem_flatMap.mpr ⟨i, hi, hd⟩))
  rw [queued_eq] at hfwd
  unfold route
  rw [hroute]
  refine ⟨rfl, fun iface hm => ?_, hfwd.sends, hfwd.sent⟩
  obtain ⟨j, hj, heq⟩ := List.mem_iff_getElem.mp hm
  have hqueue := hempty j
  rw [if_pos (List.mem_range.mpr (by rwa [← hfwd.count]))] at hqueue
  rw [queue, List.getElem?_eq_getElem hj, heq] at hqueue
  exact hqueue

/-- A default route over the first of two interfaces, and a network behind the second. -/
def twoRoutes : List RouteElem :=
  [{ routePrefix := 0, prefixLength := 0, nextHop := some ⟨0x01020304⟩, interfaceNum := 0 },
   { routePrefix := 0x0a000000, prefixLength := 8, interfaceNum := 1 }]

def datagramTo (dst : UInt32) (ttl : UInt8) : InternetDatagram where
  header := { len := 21, ttl := ttl, dst := dst }
  payload := [[0]]

/-- Three datagrams on the first interface: one for the network, one for the rest of the world,
and one whose time has come. -/
def twoInterfaces : Router where
  interfaces :=
    [{ interface := { ethernetAddress := ETHERNET_BROADCAST, ipAddress := ⟨1⟩ }
       datagramsOut := [datagramTo 0x0a000007 64, datagramTo 0x0b000007 2, datagramTo 7 1] },
     { interface := { ethernetAddress := ETHERNET_BROADCAST, ipAddress := ⟨2⟩ } }]
  routes := twoRoutes

theorem route_forwards_two : twoInterfaces.route.1 = .returned none ∧
    (∀ iface ∈ twoInterfaces.route.2.interfaces, iface.datagramsOut = []) ∧
    twoInterfaces.route.2.sends =
      [{ interfaceNum := 1, dgram := datagramTo 0x0a000007 63, nextHop := ⟨0x0a000007⟩ },
       { interfaceNum := 0, dgram := datagramTo 0x0b000007 1, nextHop := ⟨0x01020304⟩ }] ∧
    twoInterfaces.route.2.networkInterfaces.map (·.dgramStage) =
      [[(⟨0x01020304⟩, datagramTo 0x0b000007 1)], [(⟨0x0a000007⟩, datagramTo 0x0a000007 63)]] := by
  have hok : ∀ dgram ∈ twoInterfaces.queued, ∀ f ∈ forward twoRoutes dgram,
      f.dgram.serialize.isOk = true := by decide
  obtain ⟨hreturned, hempty, hsends, hsent⟩ :=
    route_forwards twoInterfaces (by decide) fun dgram hd f hf => by
      have := hok dgram hd f hf
      cases hs : f.dgram.serialize with
      | error what =>
        rw [hs] at this
        cases this
      | ok payload => exact sendable_of_serialize hs
  refine ⟨hreturned, hempty, hsends, ?_⟩
  rw [hsent]
  decide

end Router

end Sponge
