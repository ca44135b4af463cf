import Sponge.Router.Forward

/-!
# Which route is found

`findLongestPrefix` returns a position of the table. `LongestAt` says which one
it should be, apart from the search: of the routes that agree with the address
on their prefix, the first that is as long as any. The loop of the search keeps
that for the routes behind it (`Stands`), ties and default routes included.
-/

namespace Sponge.Router

/-- At `i` is the first of the longest routes that match. -/
def LongestAt (routes : List RouteElem) (dst : UInt32) (i : Nat) (route : RouteElem) : Prop :=
  routes[i]? = some route ∧ route.Matches dst ∧
    ∀ (j : Nat) (other : RouteElem), routes[j]? = some other → other.Matches dst →
      other.prefixLength.toNat ≤ route.prefixLength.toNat ∧
        (other.prefixLength = route.prefixLength → i ≤ j)

/-- Where the search stands after the routes `done`. -/
def Stands (dst : UInt32) (done : List RouteElem) (longest idx : Int) : Prop :=
  (longest = -1 ∧ idx = -1 ∧ ∀ route ∈ done, ¬ route.Matches dst) ∨
    ∃ (i : Nat) (route : RouteElem), longest = route.prefixLength.toNat ∧ idx = i ∧
      LongestAt done dst i route

/-- The routes are added to the table in order. -/
def addRoutes (r : Router) (routes : List RouteElem) : Router :=
  routes.foldl (fun r route =>
    r.addRoute route.routePrefix route.prefixLength route.nextHop route.interfaceNum) r

theorem addRoutes_routes (r : Router) (routes : List RouteElem) :
    (r.addRoutes routes).routes = r.routes ++ routes := by
  induction routes generalizing r with
  | nil => exact (List.append_nil _).symm
  | cons route routes ih =>
    show ((r.addRoute route.routePrefix route.prefixLength route.nextHop
      route.interfaceNum).addRoutes routes).routes = _
    rw [ih, addRoute, List.append_assoc, List.singleton_append]

section
variable {dst : UInt32} {done : List RouteElem} {longest idx : Int} {route : RouteElem}

theorem getElem?_concat {other : RouteElem} {j : Nat} :
    (done ++ [route])[j]? = some other ↔
      done[j]? = some other ∨ j = done.length ∧ other = route := by
  rw [List.getElem?_append]
  split
  · rename_i hlt
    constructor
    · exact .inl
    · rintro (h | ⟨rfl, -⟩)
      · exact h
      · omega
  · rename_i hge
    have hnone : done[j]? = none := List.getElem?_eq_none (by omega)
    rw [hnone, List.getElem?_singleton]
    constructor
    · intro h
      split at h
      · exact .inr ⟨by omega, (Option.some.inj h).symm⟩
      · cases h
    · rintro (h | ⟨rfl, rfl⟩)
      · cases h
      · simp

/-- A longer match is the first of its length. -/
theorem Stands.take (h : Stands dst done longest idx) (hm : route.Matches dst)
    (hl : longest < route.prefixLength.toNat) :
    Stands dst (done ++ [route]) route.prefixLength.toNat done.length := by
  refine .inr ⟨done.length, route, rfl, rfl, getElem?_concat.mpr (.inr ⟨rfl, rfl⟩), hm, ?_⟩
  intro j other hj hother
  rcases getElem?_concat.mp hj with hj | ⟨rfl, rfl⟩
  · rcases h with ⟨-, -, hnone⟩ | ⟨i, best, rfl, -, -, -, hbest⟩
    · exact absurd hother (hnone other (List.mem_of_getElem? hj))
    · obtain ⟨hle, -⟩ := hbest j other hj hother
      refine ⟨by omega, fun he => ?_⟩
      rw [he] at hle
      omega
  · exact ⟨Nat.le_refl _, fun _ => Nat.le_refl _⟩

/-- What does not match or is not longer changes nothing. -/
theorem Stands.skip (h : Stands dst done longest idx)
    (hn : ¬ (route.Matches dst ∧ longest < route.prefixLength.toNat)) :
    Stands dst (done ++ [route]) longest idx := by
  rcases h with ⟨rfl, rfl, hnone⟩ | ⟨i, best, rfl, rfl, hget, hm, hbest⟩
  · refine .inl ⟨rfl, rfl, fun other hother => ?_⟩
    rcases List.mem_append.mp hother with hother | hother
    · exact hnone other hother
    · rw [List.mem_singleton.mp hother]
      exact fun hm => hn ⟨hm, by omega⟩
  · refine .inr ⟨i, best, rfl, rfl, getElem?_concat.mpr (.inl hget), hm, ?_⟩
    intro j other hj hother
    rcases getElem?_concat.mp hj with hj | ⟨rfl, rfl⟩
    · exact hbest j other hj hother
    · have hlt := (List.getElem?_eq_some_iff.mp hget).1
      have hle : ¬ (best.prefixLength.toNat : Int) < other.prefixLength.toNat :=
        fun hlt => hn ⟨hother, hlt⟩
      exact ⟨by omega, fun _ => by omega⟩

end

/-- **Longest-prefix match.** For a table of routes with prefixes of at most 32 bits, the search
returns -1 exactly if no route matches, and else the position of the first of the longest ones
that do. -/
theorem findLongestPrefix_longest (interfaces : List AsyncNetworkInterface)
    (routes : List RouteElem) (hlen : ∀ route ∈ routes, route.prefixLength.toNat ≤ 32)
    (dst : UInt32) :
    (findLongestPrefix (addRoutes { interfaces } routes) dst = -1 ↔
      ∀ route ∈ routes, ¬ route.Matches dst) ∧
    ((∃ route ∈ routes, route.Matches dst) → ∃ (i : Nat) (route : RouteElem),
      findLongestPrefix (addRoutes { interfaces } routes) dst = i ∧
        LongestAt routes dst i route) := by
  have hstart : Stands dst [] (-1) (-1) := .inl ⟨rfl, rfl, by rintro _ ⟨⟩⟩
  obtain ⟨longest, h⟩ := findLoop_inv (P := Stands dst) (fun _ _ _ _ h hm hl => h.take hm hl)
    (fun _ _ _ _ h hn => h.skip hn) routes [] (-1) (-1) hlen hstart
  have hfind : findLongestPrefix (addRoutes { interfaces } routes) dst =
      findLoop dst routes (-1) (-1) 0 := by
    rw [findLongestPrefix, addRoutes_routes]
    rfl
  rw [List.nil_append] at h
  rw [hfind]
  rcases h with ⟨-, hidx, hnone⟩ | ⟨i, route, -, hidx, hlongest⟩
  · refine ⟨iff_of_true hidx hnone, ?_⟩
    rintro ⟨route, hmem, hm⟩
    exact absurd hm (hnone route hmem)
  · have hmem := List.mem_of_getElem? hlongest.1
    change findLoop dst routes (-1) (-1) 0 = i at hidx
    refine ⟨iff_of_false (by omega) fun hnone => hnone route hmem hlongest.2.1, fun _ => ?_⟩
    exact ⟨i, route, hidx, hlongest⟩

/-- A default route, two routes to 10.x.x.x that differ in the bits behind, and a host. -/
def tiedRoutes : List RouteElem :=
  [{}, { routePrefix := 0x0a0b0c0d, prefixLength := 8 },
    { routePrefix := 0x0a000000, prefixLength := 8, interfaceNum := 1 },
    { routePrefix := 0x0a010204, prefixLength := 32, interfaceNum := 2 }]

/-- The address is one off the host's: the first route to 10.x.x.x is found. -/
theorem findLongestPrefix_tied :
    (∃ route ∈ tiedRoutes, route.Matches 0x0a010203) ∧ ∃ (i : Nat) (route : RouteElem),
      findLongestPrefix (addRoutes {} tiedRoutes) 0x0a010203 = i ∧
        LongestAt tiedRoutes 0x0a010203 i route :=
  ⟨by decide, (findLongestPrefix_longest [] tiedRoutes (by decide) 0x0a010203).2 (by decide)⟩

example : findLongestPrefix (addRoutes {} tiedRoutes) 0x0a010203 = 1 := by decide

end Sponge.Router
