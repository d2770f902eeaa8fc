import Lightning.Util.Sync

/-!
# The default router's random seed

`lightning-invoice/src/utils.rs`, `DefaultRouter`. The router keeps a 32-byte random seed in a
`Mutex`. Each `find_route` replaces the seed by its SHA-256 hash while holding the guard, then
calls `router::find_route` with the new seed after the guard is dropped. Routes are found
concurrently, so the seed's update is the one step that must not be lost or repeated.

`find_route_seed_chain` is the law of every schedule of concurrent `find_route` calls on a
router made by `new`. The mutex is never poisoned, and the seed is the initial seed hashed once
per call past the lock. The `j`-th call to pass the lock is handed the seed hashed `j + 1`
times, and gives `router::find_route` that seed. No two calls are handed the same link of the
chain, and no link is skipped.
-/

namespace Lightning.Invoice

open Lightning.Util

/-- The functions `find_route` calls from outside the sources: `sha256` is
`sha256::Hash::hash`, and `findRoute args seed` is `router::find_route` on the router's network
graph and logger, the call's arguments `args` and the random seed `seed`. -/
structure RouterPrimitives (Args Route : Type) where
  sha256 : List UInt8 → Mathlib.Vector UInt8 32
  findRoute : Args → Mathlib.Vector UInt8 32 → Route

/-- `DefaultRouter`, its seed; the network graph and logger are read only, through
`findRoute`. -/
structure DefaultRouter where
  randomSeedBytes : Mutex (Mathlib.Vector UInt8 32)

namespace DefaultRouter

variable {Args Route : Type} (prims : RouterPrimitives Args Route)

/-- `DefaultRouter::new`. -/
def new (randomSeedBytes : Mathlib.Vector UInt8 32) : DefaultRouter := ⟨⟨randomSeedBytes, false⟩⟩

/-- `find_route` with no other thread about: `lock().unwrap()` panics (`none`) on a poisoned
mutex; otherwise the seed is replaced by its hash and the route is found with the new seed. -/
def findRoute (self : DefaultRouter) (args : Args) : Option Route × DefaultRouter :=
  if self.randomSeedBytes.poisoned then (none, self)
  else
    let randomSeedBytes := prims.sha256 self.randomSeedBytes.data.toList
    (some (prims.findRoute args randomSeedBytes), ⟨⟨randomSeedBytes, false⟩⟩)

/-- `find_route` cut at its lock: no check before `lock()`, the seed hashed in place holding the
guard (the block never panics), and `router::find_route` after the guard is dropped. -/
def findRouteCall : LockedCall Args (Mathlib.Vector UInt8 32) (Mathlib.Vector UInt8 32) Route where
  pre _ := true
  body _ lockedRandomSeedBytes :=
    let randomSeedBytes := prims.sha256 lockedRandomSeedBytes.toList
    (some randomSeedBytes, randomSeedBytes)
  tail args randomSeedBytes := prims.findRoute args randomSeedBytes

/-- One link of the seed's hash chain. -/
def nextSeed (seed : Mathlib.Vector UInt8 32) : Mathlib.Vector UInt8 32 := prims.sha256 seed.toList

/-- The cut call, made alone, is `find_route`. -/
theorem findRoute_eq_call (self : DefaultRouter) (args : Args) :
    self.findRoute prims args =
      (((findRouteCall prims).call self.randomSeedBytes args).1,
        ⟨((findRouteCall prims).call self.randomSeedBytes args).2⟩) := by
  cases hp : self.randomSeedBytes.poisoned <;>
    simp [findRoute, LockedCall.call, LockedCall.guarded, findRouteCall, hp]

theorem guarded_findRouteCall {seed : Mathlib.Vector UInt8 32} (args : Args) :
    (findRouteCall prims).guarded ⟨seed, false⟩ args =
      (some (nextSeed prims seed), ⟨nextSeed prims seed, false⟩) := rfl

/-- Calls made one after another from an unpoisoned seed walk its hash chain. -/
theorem lockAll_findRouteCall (seed : Mathlib.Vector UInt8 32) (xs : List Args) :
    (findRouteCall prims).lockAll ⟨seed, false⟩ xs = ⟨(nextSeed prims)^[xs.length] seed, false⟩ := by
  induction xs generalizing seed with
  | nil => rfl
  | cons x xs ih =>
    show (findRouteCall prims).lockAll ((findRouteCall prims).guarded ⟨seed, false⟩ x).2 xs = _
    rw [guarded_findRouteCall, ih, List.length_cons, Function.iterate_succ_apply]

/-- Concurrent `find_route` calls on a router made by `new seed₀`: whatever the schedule, some
order of the calls past the lock has the mutex unpoisoned and holding `seed₀` hashed once per
call in the order. The `j`-th call of the order holds, or has passed to `router::find_route`,
`seed₀` hashed `j + 1` times. Every other call is still waiting at `lock()`. -/
theorem find_route_seed_chain {n : Nat} (seed₀ : Mathlib.Vector UInt8 32) (args : Fin n → Args)
    (sched : List (Fin n)) :
    ∃ order : List (Fin n), order.Nodup ∧
      ((findRouteCall prims).run args (Threads.init (new seed₀).randomSeedBytes) sched).mutex =
        ⟨(nextSeed prims)^[order.length] seed₀, false⟩ ∧
      (∀ j i, order[j]? = some i →
        ((findRouteCall prims).run args (Threads.init (new seed₀).randomSeedBytes) sched).phase i =
            .unlocked ((nextSeed prims)^[j + 1] seed₀) ∨
          ((findRouteCall prims).run args (Threads.init (new seed₀).randomSeedBytes) sched).phase i =
            .finished (some (prims.findRoute (args i) ((nextSeed prims)^[j + 1] seed₀)))) ∧
      ∀ i, i ∉ order →
        ((findRouteCall prims).run args (Threads.init (new seed₀).randomSeedBytes) sched).phase i =
          .ready := by
  obtain ⟨order, hs⟩ := LockedCall.linearizes_run (findRouteCall prims) args
    (new seed₀).randomSeedBytes sched
  refine ⟨order, hs.nodup, by rw [hs.mutex_eq, new, lockAll_findRouteCall, List.length_map],
    fun j i hj => ?_, fun i hi => ?_⟩
  · have hpass := (hs.placed i).1 j hj
    have hlen : ((order.take j).map args).length = j := by
      rw [List.length_map, List.length_take_of_le (List.getElem?_eq_some_iff.1 hj).1.le]
    rw [new, lockAll_findRouteCall, hlen, guarded_findRouteCall] at hpass
    rwa [Function.iterate_succ_apply']
  · rcases (hs.placed i).2 hi with h | ⟨-, h⟩
    · exact h
    · cases h

end DefaultRouter

end Lightning.Invoice
