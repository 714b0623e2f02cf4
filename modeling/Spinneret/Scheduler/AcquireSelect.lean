import Spinneret.Scheduler.AcquireProxy

/-!
# Acquire: candidate pools and selection strategies

A sampling round works on a pool of due identities. Entries are evaluated only
when they are chosen; the selection key of an entry is cached because the
weighted strategy multiplies it for verified pending identities.
-/

namespace Spinneret.Scheduler

open Spinneret.HotState

set_option autoImplicit false

structure PoolEntry where
  i : Hkey
  key : Option ℚ := none
  c : Option Candidate := none

structure Pool where
  entries : List PoolEntry
  exact : Bool := false

/-- `new_pool`: at most `limit` sampled identities this call has not taken. -/
def newPool (ids : List Hkey) (limit : Nat) (skip : List Hkey) : Pool where
  entries := ((ids.filter fun i => !skip.contains i).take limit).map fun i => { i := i }

/-- `pool_remove`: entry `j` is replaced by the last entry. -/
def Pool.remove (pool : Pool) (j : Nat) : Pool :=
  match pool.entries.getLast? with
  | none => pool
  | some last => { pool with entries := (pool.entries.set j last).dropLast }

def Pool.setEntry (pool : Pool) (j : Nat) (entry : PoolEntry) : Pool :=
  { pool with entries := pool.entries.set j entry }

/-- `hs_score`: the decayed score of a packed entry. -/
def hsScore (args : AcquireArgs) (entry : Option Health) : ℚ :=
  match entry with
  | none => args.baseline
  | some health => decay args.exp health.score health.sts args.now args.baseline args.tau

def hsLastUsed (entry : Option Health) : Int := (entry.map Health.lu).getD 0

/-- `weight_of`: the squared score clamped to `[5, 100]`. -/
def weightOf (args : AcquireArgs) (entry : Option Health) : ℚ :=
  let score := max 5 (min (hsScore args entry) 100)
  score * score

def weightMax : ℚ := 10000

/-- The cached selection key of an entry, computed on first use. -/
def PoolEntry.weight (args : AcquireArgs) (site : Site) (entry : PoolEntry) : ℚ :=
  entry.key.getD (weightOf args (site.hs args.eg entry.i))

def PoolEntry.weighed (args : AcquireArgs) (site : Site) (entry : PoolEntry) : PoolEntry :=
  { entry with key := some (entry.weight args site) }

/-- Outcome of a choice: the index, the pool with its cached keys, the draws
made and the round-robin cursor. -/
structure Choice where
  index : Nat
  pool : Pool
  ridx : Nat
  cursor : Option Int

/-- Rejection sampling of the weighted strategy: a uniform proposal is accepted
with probability weight / 100². -/
def propose (args : AcquireArgs) (site : Site) : Nat → Pool → Nat → Option Nat × Pool × Nat
  | 0, pool, ridx => (none, pool, ridx)
  | tries + 1, pool, ridx =>
    let n := pool.entries.length
    let j := min (⌊rnd args.randoms (ridx + 1) * (n : ℚ)⌋.toNat) (n - 1)
    match pool.entries[j]? with
    | none => (none, pool, ridx + 1)
    | some entry =>
      let pool := pool.setEntry j (entry.weighed args site)
      if rnd args.randoms (ridx + 2) * weightMax < entry.weight args site then
        (some j, pool, ridx + 2)
      else propose args site tries pool (ridx + 2)

/-- The first index whose cumulative weight exceeds the target, else the last. -/
def roulette (target : ℚ) : ℚ → Nat → List ℚ → Nat
  | _, index, [] => index - 1
  | acc, index, weight :: rest =>
    if target < acc + weight then index else roulette target (acc + weight) (index + 1) rest

/-- The first index of a list whose value no later value improves on. -/
def firstBest {Value : Type*} (better : Value → Value → Bool) (values : List Value) : Nat :=
  match values with
  | [] => 0
  | first :: rest =>
    (rest.foldl
      (fun state value =>
        if better value state.2.1 then (state.2.2, value, state.2.2 + 1)
        else (state.1, state.2.1, state.2.2 + 1))
      (0, first, 1)).1

/-- Round robin: the smallest key above the cursor, else the smallest key. -/
def roundRobinIndex (cursor : Int) (ids : List Hkey) : Nat :=
  let above : List Hkey := ids.filter fun i => decide (cursor < Int.ofNat i)
  let chosen := match above with
    | [] => ids.getD (firstBest (fun left right => decide (left < right)) ids) 0
    | _ :: _ => above.getD (firstBest (fun left right => decide (left < right)) above) 0
  ids.idxOf chosen

def pickIndex (args : AcquireArgs) (site : Site) (strategy : Strategy) (pool : Pool)
    (ridx : Nat) (cursor : Option Int) : Choice :=
  match strategy with
  | .weightedRandom =>
    let proposed := if pool.exact then (none, pool, ridx) else propose args site 8 pool ridx
    match proposed with
    | (some j, pool, ridx) => { index := j, pool := pool, ridx := ridx, cursor := cursor }
    | (none, pool, ridx) =>
      let weighed := pool.entries.map (PoolEntry.weighed args site)
      let weights := weighed.map (PoolEntry.weight args site)
      { index := roulette (rnd args.randoms (ridx + 1) * weights.sum) 0 0 weights
        pool := { entries := weighed, exact := true }
        ridx := ridx + 1
        cursor := cursor }
  | .roundRobin =>
    let start := cursor.getD (site.rr args.eg)
    { index := roundRobinIndex start (pool.entries.map PoolEntry.i)
      pool := pool
      ridx := ridx
      cursor := some start }
  | .leastRecentlyUsed =>
    { index := firstBest (fun left right => decide (left < right))
        (pool.entries.map fun entry => hsLastUsed (site.hs args.eg entry.i))
      pool := pool
      ridx := ridx
      cursor := cursor }
  | .bestHealth =>
    { index := firstBest (fun left right => decide (right < left))
        (pool.entries.map fun entry => hsScore args (site.hs args.eg entry.i))
      pool := pool
      ridx := ridx
      cursor := cursor }

end Spinneret.Scheduler
