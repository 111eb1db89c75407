/-
# The setup of a cache

Which kinds of request are cached and which evict entries of others, and how the stages for
this are put into a dispatcher.  Every kind has at most one plan, and only entries of a kind
that has one can be evicted.
-/
import RequestCache.Cache.Eviction
import RequestCache.Cache.Lookup

namespace RequestCache

/-- What is cached, and what is evicted when. -/
structure CacheSetup (C : Catalogue) (W : Interface) where
  /-- The name of the store. -/
  storeName : String
  /-- What to do when the cache fails. -/
  policy : FaultPolicy := .strict
  /-- The plan of each cached kind. -/
  plan : (k : C.Kind) → Option (Plan C k) := fun _ => none
  /-- The cached kinds, in the order in which their plans were added. -/
  cached : List C.Kind := []
  /-- The evictions of each kind, in the order in which they were added. -/
  evictions : (k : C.Kind) → List (Eviction C W k) := fun _ => []
  /-- The kinds that have evictions, in the order of their first ones. -/
  evicting : List C.Kind := []

namespace CacheSetup

variable {C : Catalogue} {W : Interface}

/-- Caches a kind by a plan, unless it has one. -/
def addPlan (s : CacheSetup C W) (k : C.Kind) (p : Plan C k) :
    Except CacheFault (CacheSetup C W × List Event) :=
  if (s.plan k).isSome then .error (.plannedTwice (C.name k))
  else .ok
    ({ s with
        plan := Family.set (F := fun k => Option (Plan C k)) s.plan k (some p)
        cached := s.cached ++ [k] },
      [.planAdded (C.name k) p.expiration])

/-- Adds an eviction that runs after the requests of a kind. -/
def addEviction (s : CacheSetup C W) (k : C.Kind) (e : Eviction C W k) :
    CacheSetup C W × List Event :=
  ({ s with
      evictions := Family.set (F := fun k => List (Eviction C W k)) s.evictions k
        (s.evictions k ++ [e])
      evicting := if (s.evictions k).isEmpty then s.evicting ++ [k] else s.evicting },
    [.evictionAdded (C.name k) e.target])

/-- Evicts an entry of `target` after every request of kind `k`.  The target must be cached. -/
def evictAfter (s : CacheSetup C W) (k target : C.Kind) (identifier : C.Request k → String) :
    Except CacheFault (CacheSetup C W × List Event) :=
  match s.plan target with
  | none => .error (.targetNotCached (C.name k) (C.name target))
  | some p => .ok (s.addEviction k (.ofPlan p identifier))

/-- Adds the eviction stage of a kind to a dispatcher, counted by recorder `serial`. -/
def wireEvictions (s : CacheSetup C W) (d : Dispatcher C W) (k : C.Kind) (serial : Nat) :
    Dispatcher C W :=
  if (s.evictions k).isEmpty then d
  else d.addStage k (Eviction.stage (s.evictions k) ⟨serial, C.name k⟩)

/-- Adds the look-up stage of a kind to a dispatcher, counted by recorder `serial`. -/
def wireLookup (s : CacheSetup C W) (d : Dispatcher C W) (k : C.Kind) (serial : Nat) :
    Dispatcher C W :=
  match s.plan k with
  | none => d
  | some p => d.addStage k (Lookup.stage p s.policy ⟨serial, C.name k⟩)

/-- Adds the stages of the cache to a dispatcher.  Those that evict come first, so that they lie
around those that look requests up.  Each stage has a recorder of its own, numbered from
`serial` on. -/
def wire (s : CacheSetup C W) (d : Dispatcher C W) (serial : Nat) :
    Dispatcher C W × List Event :=
  let d := (s.evicting.zipIdx serial).foldl (fun d e => s.wireEvictions d e.1 e.2) d
  let d := (s.cached.zipIdx (serial + s.evicting.length)).foldl
    (fun d e => s.wireLookup d e.1 e.2) d
  (d, [.wired s.cached.length s.evicting.length])

/-- How many recorders `wire` uses. -/
def recorderCount (s : CacheSetup C W) : Nat := s.evicting.length + s.cached.length

/-- A setup, shown. -/
def text (s : CacheSetup C W) : String :=
  recordText "CacheRegistry"
    [("store", entryStoreText s.storeName), ("lookup", s.policy.text),
      ("cached_types", toString s.cached.length),
      ("invalidating_types", toString s.evicting.length)]

end CacheSetup

end RequestCache
