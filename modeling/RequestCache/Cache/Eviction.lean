/-
# Evictions

After a request has been answered its evictions run, in the order in which they were added:
each removes the entry of some kind that the request made stale.  One that fails does not keep
the others from running; a cancelled one ends the dispatch.
-/
import RequestCache.Cache.Plan
import RequestCache.Dispatcher

namespace RequestCache

/-- Removes what a request of a kind makes stale. -/
structure Eviction (C : Catalogue) (W : Interface) (k : C.Kind) where
  /-- The name of the kind whose entries go. -/
  target : String
  /-- Removes what the request makes stale. -/
  evict : C.Request k → Action W (Except CacheFault Unit)

namespace Eviction

variable {C : Catalogue} {W : Interface} {k : C.Kind}

/-- Removes the entry of another kind that `identifier` finds for a request. -/
def ofPlan {target : C.Kind} (plan : Plan C target) (identifier : C.Request k → String) :
    Eviction C W k where
  target := C.name target
  evict request := plan.remove (identifier request)

/-- Runs evictions one after the other and gathers their faults; none if one of them was
cancelled. -/
def runAll (recorder : Recorder) (request : C.Request k) :
    List (Eviction C W k) → Action W (Option (List CacheFault))
  | [] => return some []
  | eviction :: evictions => do
    Action.log (.evicting (C.name k) eviction.target)
    match ← eviction.evict request with
    | .ok () =>
      Action.measure recorder (.eviction eviction.target)
      Action.measure recorder (.finished "invalidate")
      runAll recorder request evictions
    | .error .cancelled => return none
    | .error e =>
      Action.log (.evictionFailed (C.name k) eviction.target e)
      return (← runAll recorder request evictions).map (e :: ·)

/-- Runs evictions after a success. -/
def afterSuccess (evictions : List (Eviction C W k)) (recorder : Recorder)
    (request : C.Request k) : Outcome C k → Action W (Outcome C k)
  | .error e => return .error e
  | .ok response => do
    match ← runAll recorder request evictions with
    | none => return .error .cancelled
    | some [] => return .ok response
    | some faults => return .error (CacheFault.evictions (C.name k) faults).toDispatch

/-- The stage that runs evictions after a request has been answered. -/
def stage (evictions : List (Eviction C W k)) (recorder : Recorder) : Stage C W k where
  enter request _ := return .proceed (afterSuccess evictions recorder request)

end Eviction

/-- An eviction of the entries of another kind, shown. -/
def evictionText (evicting target : String) : String :=
  recordText "CacheRemover" [("invalidator", quoted evicting), ("target", quoted target)]

/-- The stage of evictions, shown. -/
def evictionStageText (request : String) (targets : List String) : String :=
  recordText "CacheInvalidationBehavior"
    [("request", quoted request), ("targets", bracketed (targets.map quoted))]

end RequestCache
