/-
# The look-up stage

A request that finds its response in the cache goes no further.  Any other one proceeds, and
its response is stored on the way out.  When the store fails, a policy decides: the dispatch
fails with it, or it goes on as if nothing had been found and nothing could be stored.
-/
import RequestCache.Cache.Plan
import RequestCache.Dispatcher

namespace RequestCache

/-- What to do when the cache fails. -/
inductive FaultPolicy where
  /-- The dispatch fails. -/
  | strict
  /-- The dispatch goes on without the cache. -/
  | lenient
deriving DecidableEq, Repr

/-- A policy, shown. -/
def FaultPolicy.text : FaultPolicy → String
  | strict => "Propagate"
  | lenient => "TreatAsMiss"

namespace Lookup

variable {C : Catalogue} {W : Interface} {k : C.Kind}

/-- Does a fault of the cache end the dispatch?  A cancelled operation always does. -/
def isFatal (policy : FaultPolicy) (e : CacheFault) : Bool :=
  e.isCancelled || policy = .strict

/-- Stores a fresh response, on the way out. -/
def populate (plan : Plan C k) (policy : FaultPolicy) (recorder : Recorder)
    (request : C.Request k) : Outcome C k → Action W (Outcome C k)
  | .error e => return .error e
  | .ok response => do
    Action.measure recorder .miss
    match ← plan.store request response with
    | .ok () =>
      Action.measure recorder (.finished "set")
      Action.log (.stored (C.showResponse k response) (C.showRequest k request))
      return .ok response
    | .error e =>
      if isFatal policy e then return .error e.toDispatch
      Action.log (.populateFailed (C.name k) e)
      return .ok response

/-- The stage that serves responses from the cache and stores fresh ones. -/
def stage (plan : Plan C k) (policy : FaultPolicy) (recorder : Recorder) :
    Stage C W k where
  enter request _ := do
    match ← plan.find request with
    | .ok (some response) =>
      Action.measure recorder .hit
      Action.measure recorder (.finished "get")
      Action.log (.hit (C.showResponse k response) (C.showRequest k request))
      return .answer (.ok response)
    | .ok none => return .proceed (populate plan policy recorder request)
    | .error e =>
      if isFatal policy e then return .answer (.error e.toDispatch)
      Action.log (.lookupFailed (C.name k) e)
      return .proceed (populate plan policy recorder request)

/-- The stage, shown. -/
def text (request : String) (policy : FaultPolicy) : String :=
  recordText "CacheBehavior" [("request", quoted request), ("lookup", policy.text)]

end Lookup

end RequestCache
