/-
# The dispatcher

A request of a kind passes the stages of that kind in the order in which they were added and
reaches the handler; its outcome passes the stages it went through in the opposite order.  A
stage either answers on the way in, and nothing further in is run, or it lets the request
proceed and says what becomes of the outcome on the way out.  So the handler runs at most once,
and so does each stage.
-/
import RequestCache.Catalogue
import RequestCache.Effect
import RequestCache.Family

namespace RequestCache

/-- What a stage decides about a request on its way in. -/
inductive Verdict (C : Catalogue) (W : Interface) (k : C.Kind) where
  /-- The request goes no further. -/
  | answer (outcome : Outcome C k)
  /-- The request goes on; `leave` makes the outcome of the stage from the one further in. -/
  | proceed (leave : Outcome C k → Action W (Outcome C k))

/-- A stage that the requests of a kind pass; it is told how many stages come after it. -/
structure Stage (C : Catalogue) (W : Interface) (k : C.Kind) where
  /-- What the stage does on the way in. -/
  enter : C.Request k → (remaining : Nat) → Action W (Verdict C W k)

/-- What answers the requests of a kind. -/
abbrev Handler (C : Catalogue) (W : Interface) (k : C.Kind) :=
  C.Request k → Action W (Outcome C k)

/-- The way of the requests of a kind. -/
structure Route (C : Catalogue) (W : Interface) (k : C.Kind) where
  /-- The handler, if there is one. -/
  handler : Option (Handler C W k) := none
  /-- The stages, the outermost first. -/
  stages : List (Stage C W k) := []

/-- Sends a request through stages to a handler. -/
def throughStages {C : Catalogue} {W : Interface} {k : C.Kind} (handler : Handler C W k)
    (request : C.Request k) : List (Stage C W k) → Action W (Outcome C k)
  | [] => handler request
  | stage :: stages => do
    match ← stage.enter request stages.length with
    | .answer outcome => return outcome
    | .proceed leave => leave (← throughStages handler request stages)

/-- The routes of all kinds. -/
structure Dispatcher (C : Catalogue) (W : Interface) where
  /-- The route of each kind. -/
  route : (k : C.Kind) → Route C W k := fun _ => {}
  /-- The kinds whose routes were ever changed, each once. -/
  known : List C.Kind := []

namespace Dispatcher

variable {C : Catalogue} {W : Interface}

/-- The dispatcher that knows no kind. -/
def empty : Dispatcher C W := {}

/-- Changes the route of a kind. -/
def alter (d : Dispatcher C W) (k : C.Kind) (f : Route C W k → Route C W k) :
    Dispatcher C W where
  route := Family.set d.route k (f (d.route k))
  known := if d.known.contains k then d.known else d.known ++ [k]

/-- Puts a handler in place of any earlier one, which is worth an event. -/
def setHandler (d : Dispatcher C W) (k : C.Kind) (h : Handler C W k) :
    Dispatcher C W × List Event :=
  (d.alter k fun r => { r with handler := some h },
    if (d.route k).handler.isSome then [.handlerReplaced (C.name k)] else [])

/-- Adds a stage inside the stages of a kind. -/
def addStage (d : Dispatcher C W) (k : C.Kind) (s : Stage C W k) : Dispatcher C W :=
  d.alter k fun r => { r with stages := r.stages ++ [s] }

/-- Is there a handler for a kind? -/
def isServed (d : Dispatcher C W) (k : C.Kind) : Bool := (d.route k).handler.isSome

/-- Sends a request to the handler of its kind.  A kind without a handler is an error even of a
cancelled dispatch; otherwise cancellation ends the dispatch wherever it waits. -/
def send (d : Dispatcher C W) (k : C.Kind) (request : C.Request k) : Action W (Outcome C k) :=
  match (d.route k).handler with
  | none => return .error (.unserved (C.name k))
  | some handler => do
    match ← Action.guarded (throughStages handler request (d.route k).stages) with
    | some outcome => return outcome
    | none => return .error .cancelled

/-- A dispatcher, shown. -/
def text (d : Dispatcher C W) : String :=
  "Mediator \x7b request_types: " ++ toString d.known.length ++ " \x7d"

end Dispatcher

end RequestCache
