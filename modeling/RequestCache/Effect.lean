/-
# What the cache asks of its surroundings

The programs of the cache read a key, apply several changes at once, tell events and measures,
and let the application do its own work.  Whatever may take time is answered with `none` when
the token of the call is cancelled before the answer is there; a read or a change that is asked
for under a cancelled token is not even begun.
-/
import RequestCache.Event
import RequestCache.Ledger
import RequestCache.Program

namespace RequestCache

/-- One change of one key of a store. -/
inductive Change where
  /-- Writes a text under a key. -/
  | put (key text : String) (lifetime : Lifetime)
  /-- Removes a key. -/
  | delete (key : String)
deriving DecidableEq

/-- The key that a change is about. -/
def Change.key : Change → String
  | put key _ _ => key
  | delete key => key

/-- What the programs of the cache ask for; `W` is the application's own work. -/
inductive Effect (W : Interface) where
  /-- Is the token of this call cancelled? -/
  | isCancelled
  /-- The text under a key. -/
  | read (key : String)
  /-- Several changes at once, none waiting for another, in the order in which they begin. -/
  | apply (changes : List Change)
  /-- Tells the logs. -/
  | log (event : Event)
  /-- Tells a recorder. -/
  | measure (recorder : Recorder) (what : Measure)
  /-- The application works. -/
  | work (op : W.Op)

/-- What a read is answered with: the text, if there is one. -/
abbrev ReadOutcome := Except StoreFault (Option String)

/-- What a change is answered with. -/
abbrev ChangeOutcome := Except StoreFault Unit

/-- What the effects are answered with; `none` means that the token was cancelled first. -/
def Effect.Answer {W : Interface} : Effect W → Type
  | isCancelled => Bool
  | read _ => Option ReadOutcome
  | apply _ => Option (List ChangeOutcome)
  | log _ => Unit
  | measure _ _ => Unit
  | work op => Option (W.Answer op)

/-- Was the effect cut short by the cancellation of the token? -/
def Effect.isCut {W : Interface} : (e : Effect W) → e.Answer → Bool
  | .isCancelled, _ => false
  | .read _, x => Option.isNone x
  | .apply _, x => Option.isNone x
  | .log _, _ => false
  | .measure _ _, _ => false
  | .work _, x => Option.isNone x

/-- The effects as an interface. -/
def effects (W : Interface) : Interface := ⟨Effect W, Effect.Answer⟩

/-- A program of the cache. -/
abbrev Action (W : Interface) (α : Type) := Program (effects W) α

namespace Action

variable {W : Interface} {α : Type}

/-- Is the token of this call cancelled? -/
def isCancelled : Action W Bool := .ask (I := effects W) .isCancelled .done

/-- Reads a key. -/
def read (key : String) : Action W (Option ReadOutcome) :=
  .ask (I := effects W) (.read key) .done

/-- Applies changes at once. -/
def apply (changes : List Change) : Action W (Option (List ChangeOutcome)) :=
  .ask (I := effects W) (.apply changes) .done

/-- Tells the logs. -/
def log (event : Event) : Action W Unit := .ask (I := effects W) (.log event) .done

/-- Tells a recorder. -/
def measure (recorder : Recorder) (what : Measure) : Action W Unit :=
  .ask (I := effects W) (.measure recorder what) .done

/-- Lets the application work. -/
def work (op : W.Op) : Action W (Option (W.Answer op)) :=
  .ask (I := effects W) (.work op) .done

/-- Drops the rest of an action as soon as one of its questions was cut short. -/
def untilCancelled : Action W α → Action W (Option α)
  | .done a => .done (some a)
  | .ask e next => .ask (I := effects W) e fun x =>
    if Effect.isCut e x then .done none else untilCancelled (next x)

/-- Runs an action unless the token is cancelled, before it begins or while it waits; nothing
of it happens after that. -/
def guarded (p : Action W α) : Action W (Option α) := do
  if ← isCancelled then return none
  untilCancelled p

/-- The program of an application as an action.  It does not go on after it was cancelled. -/
def ofWork : Program W α → Action W (Option α)
  | .done a => .done (some a)
  | .ask op next => .ask (I := effects W) (.work op) fun
    | none => .done none
    | some x => ofWork (next x)

end Action

end RequestCache
