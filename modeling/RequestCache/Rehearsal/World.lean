/-
# The world of a rehearsal

All that the actions of a rehearsal act on: the store, the metrics, the logs, the journal of
the application, and the specifications of its handlers.  Time is virtual: it moves only
through delays, and it has nothing to do with the clock of the store.
-/
import RequestCache.Rehearsal.Kind
import RequestCache.Rehearsal.Probe
import RequestCache.Timeline

namespace RequestCache.Rehearsal

/-- What a handler does. -/
structure HandlerSpec where
  /-- What its response is made from. -/
  response : Option Json.Value := none
  /-- How long it takes, in milliseconds. -/
  delay : Nat := 0
  /-- The error it ends with. -/
  fail : Option DispatchFault := none

/-- The work of the application. -/
inductive Task where
  /-- Counts a call to the handler of a kind; the answer is the call's number. -/
  | count (k : Kind)
  /-- What does the handler of a kind and a tag do? -/
  | spec (k : Kind) (tag : String)
  /-- Writes a line into the journal. -/
  | note (line : String)
  /-- Waits, in milliseconds. -/
  | pause (millis : Nat)

/-- What the work is answered with. -/
def Task.Answer : Task → Type
  | count _ => Nat
  | spec _ _ => HandlerSpec
  | note _ => Unit
  | pause _ => Unit

/-- The work as an interface. -/
def tasks : Interface := ⟨Task, Task.Answer⟩

/-- The world. -/
structure World where
  probe : Probe
  ledger : Ledger := {}
  /-- The events told, the first one first. -/
  logs : List Event := []
  /-- The lines of the journal. -/
  journal : List String := []
  /-- How often the handlers of each kind were called. -/
  handled : List (Kind × Nat) := []
  /-- What the handlers do. -/
  specs : List ((Kind × String) × HandlerSpec) := []

namespace World

/-- Answers the work of the application. -/
def work : (t : Task) → World → t.Answer × World
  | .count k, w =>
    let n := (w.handled.lookup k).getD 0 + 1
    (n, { w with handled := alterPair k 0 (fun _ => n) w.handled })
  | .spec k tag, w => ((w.specs.lookup (k, tag)).getD {}, w)
  | .note line, w => ((), { w with journal := w.journal ++ [line] })
  | .pause _, w => ((), w)

/-- Answers a moment. -/
def answer : (m : Moment tasks) → World → m.Answer × World
  | .beginRead key, w => ((), { w with probe := w.probe.note (.get key) })
  | .beginChange c, w => ((), { w with probe := w.probe.note (.ofChange c) })
  | .read key, w =>
    let (outcome, probe) := w.probe.read key
    (outcome, { w with probe := probe })
  | .change c, w =>
    let (outcome, probe) := w.probe.change c
    (outcome, { w with probe := probe })
  | .log e, w => ((), { w with logs := w.logs ++ [e] })
  | .measure r m, w => ((), { w with ledger := w.ledger.record r m 1 .zero })
  | .work t, w => w.work t

/-- How long things take. -/
def delays (w : World) : Delays tasks where
  read _ := w.probe.pace.get
  change := w.probe.changeDelay
  work
    | .pause millis => millis
    | _ => 0

/-- When a call is cancelled. -/
structure Cancellation where
  /-- Before it begins. -/
  before : Bool := false
  /-- So many milliseconds after it begins. -/
  after : Option Nat := none

/-- The token of a call that begins at an instant. -/
def Cancellation.token (c : Cancellation) (start : Nat) : Token :=
  if c.before then .cancelled
  else match c.after with
    | some millis => .cancelledAt (start + millis)
    | none => .live

/-- Runs an action; ends with how long it took and its result. -/
def run {α : Type} (w : World) (c : Cancellation) (p : Action tasks α) : (Nat × α) × World :=
  (Timeline.play w.delays (c.token 0) 0 p).run answer w

/-- Runs several actions together, each from an instant on; ends with the instants at which
they ended and their results. -/
def runAll {α : Type} (w : World) (ps : List (Nat × Cancellation × Action tasks α)) :
    List (Nat × α) × World :=
  let lines := ps.map fun (start, c, p) => Timeline.play w.delays (c.token start) start p
  let ((_, ends), w) := (Timeline.mergeAll lines).run answer w
  (ends, w)

end World

end RequestCache.Rehearsal
