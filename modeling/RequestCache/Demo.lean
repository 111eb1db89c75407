/-
# A demonstration

Two kinds of request: one asks for a greeting and is cached under its number and under the text
of the greeting for as long as someone asks for it every hour, the other one makes the greeting
of a number go away.  The demonstration asks twice, resets, and asks once more, so the handler
runs twice.
-/
import RequestCache.Cache.Setup
import RequestCache.LogFilter
import RequestCache.Settings
import RequestCache.Store.Memory
import RequestCache.Version

namespace RequestCache.Demo

/-- The kinds of request. -/
inductive Kind where
  /-- Asks for the greeting of a number. -/
  | greeting
  /-- Makes the greeting of a number go away. -/
  | reset
deriving DecidableEq, Repr

namespace Kind

/-- The name of a kind. -/
def name : Kind → String
  | greeting => "demo.GetGreeting"
  | reset => "pipecache_demo::ResetGreeting"

/-- What the requests of a kind are answered with: the text of a greeting, or nothing. -/
def Response : Kind → Type
  | greeting => String
  | reset => Unit

/-- A request, shown. -/
def showRequest (k : Kind) (number : Nat) : String :=
  let label := match k with
    | greeting => "GetGreeting"
    | reset => "ResetGreeting"
  recordText label [("id", toString number)]

/-- A response, shown. -/
def showResponse : (k : Kind) → k.Response → String
  | greeting, (text : String) => recordText "Greeting" [("text", quoted text)]
  | reset, _ => "()"

/-- The written form of the responses of a kind. -/
def codec : (k : Kind) → Json.Codec k.Response
  | greeting => Json.Codec.record₁ "text" .text
  | reset => Json.Codec.unit

end Kind

/-- The kinds of request as a catalogue. -/
def catalogue : Catalogue where
  Kind := Kind
  Request _ := Nat
  Response := Kind.Response
  name := Kind.name
  showRequest := Kind.showRequest
  showResponse := Kind.showResponse
  codec := Kind.codec

/-- The only work of the application: it counts how often greetings are made. -/
def counting : Interface := ⟨Unit, fun _ => Unit⟩

/-- Makes the greeting of a number. -/
def greet : Handler catalogue counting Kind.greeting := fun (number : Nat) => do
  let _ ← Action.work (W := counting) ()
  return .ok ("hello " ++ toString number : String)

/-- Resetting needs nothing but the removal that follows it. -/
def reset : Handler catalogue counting Kind.reset := fun _ => return .ok ()

/-- How greetings are cached. -/
def greetingPlan : Plan catalogue Kind.greeting where
  lookupId (number : Nat) := toString number
  chosenIds := some fun (number : Nat) (text : String) => [toString number, text]
  expiration := .sliding (Span.ofHours 1)

/-- The dispatcher of the demonstration, with what there is to tell about it. -/
def dispatcher (storeName : String) (policy : FaultPolicy) :
    Except CacheFault (Dispatcher catalogue counting × List Event) := do
  let setup : CacheSetup catalogue counting := { storeName, policy }
  let (setup, planned) ← setup.addPlan (C := catalogue) Kind.greeting greetingPlan
  let (setup, evicting) ←
    setup.evictAfter (C := catalogue) Kind.reset Kind.greeting fun (number : Nat) =>
      toString number
  let (d, greeted) := Dispatcher.empty.setHandler (C := catalogue) Kind.greeting greet
  let (d, resetting) := d.setHandler (C := catalogue) Kind.reset reset
  let (d, wired) := setup.wire d 0
  return (d, planned ++ evicting ++ greeted ++ resetting ++ wired)

/-- Where the demonstration tells from. -/
def source : String := "pipecache_demo"

/-- Asks for a greeting and tells which one came. -/
def ask (d : Dispatcher catalogue counting) (number : Nat) :
    ExceptT DispatchFault (Action counting) Unit := do
  let text ← ExceptT.mk (d.send (C := catalogue) Kind.greeting number)
  ExceptT.lift (Action.log (.told source ("Got " ++ Kind.showResponse .greeting text)))

/-- The requests of the demonstration. -/
def visit (d : Dispatcher catalogue counting) : ExceptT DispatchFault (Action counting) Unit := do
  ask d 1
  ask d 1
  let _ ← ExceptT.mk (d.send (C := catalogue) Kind.reset (1 : Nat))
  let _ ← ExceptT.mk (d.send (C := catalogue) Kind.greeting (1 : Nat))

/-- What the demonstration acts on. -/
structure World where
  /-- The time, which stands still. -/
  clock : Instant
  memory : Memory := ∅
  /-- How often greetings were made. -/
  handled : Nat := 0
  /-- The events told, the first one first. -/
  logs : List Event := []

namespace World

/-- Makes a change. -/
def change (w : World) : Change → ChangeOutcome × World
  | .put key text lifetime =>
    let (outcome, memory) := w.memory.write w.clock key text lifetime
    (outcome, { w with memory := memory })
  | .delete key => (.ok (), { w with memory := w.memory.erase key })

/-- Makes changes one after the other. -/
def changes (w : World) : List Change → List ChangeOutcome × World
  | [] => ([], w)
  | c :: cs =>
    let (outcome, w) := w.change c
    let (outcomes, w) := w.changes cs
    (outcome :: outcomes, w)

/-- Answers an effect at once. -/
def answer : (e : Effect counting) → World → e.Answer × World
  | .isCancelled, w => (false, w)
  | .read key, w =>
    let (value, memory) := w.memory.read w.clock key
    (some (.ok value), { w with memory := memory })
  | .apply cs, w =>
    let (outcomes, w) := w.changes cs
    (some outcomes, w)
  | .log e, w => ((), { w with logs := w.logs ++ [e] })
  | .measure _ _, w => ((), w)
  | .work _, w => (some (), { w with handled := w.handled + 1 })

end World

/-- How the demonstration ends: did it succeed, and what was told. -/
structure Ending where
  isSuccess : Bool
  events : List Event

/-- The demonstration over a connected store.  It ends early at the first fault. -/
def serve (clock : Instant) (storeName : String) (policy : FaultPolicy) : Ending :=
  match dispatcher storeName policy with
  | .error _ => ⟨false, []⟩
  | .ok (d, wired) =>
    match Program.run World.answer (visit d).run { clock } with
    | (.error _, w) => ⟨false, wired ++ w.logs⟩
    | (.ok (), w) =>
      ⟨true, wired ++ w.logs ++
        [.told source ("Handler ran " ++ toString w.handled ++ " times")]⟩

/-- The demonstration from its settings on.  It does not begin without settings, and it goes
no further without a store. -/
def run (clock : Instant) : Except SettingsFault Settings → Ending
  | .error _ => ⟨false, []⟩
  | .ok settings =>
    let started := Event.told source
      ("Starting pipecache demo v" ++ version ++ " with " ++ settings.backing.text ++ " store")
    match settings.connect Settings.unreachable with
    | (.error _, events) => ⟨false, started :: events⟩
    | (.ok storeName, events) =>
      let ending := serve clock storeName settings.policy
      { ending with events := started :: events ++ ending.events }

/-- The exit code and the lines of the demonstration, given the configuration file, if there is
one, and the variables of the environment.  Without a filter for the lines nothing is done. -/
def report (clock : Instant) (file : Option Json.Value) (environment : List (String × String)) :
    Nat × List String :=
  match LogFilter.ofVariable? (environment.lookup "RUST_LOG") with
  | none => (101, [])
  | some f =>
    let ending := run clock (Settings.ofSources file environment)
    (if ending.isSuccess then 0 else 1, f.lines ending.events)

end RequestCache.Demo
