/-
# Scripts on an application

A session sets up handlers, stages and caches, builds the dispatcher once, and then sends
requests through it, one at a time or several together, with a look at everything in between.
-/
import RequestCache.Rehearsal.Application
import RequestCache.Rehearsal.EntryScript

namespace RequestCache.Rehearsal

open Json World

/-- A request to send. -/
structure Sending where
  kind : Kind
  id : String
  cancellation : Cancellation := {}

/-- A step of a session. -/
inductive Step where
  | store (s : StoreStep)
  /-- Sets a handler. -/
  | handler (k : Kind) (tag : String) (spec : HandlerSpec)
  /-- Changes what a handler does. -/
  | tune (k : Kind) (tag : String) (spec : HandlerSpec)
  /-- Adds a stage. -/
  | stage (k : Kind) (spec : StageSpec)
  /-- Caches a kind. -/
  | addPlan (k : Kind) (lookupId : Option String) (chosenIds : Option (List IdsPart))
      (expiration : Expiration)
  /-- Evicts entries of a kind after requests of another. -/
  | evictAfter (by_ target : Kind) (identifier : String)
  /-- Runs an eviction of the rehearsal after requests of a kind. -/
  | addEviction (by_ : Kind) (spec : EvictionSpec)
  /-- Puts the stages of the cache in place. -/
  | wire
  /-- Adds a look-up stage over the plan of a kind. -/
  | lookupStage (k : Kind) (policy : Option FaultPolicy)
  /-- Adds a stage of evictions. -/
  | evictionStage (k : Kind) (specs : List EvictionSpec)
  | info (k : Kind)
  | planOf (k : Kind)
  | recorders
  | ledger
  | calls
  | findEntry (key : Key) (c : Cancellation)
  | putEntry (key : Key) (value : Value) (lifetime : Lifetime) (c : Cancellation)
  | removeEntry (key : Key) (c : Cancellation)
  | planKeys (k : Kind) (id : String) (response : Option Value)
  | findPlanned (k : Kind) (id : String) (c : Cancellation)
  | putPlanned (k : Kind) (id : String) (response : Option Value) (c : Cancellation)
  | removePlanned (k : Kind) (identifier : String) (c : Cancellation)
  /-- Runs an eviction over the plan of a kind. -/
  | evict (by_ target : Kind) (identifier id : String) (c : Cancellation)
  | build
  | send (s : Sending)
  /-- Sends requests together, each from an instant on. -/
  | concurrent (sends : List (Nat × Sending))

/-- What there is to know about a kind. -/
structure Info where
  name : String
  isCached : Bool
  evictions : Nat
  policy : String
  setup : String
  /-- Once the dispatcher is built: how it is shown, whether the kind has a handler, and how many
  stages. -/
  dispatcher : Option (String × Bool × Nat)

/-- The answer to a step. -/
inductive Reply where
  | store (r : StoreReply)
  | done
  | outcome (o : Except CacheFault Unit)
  | found (o : Except CacheFault (Option Value))
  /-- The kind has no plan. -/
  | noPlan
  /-- The step comes too late: the dispatcher is built. -/
  | tooLate
  | shown (text : String)
  | evictions (text : String) (count : Nat)
  | info (i : Info)
  | plan (text store : String) (lifetime : Lifetime)
  | recorders (rs : List (Recorder × Counts))
  | ledger (l : Ledger)
  | calls (cs : List (Kind × Nat))
  | keys (lookupId lookupKey : String) (entryIds entryKeys : List String)
  | eviction (text target identifier : String) (outcome : Except CacheFault Unit)
  | dispatch (o : Except DispatchFault Value)
  | dispatches (os : List (Nat × Except DispatchFault Value))

/-- A session between two steps. -/
structure Session where
  world : World
  setup : CacheSetup catalogue tasks
  dispatcher : Dispatcher catalogue tasks := .empty
  isBuilt : Bool := false
  /-- The recorders of the stages that were added one by one. -/
  recorders : List Recorder := []
  /-- The number of the next recorder. -/
  nextRecorder : Nat := 0

namespace Session

/-- The session at its beginning. -/
def start (clock : Instant) (policy : FaultPolicy) : Session where
  world := { probe := { clock } }
  setup := { storeName := probeName, policy }

/-- A response in its JSON form. -/
def responseJson (k : Kind) (o : Outcome catalogue k) : Except DispatchFault Value :=
  o.map fun r => (k.codec.write r).toOption.getD .null

/-- Sends a request. -/
def dispatch (s : Session) (x : Sending) : Action tasks (Except DispatchFault Value) := do
  return responseJson x.kind (← s.dispatcher.send (C := catalogue) x.kind x.id)

/-- The report of a step that took no time. -/
def reply (s : Session) (r : Reply) : Report Reply × Session := (s.world.report r 0, s)

/-- Tells the logs. -/
def tell (s : Session) (events : List Event) : Session := { s with world := s.world.tell events }

/-- Runs an action and makes a reply of its result. -/
def run {α : Type} (s : Session) (c : Cancellation) (p : Action tasks α) (f : α → Reply) :
    Report Reply × Session :=
  let ((millis, a), w) := s.world.run c p
  (w.report (f a) millis, { s with world := w })

/-- Goes on with the plan of a kind, if there is one. -/
def withPlan (s : Session) (k : Kind)
    (f : Plan catalogue k → Report Reply × Session) : Report Reply × Session :=
  match s.setup.plan k with
  | some p => f p
  | none => s.reply .noPlan

/-- Goes on with a step that must come before the dispatcher is built. -/
def beforeBuild (s : Session) (f : Session → Report Reply × Session) : Report Reply × Session :=
  if s.isBuilt then s.reply .tooLate else f s

/-- Takes a change of the setup, or its refusal. -/
def alterSetup (s : Session)
    (r : Except CacheFault (CacheSetup catalogue tasks × List Event)) : Report Reply × Session :=
  match r with
  | .ok (setup, events) =>
    ({ s with setup := setup }.tell events).reply (.outcome (.ok ()))
  | .error e => s.reply (.outcome (.error e))

/-- Adds a stage that has a recorder of its own. -/
def addRecordedStage (s : Session) (k : Kind) (stage : Recorder → Stage catalogue tasks k) :
    Session :=
  let recorder : Recorder := ⟨s.nextRecorder, k.name⟩
  { s with
    dispatcher := s.dispatcher.addStage (C := catalogue) k (stage recorder)
    recorders := s.recorders ++ [recorder]
    nextRecorder := s.nextRecorder + 1 }

/-- What a handler does, from now on. -/
def setSpec (s : Session) (k : Kind) (tag : String) (spec : HandlerSpec) : Session :=
  { s with
    world := { s.world with specs := alterPair (k, tag) spec (fun _ => spec) s.world.specs } }

/-- What there is to know about a kind. -/
def infoOf (s : Session) (k : Kind) : Info where
  name := k.name
  isCached := (s.setup.plan k).isSome
  evictions := (s.setup.evictions k).length
  policy := s.setup.policy.text
  setup := s.setup.text
  dispatcher :=
    if s.isBuilt then
      some (s.dispatcher.text, s.dispatcher.isServed (C := catalogue) k,
        (s.dispatcher.route k).stages.length)
    else none

/-- Takes a step. -/
def step (s : Session) (x : Step) : Report Reply × Session :=
  let s := { s with world := s.world.fresh }
  match x with
  | .store x =>
    let (r, w) := s.world.storeStep x
    { s with world := w }.reply (.store r)
  | .handler k tag spec => s.beforeBuild fun s =>
    let (dispatcher, events) := s.dispatcher.setHandler (C := catalogue) k (handler k tag)
    (({ s with dispatcher := dispatcher }.setSpec k tag spec).tell events).reply .done
  | .tune k tag spec => (s.setSpec k tag spec).reply .done
  | .stage k spec => s.beforeBuild fun s =>
    { s with dispatcher := s.dispatcher.addStage (C := catalogue) k (spec.stage k) }.reply .done
  | .addPlan k lookupId chosenIds expiration =>
    s.alterSetup ((planOf k lookupId chosenIds expiration).bind fun p =>
      s.setup.addPlan (C := catalogue) k p)
  | .evictAfter k target template =>
    s.alterSetup (s.setup.evictAfter (C := catalogue) k target (identifier template))
  | .addEviction k spec =>
    s.alterSetup (.ok (s.setup.addEviction (C := catalogue) k (spec.eviction k)))
  | .wire => s.beforeBuild fun s =>
    let (dispatcher, events) := s.setup.wire s.dispatcher s.nextRecorder
    ({ s with
        dispatcher := dispatcher
        nextRecorder := s.nextRecorder + s.setup.recorderCount }.tell events).reply .done
  | .lookupStage k policy => s.beforeBuild fun s => s.withPlan k fun p =>
    let policy := policy.getD .strict
    (s.addRecordedStage k (Lookup.stage p policy)).reply (.shown (Lookup.text k.name policy))
  | .evictionStage k specs => s.beforeBuild fun s =>
    (s.addRecordedStage k (Eviction.stage (specs.map fun spec => spec.eviction k))).reply
      (.evictions (evictionStageText k.name (specs.map EvictionSpec.label)) specs.length)
  | .info k => s.reply (.info (s.infoOf k))
  | .planOf k => s.withPlan k fun p =>
    s.reply (.plan (p.text s.setup.storeName) s.setup.storeName p.expiration.lifetime)
  | .recorders =>
    s.reply (.recorders (s.recorders.map fun r => (r, s.world.ledger.countsOf r)))
  | .ledger => s.reply (.ledger s.world.ledger)
  | .calls => s.reply (.calls s.world.handled)
  | .findEntry key c =>
    s.run c (Entry.find Codec.value key) fun o => .found (foundJson Codec.value o)
  | .putEntry key value lifetime c =>
    s.run c (Entry.store Codec.value value [key] lifetime) .outcome
  | .removeEntry key c => s.run c (Entry.remove key) .outcome
  | .planKeys k id response => s.withPlan k fun p =>
    let response := Making.response ⟨k, id, 0, ""⟩ response
    s.reply (.keys (p.lookupId id) (p.lookupKey id).text
      (p.entryIds id response) ((p.entryKeys id response).map Key.text))
  | .findPlanned k id c => s.withPlan k fun p =>
    s.run c (p.find id) fun o => .found (foundJson k.codec o)
  | .putPlanned k id response c => s.withPlan k fun p =>
    s.run c (p.store id (Making.response ⟨k, id, 0, ""⟩ response)) .outcome
  | .removePlanned k identifier c => s.withPlan k fun p =>
    s.run c (p.remove identifier) .outcome
  | .evict k target template id c => s.withPlan target fun p =>
    let eviction : Eviction catalogue tasks k := .ofPlan p (identifier template)
    s.run c (eviction.evict id)
      (.eviction (evictionText k.name target.name) eviction.target (identifier template id))
  | .build => { s with isBuilt := true }.reply .done
  | .send x =>
    let s := { s with isBuilt := true }
    s.run x.cancellation (s.dispatch x) .dispatch
  | .concurrent xs =>
    let s := { s with isBuilt := true }
    let (ends, w) := s.world.runAll (xs.map fun (start, x) => (start, x.cancellation, s.dispatch x))
    (w.report (.dispatches ends) ((ends.map Prod.fst).foldl max 0), { s with world := w })

/-- Takes the steps of a script. -/
def script (s : Session) (steps : List Step) : List (Report Reply) :=
  (steps.foldl (fun (reports, s) x =>
    let (report, s) := step s x
    (report :: reports, s)) ([], s)).1.reverse

end Session

end RequestCache.Rehearsal
