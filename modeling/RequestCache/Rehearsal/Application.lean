/-
# The application of a rehearsal

Handlers that answer from templates, stages that watch, answer, fail, mend or wait, and evictions
that do nothing but tell.
-/
import RequestCache.Cache.Setup
import RequestCache.Rehearsal.World

namespace RequestCache.Rehearsal

open RequestCache.Action

/-- A handler: counts the call, tells the journal, waits, and then fails or answers. -/
def handler (k : Kind) (tag : String) : Handler catalogue tasks k := fun (id : String) => do
  match ← work (W := tasks) (.count k) with
  | none => return .error .cancelled
  | some (call : Nat) =>
    let _ ← work (W := tasks)
      (.note ("handler " ++ k.showRequest id ++ " " ++ tag))
    match ← work (W := tasks) (.spec k tag) with
    | none => return .error .cancelled
    | some (spec : HandlerSpec) =>
      match ← work (W := tasks) (.pause spec.delay) with
      | none => return .error .cancelled
      | some _ =>
        match spec.fail with
        | some e => return .error e
        | none => return .ok (Making.response ⟨k, id, call, tag⟩ spec.response)

/-- What a stage of the rehearsal does. -/
inductive StageKind where
  /-- Lets the request proceed. -/
  | trace
  /-- Answers at once. -/
  | short
  /-- Fails at once. -/
  | fail
  /-- Fails after a success. -/
  | failAfter
  /-- Answers after a failure. -/
  | swallow
  /-- Waits and lets the request proceed. -/
  | delay (millis : Nat)
deriving DecidableEq, Repr

/-- A stage of the rehearsal. -/
structure StageSpec where
  kind : StageKind
  label : String := "b"
  /-- What its response is made from. -/
  response : Option Json.Value := none
  /-- The error it fails with. -/
  fail : DispatchFault := .failed (.text "failed")

/-- Tells the journal how a stage is left. -/
def noteLeaving (label : String) {k : Kind} (outcome : Outcome catalogue k) :
    Action tasks (Outcome catalogue k) := do
  let word := match outcome with
    | .ok _ => "ok"
    | .error _ => "err"
  let _ ← work (W := tasks) (.note ("leave " ++ label ++ " " ++ word))
  return outcome

/-- A stage as the dispatcher knows it. -/
def StageSpec.stage (s : StageSpec) (k : Kind) : Stage catalogue tasks k where
  enter (id : String) remaining := do
    let response : Outcome catalogue k := .ok (Making.response ⟨k, id, 0, s.label⟩ s.response)
    let _ ← work (W := tasks)
      (.note ("enter " ++ s.label ++ " " ++ k.showRequest id ++ " remaining " ++
        toString remaining))
    match s.kind with
    | .trace => return .proceed (noteLeaving s.label)
    | .short => return .answer (← noteLeaving s.label response)
    | .fail => return .answer (← noteLeaving s.label (.error s.fail))
    | .failAfter =>
      return .proceed (fun outcome =>
        noteLeaving s.label (outcome.bind fun _ => .error s.fail))
    | .swallow =>
      return .proceed (fun outcome =>
        noteLeaving s.label (outcome.tryCatch fun _ => response))
    | .delay millis =>
      match ← work (W := tasks) (.pause millis) with
      | none => return .answer (.error .cancelled)
      | some _ => return .proceed (noteLeaving s.label)

/-- An eviction of the rehearsal. -/
structure EvictionSpec where
  label : String
  /-- How long it takes, in milliseconds. -/
  delay : Nat := 0
  /-- The error it ends with. -/
  fail : Option CacheFault := none

/-- An eviction as the setup knows it. -/
def EvictionSpec.eviction (s : EvictionSpec) (k : Kind) : Eviction catalogue tasks k where
  target := s.label
  evict (id : String) := do
    let _ ← work (W := tasks)
      (.note ("invalidate " ++ s.label ++ " " ++ k.showRequest id))
    match ← work (W := tasks) (.pause s.delay) with
    | none => return .error .cancelled
    | some _ =>
      match s.fail with
      | some e => return .error e
      | none => return .ok ()

/-- Some of the identifiers under which a response is stored. -/
inductive IdsPart where
  /-- The one that a template makes. -/
  | template (t : String)
  /-- So many numbered ones. -/
  | range (n : Nat)

/-- The identifiers of a part. -/
def IdsPart.identifiers (k : Kind) (id : String) (response : k.Response) :
    IdsPart → List String
  | template t => [responseIdentifier t k id response]
  | range n => (List.range n).map fun i => "k" ++ toString i

/-- How a kind is cached, from templates. -/
def planOf (k : Kind) (lookupId : Option String) (chosenIds : Option (List IdsPart))
    (expiration : Expiration) : Except CacheFault (Plan catalogue k) :=
  Plan.ofParts? (C := catalogue) (k := k) (lookupId.map identifier)
    (chosenIds.map fun parts id response => parts.flatMap (IdsPart.identifiers k id response))
    expiration

end RequestCache.Rehearsal
