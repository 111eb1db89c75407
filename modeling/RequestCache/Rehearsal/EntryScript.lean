/-
# Scripts on entries under several keys

Steps that write, read and remove entries of the sample types under several keys, and steps on
the store below.
-/
import RequestCache.Cache.Plan
import RequestCache.Entry
import RequestCache.Rehearsal.Shape
import RequestCache.Rehearsal.StoreStep

namespace RequestCache.Rehearsal

open Json World

/-- A step of a script on entries under several keys. -/
inductive EntryStep where
  | store (s : StoreStep)
  | put (shape : Shape) (value : shape.Carrier) (keys : List Key) (lifetime : Lifetime)
      (c : Cancellation)
  | find (shape : Shape) (key : Key) (c : Cancellation)
  | remove (key : Key) (c : Cancellation)
  | storeName
  /-- Writes and reads a value in a store in memory of its own. -/
  | freshStore (key value : String) (lifetime : Lifetime)
  /-- Writes a value that has no written form. -/
  | putUnwritable (key : Key) (c : Cancellation)

/-- The answer to a step. -/
inductive EntryReply where
  | store (r : StoreReply)
  | outcome (o : Except CacheFault Unit)
  | found (o : Except CacheFault (Option Value))
  | names (store text : String)
  | freshStore (outcome : ChangeOutcome) (value : Option String) (size : Nat) (name : String)

/-- The instant that clocks show which nobody moves. -/
def presentTime : Instant := (Instant.ofParts? 1767225600 0).getD .epoch

/-- How long it takes until a value that has just been written is read: hardly any time, but not
none. -/
def readingDelay : Span := (Span.ofParts? 0 100).getD .zero

/-- A value found, in its JSON form. -/
def foundJson {α : Type} (c : Codec α) (o : Except CacheFault (Option α)) :
    Except CacheFault (Option Value) :=
  o.map fun found => found.map fun a => (c.write a).toOption.getD .null

/-- A type none of whose values has a written form. -/
def unwritable : Codec Unit where
  write _ := .error "key must be a string"
  read _ _ := none

/-- Takes a step. -/
def entryStep (w : World) : EntryStep → Report EntryReply × World
  | .store s =>
    let (reply, w) := w.fresh.storeStep s
    (w.report (.store reply) 0, w)
  | .put shape value keys lifetime c =>
    let ((millis, o), w) := w.fresh.run c (Entry.store shape.codec value keys lifetime)
    (w.report (.outcome o) millis, w)
  | .find shape key c =>
    let ((millis, o), w) := w.fresh.run c (Entry.find shape.codec key)
    (w.report (.found (foundJson shape.codec o)) millis, w)
  | .remove key c =>
    let ((millis, o), w) := w.fresh.run c (Entry.remove key)
    (w.report (.outcome o) millis, w)
  | .storeName =>
    let w := w.fresh
    (w.report (.names probeName (entryStoreText probeName)) 0, w)
  | .freshStore key value lifetime =>
    let w := w.fresh
    let (outcome, memory) := Memory.write ∅ presentTime key value lifetime
    let (found, memory) := memory.read (presentTime.advance readingDelay) key
    (w.report (.freshStore outcome found memory.size memoryName) 0, w)
  | .putUnwritable key c =>
    let ((millis, o), w) := w.fresh.run c (Entry.store unwritable () [key] {})
    (w.report (.outcome o) millis, w)

/-- Takes the steps of a script, from a clock on. -/
def entryScript (clock : Instant) (steps : List EntryStep) : List (Report EntryReply) :=
  (steps.foldl (fun (reports, w) step =>
    let (report, w) := entryStep w step
    (report :: reports, w)) ([], ({ probe := { clock } } : World))).1.reverse

end RequestCache.Rehearsal
