/-
# Entries under several keys

An entry is written under all of its keys at once and is removed through any one of them,
because each key holds the whole list (`Bundle`).  The changes of one operation do not wait for
one another, a failure does not stop the others, and the failures are reported in the order of
the keys.
-/
import RequestCache.Bundle
import RequestCache.Effect
import RequestCache.Key
import RequestCache.Text.Blank

namespace RequestCache.Entry

open Json

variable {W : Interface} {α : Type}

/-- The outcome of an operation on several keys. -/
def collect (operation : String) (keys : List String) (outcomes : List ChangeOutcome) :
    Except CacheFault Unit :=
  let faults := (keys.zip outcomes).filterMap fun
    | (key, .error source) => some (KeyFault.mk key source)
    | (_, .ok ()) => none
  if faults.isEmpty then .ok () else .error (.someKeys operation outcomes.length faults)

/-- Applies one change for each key, at once. -/
def changeAll (operation : String) (change : String → Change) (keys : List String) :
    Action W (Except CacheFault Unit) := do
  match ← Action.apply (keys.map change) with
  | none => return .error .cancelled
  | some outcomes => return collect operation keys outcomes

/-- Writes a value under every key of a list, each key once.  No key is nothing to do; a value
without a written form is refused before anything else. -/
def store (c : Codec α) (value : α) (keys : List Key) (lifetime : Lifetime) :
    Action W (Except CacheFault Unit) :=
  let keys := (Key.distinct keys).map Key.text
  if keys.isEmpty then return .ok ()
  else match Bundle.encode c ⟨value, keys⟩ with
    | .error message => return .error (.unwritable message)
    | .ok text => changeAll "set" (.put · text lifetime) keys

/-- The text under a key; a blank one counts as none. -/
def content (key : Key) : Action W (Except CacheFault (Option String)) := do
  match ← Action.read key.text with
  | none => return .error .cancelled
  | some (.error source) => return .error (.store source)
  | some (.ok text) => return .ok (text.filter fun s => !isBlank s)

/-- The value under a key.  A text that holds no value of the type is as good as none. -/
def find (c : Codec α) (key : Key) : Action W (Except CacheFault (Option α)) := do
  match ← content key with
  | .error e => return .error e
  | .ok none => return .ok none
  | .ok (some text) =>
    match Bundle.decode? c text with
    | some bundle => return .ok (some bundle.value)
    | none =>
      Action.log (.undecodableIgnored key.text)
      return .ok none

/-- The keys that go when the entry under `key` is removed: those that its text lists, and
`key` itself if it is not among them. -/
def doomed (key : Key) (listed : List String) : List String :=
  if listed.contains key.text then listed else listed ++ [key.text]

/-- Removes the entry under a key from all its keys.  No entry is nothing to do; of a text
that lists no keys only `key` itself goes. -/
def remove (key : Key) : Action W (Except CacheFault Unit) := do
  match ← content key with
  | .error e => return .error e
  | .ok none => return .ok ()
  | .ok (some text) =>
    match Bundle.decodeKeys? text with
    | some listed => changeAll "remove" .delete (doomed key listed)
    | none =>
      Action.log (.undecodableRemoved key.text)
      changeAll "remove" .delete [key.text]

end RequestCache.Entry
