/-
# A store to rehearse with

The store in memory, with a clock that is moved by hand.  Its calls are noted in the order in
which they begin, each takes the time it is told to, and then it fails if it is told to or acts.
-/
import RequestCache.Effect
import RequestCache.Store.Memory

namespace RequestCache.Rehearsal

/-- A call to a store. -/
inductive StoreCall where
  | get (key : String)
  | set (key : String)
  | remove (key : String)
deriving DecidableEq, Repr

/-- The call that makes a change. -/
def StoreCall.ofChange : Change → StoreCall
  | .put key _ _ => set key
  | .delete key => remove key

/-- Which calls fail. -/
structure Faults where
  /-- Every read. -/
  reads : Bool := false
  /-- Every removal. -/
  removes : Bool := false
  /-- Writes of these keys. -/
  writes : List String := []
  /-- Removals of these keys. -/
  removeKeys : List String := []
  /-- The faults are due to the lifetime. -/
  invalid : Bool := false

/-- How long calls take, in milliseconds. -/
structure Pace where
  get : Nat := 0
  set : Nat := 0
  remove : Nat := 0
  /-- What writes and removals of a key take beyond that. -/
  keys : List (String × Nat) := []

/-- The name of the store. -/
def probeName : String := "probe"

/-- The store. -/
structure Probe where
  memory : Memory := ∅
  clock : Instant
  faults : Faults := {}
  pace : Pace := {}
  /-- The calls, the first one first. -/
  calls : List StoreCall := []

namespace Probe

/-- The fault of a call. -/
def fault (p : Probe) (text : String) : StoreFault :=
  if p.faults.invalid then .rejected text else .unavailable text

/-- Takes note of a call. -/
def note (p : Probe) (call : StoreCall) : Probe := { p with calls := p.calls ++ [call] }

/-- How long a change takes. -/
def changeDelay (p : Probe) (c : Change) : Nat :=
  let extra := (p.pace.keys.lookup c.key).getD 0
  match c with
  | .put .. => p.pace.set + extra
  | .delete _ => p.pace.remove + extra

/-- Reads a key. -/
def read (p : Probe) (key : String) : ReadOutcome × Probe :=
  if p.faults.reads then (.error (p.fault "read refused"), p)
  else
    let (value, memory) := p.memory.read p.clock key
    (.ok value, { p with memory := memory })

/-- Makes a change. -/
def change (p : Probe) : Change → ChangeOutcome × Probe
  | .put key text lifetime =>
    if p.faults.writes.contains key then
      (.error (p.fault ("write to " ++ key ++ " refused")), p)
    else
      let (outcome, memory) := p.memory.write p.clock key text lifetime
      (outcome, { p with memory := memory })
  | .delete key =>
    if p.faults.removes || p.faults.removeKeys.contains key then
      (.error (p.fault ("remove of " ++ key ++ " refused")), p)
    else (.ok (), { p with memory := p.memory.erase key })

/-- The keys whose entries have not ended, sorted. -/
def live (p : Probe) : List String :=
  (p.memory.keys.filter (p.memory.contains p.clock)).mergeSort fun s t => !(t < s)

end Probe

end RequestCache.Rehearsal
