/-
# Steps on the store

What a script can do with the clock, the contents, the faults and the pace of the store of a
rehearsal.  Reading and writing here is direct: it is neither noted nor delayed and never fails
by order.
-/
import RequestCache.Rehearsal.World

namespace RequestCache.Rehearsal

/-- A step on the store. -/
inductive StoreStep where
  /-- What does the clock show? -/
  | now
  /-- Moves the clock forward; it stays if there is no such instant. -/
  | advance (by_ : Span)
  /-- Sets the clock. -/
  | clock (time : Instant)
  | set (key value : String) (lifetime : Lifetime)
  | get (key : String)
  | remove (key : String)
  | contains (key : String)
  | size
  /-- Drops the entries that have ended. -/
  | purge
  | clear
  | name
  /-- Which entries have not ended, and how many are kept? -/
  | dump
  | fail (faults : Faults)
  | delay (pace : Pace)

/-- The answer to a step on the store. -/
inductive StoreReply where
  | done
  | instant (t : Instant)
  | outcome (o : ChangeOutcome)
  | value (v : Option String)
  | flag (b : Bool)
  | count (n : Nat)
  | size (n : Nat)
  | name (s : String)
  | dump (live : List String) (size : Nat)

/-- The name of the store in memory. -/
def memoryName : String := "memory"

namespace World

/-- Changes the store. -/
def setProbe (w : World) (p : Probe) : World := { w with probe := p }

/-- Tells the logs. -/
def tell (w : World) (events : List Event) : World := { w with logs := w.logs ++ events }

/-- Takes a step on the store. -/
def storeStep (w : World) : StoreStep → StoreReply × World
  | .now => (.instant w.probe.clock, w)
  | .advance d =>
    let clock := w.probe.clock.advance d
    (.instant clock, w.setProbe { w.probe with clock := clock })
  | .clock t => (.instant t, w.setProbe { w.probe with clock := t })
  | .set key value lifetime =>
    let (outcome, memory) := w.probe.memory.write w.probe.clock key value lifetime
    (.outcome outcome, w.setProbe { w.probe with memory := memory })
  | .get key =>
    let (value, memory) := w.probe.memory.read w.probe.clock key
    (.value value, w.setProbe { w.probe with memory := memory })
  | .remove key => (.done, w.setProbe { w.probe with memory := w.probe.memory.erase key })
  | .contains key => (.flag (w.probe.memory.contains w.probe.clock key), w)
  | .size => (.size w.probe.memory.size, w)
  | .purge =>
    let (count, memory) := w.probe.memory.purge w.probe.clock
    (.count count,
      (w.setProbe { w.probe with memory := memory }).tell
        (if count = 0 then [] else [.memoryPurged count]))
  | .clear => (.done, (w.setProbe { w.probe with memory := ∅ }).tell [.memoryCleared])
  | .name => (.name memoryName, w)
  | .dump => (.dump w.probe.live w.probe.memory.size, w)
  | .fail faults => (.done, w.setProbe { w.probe with faults := faults })
  | .delay pace => (.done, w.setProbe { w.probe with pace := pace })

/-- The world before a step, with nothing to show yet. -/
def fresh (w : World) : World :=
  { w with probe := { w.probe with calls := [] }, logs := [], journal := [] }

end World

/-- What a step showed. -/
structure Report (ρ : Type) where
  reply : ρ
  /-- The calls to the store. -/
  calls : List StoreCall
  /-- The events told. -/
  logs : List Event
  /-- The lines of the journal. -/
  journal : List String
  /-- How long the step took, in milliseconds of virtual time. -/
  millis : Nat

/-- The report of a step that led to a world. -/
def World.report {ρ : Type} (w : World) (reply : ρ) (millis : Nat) : Report ρ :=
  ⟨reply, w.probe.calls, w.logs, w.journal, millis⟩

end RequestCache.Rehearsal
