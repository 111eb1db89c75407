/-
# The store in memory

Entries are kept with their value, their deadline, their window and the instant of the last
access.  An entry that has expired stays until it is read, overwritten or purged, and no read
can tell (`Memory.read`, `Memory.contains`).
-/
import RequestCache.Store.Lifetime
import RequestCache.Store.Table

namespace RequestCache

/-- A stored value with what decides when it ends. -/
structure Held where
  /-- The value. -/
  value : String
  /-- The entry ends at this instant. -/
  deadline : Option Instant
  /-- The entry ends once it has not been read for so long. -/
  window : Option Span
  /-- The instant of the write or of the last read that renewed the window. -/
  lastAccess : Instant
deriving DecidableEq

namespace Held

/-- Has the entry ended at `now`? -/
def hasEnded (e : Held) (now : Instant) : Bool :=
  e.deadline.any (fun d => d ≤ now) ||
    e.window.any (fun w => w.nanos ≤ now.elapsedSince e.lastAccess)

/-- The entry after a read at `now`: a window starts again. -/
def touch (e : Held) (now : Instant) : Held :=
  if e.window.isSome then { e with lastAccess := now } else e

end Held

/-- Entries by key. -/
abbrev Memory := Table Held

namespace Memory

/-- Is there an entry under the key that has not ended? -/
def contains (m : Memory) (now : Instant) (key : String) : Bool :=
  (m.get? key).any fun e => !e.hasEnded now

/-- The value under a key.  An entry that has ended goes away, any other one is renewed. -/
def read (m : Memory) (now : Instant) (key : String) : Option String × Memory :=
  match m.get? key with
  | none => (none, m)
  | some e =>
    if e.hasEnded now then (none, m.erase key) else (some e.value, m.insert key (e.touch now))

/-- Writes a value.  A write whose deadline has passed only removes what was there. -/
def write (m : Memory) (now : Instant) (key value : String) (l : Lifetime) :
    Except StoreFault Unit × Memory :=
  match l.check with
  | .error e => (.error e, m)
  | .ok () =>
    let deadline := l.deadline now
    if deadline.any (fun d => d ≤ now) then (.ok (), m.erase key)
    else (.ok (), m.insert key ⟨value, deadline, l.sliding, now⟩)

/-- The store without the entries that have ended, and how many there were. -/
def purge (m : Memory) (now : Instant) : Nat × Memory :=
  let kept := m.filter fun _ e => !e.hasEnded now
  (m.size - kept.size, kept)

end Memory

end RequestCache
