/-
# How long an entry lives

The lifetime that an entry is written with, the instant at which it ends because of it
(`Lifetime.deadline`), and the usual lifetimes (`Expiration`).
-/
import RequestCache.Store.Fault
import RequestCache.Time.Calendar

namespace RequestCache

/-- How long an entry lives.  A relative end replaces an absolute one; a sliding window ends the
entry when it is not read for so long. -/
structure Lifetime where
  /-- The entry ends at this instant. -/
  absolute : Option Instant := none
  /-- The entry ends so long after it is written. -/
  relative : Option Span := none
  /-- The entry ends once it has not been read for so long. -/
  sliding : Option Span := none
deriving DecidableEq

namespace Lifetime

/-- No end is set. -/
def isEndless (l : Lifetime) : Bool :=
  l.absolute.isNone && l.relative.isNone && l.sliding.isNone

/-- The instant at which an entry written at `now` ends.  A relative end beyond the calendar is
no end. -/
def deadline (l : Lifetime) (now : Instant) : Option Instant :=
  match l.relative with
  | some d => now.add? d
  | none => l.absolute

/-- A relative end and a sliding window must not be empty. -/
def check (l : Lifetime) : Except StoreFault Unit :=
  if l.relative = some Span.zero then
    .error (.rejected "relative expiration must be positive")
  else if l.sliding = some Span.zero then
    .error (.rejected "sliding expiration must be positive")
  else .ok ()

end Lifetime

/-- How long the entries of a kind of request live. -/
inductive Expiration where
  /-- Until they are removed. -/
  | never
  /-- Until an instant. -/
  | at (t : Instant)
  /-- For a while after each write. -/
  | afterWrite (d : Span)
  /-- Until they have not been read for a while. -/
  | sliding (d : Span)
deriving DecidableEq

namespace Expiration

/-- The lifetime of each entry. -/
def lifetime : Expiration → Lifetime
  | never => {}
  | .at t => { absolute := some t }
  | afterWrite d => { relative := some d }
  | .sliding d => { sliding := some d }

/-- An expiration, shown. -/
def text : Expiration → String
  | never => "Never"
  | .at t => "At(" ++ t.text ++ ")"
  | afterWrite d => "AfterWrite(" ++ d.text ++ ")"
  | .sliding d => "Sliding(" ++ d.text ++ ")"

end Expiration

end RequestCache
