/-
# Instants and spans

An instant is a whole number of nanoseconds after the unix epoch, between two fixed ends;
a span is an unsigned length of time.  Both carry their range in the type, so that adding a
span to an instant is the one operation that can fail, and it fails exactly when the sum
cannot be written down (`Instant.add?`).
-/

namespace RequestCache

/-- Nanoseconds in a second. -/
def nanosPerSecond : Nat := 1000000000

/-- Nanoseconds in a millisecond. -/
def nanosPerMilli : Nat := 1000000

/-- The largest number a signed word of 64 bits holds. -/
def maxSigned64 : Nat := 0x7fffffffffffffff

/-- A length of time: up to `2 ^ 64 - 1` whole seconds and a fraction. -/
structure Span where
  /-- The length in nanoseconds. -/
  nanos : Nat
  /-- The whole seconds fit a word of 64 bits. -/
  bounded : nanos < 0x10000000000000000 * nanosPerSecond
deriving DecidableEq

namespace Span

/-- The empty span. -/
def zero : Span := ⟨0, by decide⟩

instance : Inhabited Span := ⟨zero⟩

/-- The span of `seconds` and `nanos`, where they can be written down. -/
def ofParts? (seconds nanos : Nat) : Option Span :=
  if h : seconds * nanosPerSecond + nanos < 0x10000000000000000 * nanosPerSecond then some ⟨_, h⟩ else none

/-- The span of a number of hours that is not astronomical. -/
def ofHours (hours : Nat) (h : hours < 0x4000000000000 := by decide) : Span :=
  ⟨hours * 3600 * nanosPerSecond, by unfold nanosPerSecond; omega⟩

/-- The whole seconds of a span. -/
def seconds (d : Span) : Nat := d.nanos / nanosPerSecond

/-- What a span has beyond its whole seconds, in nanoseconds. -/
def subsecond (d : Span) : Nat := d.nanos % nanosPerSecond

/-- The whole milliseconds of a span. -/
def millis (d : Span) : Nat := d.nanos / nanosPerMilli

/-- The length in seconds as a double: whole part and fraction are rounded on their own. -/
def toFloat (d : Span) : Float :=
  d.seconds.toUInt64.toFloat + d.subsecond.toUInt64.toFloat / 1e9

/-- The longest span that can be added to an instant: `2 ^ 63 - 1` milliseconds. -/
def maxAddable : Nat := maxSigned64 * nanosPerMilli

theorem seconds_add_subsecond (d : Span) :
    d.seconds * nanosPerSecond + d.subsecond = d.nanos := by
  simp only [seconds, subsecond, Nat.mul_comm]
  exact Nat.div_add_mod _ _

end Span

/-- A point in time, in nanoseconds after the unix epoch. -/
structure Instant where
  /-- Nanoseconds after the epoch; negative before it. -/
  nanos : Int
  /-- The instant lies between the two ends of the calendar. -/
  inRange : -8334601228800 * 1000000000 ≤ nanos ∧
    nanos ≤ 8210266876799 * 1000000000 + 999999999
deriving DecidableEq

namespace Instant

/-- The instant this many nanoseconds after the epoch, if the calendar reaches that far. -/
def ofNanos? (nanos : Int) : Option Instant :=
  if h : _ then some ⟨nanos, h⟩ else none

/-- The epoch. -/
def epoch : Instant := ⟨0, by decide⟩

instance : Inhabited Instant := ⟨epoch⟩

/-- The instant `nanos` nanoseconds after second `seconds`. -/
def ofParts? (seconds : Int) (nanos : Nat) : Option Instant :=
  ofNanos? (seconds * nanosPerSecond + nanos)

/-- The second an instant lies in, counted from the epoch and rounded down. -/
def seconds (t : Instant) : Int := t.nanos / (nanosPerSecond : Int)

/-- Nanoseconds since the start of the instant's second. -/
def subsecond (t : Instant) : Nat := (t.nanos % (nanosPerSecond : Int)).toNat

/-- Milliseconds after the epoch, rounded down. -/
def millis (t : Instant) : Int := t.nanos / (nanosPerMilli : Int)

instance : LE Instant := ⟨fun s t => s.nanos ≤ t.nanos⟩

instance : LT Instant := ⟨fun s t => s.nanos < t.nanos⟩

instance (s t : Instant) : Decidable (s ≤ t) := inferInstanceAs (Decidable (s.nanos ≤ t.nanos))

instance (s t : Instant) : Decidable (s < t) := inferInstanceAs (Decidable (s.nanos < t.nanos))

theorem le_iff {s t : Instant} : s ≤ t ↔ s.nanos ≤ t.nanos := Iff.rfl

theorem lt_iff {s t : Instant} : s < t ↔ s.nanos < t.nanos := Iff.rfl

/-- The instant a span later.  There is none if the span is longer than `Span.maxAddable` or
the sum lies past the last instant. -/
def add? (t : Instant) (d : Span) : Option Instant :=
  if d.nanos ≤ Span.maxAddable then ofNanos? (t.nanos + d.nanos) else none

/-- The nanoseconds from `earlier` to `t`; none have passed if `t` comes first. -/
def elapsedSince (t earlier : Instant) : Nat := (t.nanos - earlier.nanos).toNat

/-- The instant a span later, or the same instant if there is no such instant. -/
def advance (t : Instant) (d : Span) : Instant := (t.add? d).getD t

theorem nanos_of_ofNanos? {n : Int} {t : Instant} (h : ofNanos? n = some t) : t.nanos = n := by
  unfold ofNanos? at h
  split at h
  · cases h; rfl
  · cases h

theorem nanos_of_add? {t u : Instant} {d : Span} (h : t.add? d = some u) :
    u.nanos = t.nanos + d.nanos := by
  unfold add? at h
  split at h
  · exact nanos_of_ofNanos? h
  · cases h

end Instant

end RequestCache
