/-
# The end of an entry in whole nanoseconds

Whether an entry has ended is a matter of integers: the deadline is not later than now, or as many
nanoseconds have passed since the last access as the window has.  The store gets there by parts.  It
subtracts days and times of day on their own, puts them together to a signed gap that cannot be
longer than `2 ^ 63 - 1` milliseconds either way, turns the gap into an unsigned span, or into the
empty one if now comes first, and compares it with the window by seconds and then by what is left of
a second (`Held.hasEndedByParts?`).

No step fails, as the calendar is much shorter than the longest gap, and the answer is that of the
integers (`Held.hasEnded_over_integers`).  So an entry that nobody touches does not come back, and a
window longer than the calendar never closes.
-/
import RequestCache.Proofs.Words

namespace RequestCache

/-! ## Gaps -/

/-- A signed length of time: whole seconds, and the nanoseconds that come on top of them. -/
structure Gap where
  seconds : Int
  subsecond : Int
deriving DecidableEq

namespace Gap

/-- The length in nanoseconds. -/
def nanos (g : Gap) : Int := g.seconds * nanosPerSecond + g.subsecond

/-- The nanoseconds on top do not make a second. -/
def IsNormal (g : Gap) : Prop := 0 ≤ g.subsecond ∧ g.subsecond < nanosPerSecond

/-- The gap of so many seconds and nanoseconds, unless it is longer than `2 ^ 63 - 1` milliseconds,
one way or the other.  The nanoseconds are brought down to less than a second. -/
def ofParts? (seconds nanos : Int) : Option Gap :=
  let g : Gap := ⟨seconds + nanos / nanosPerSecond, nanos % nanosPerSecond⟩
  if g.nanos.natAbs ≤ Span.maxAddable then some g else none

/-- The gap as an unsigned span, unless it is negative. -/
def toSpan? (g : Gap) : Option Span :=
  if g.seconds < 0 then none else Span.ofParts? g.seconds.toNat g.subsecond.toNat

lemma exists_ofParts? {seconds nanos : Int}
    (h : (seconds * nanosPerSecond + nanos).natAbs ≤ Span.maxAddable) :
    ∃ g, ofParts? seconds nanos = some g ∧ g.IsNormal ∧
      g.nanos = seconds * nanosPerSecond + nanos := by
  have hnanos : (⟨seconds + nanos / nanosPerSecond, nanos % nanosPerSecond⟩ : Gap).nanos =
      seconds * nanosPerSecond + nanos := by
    unfold Gap.nanos nanosPerSecond
    dsimp only
    omega
  refine ⟨_, if_pos (by rwa [hnanos]), ⟨?_, ?_⟩, hnanos⟩
  · exact Int.emod_nonneg _ (by decide)
  · exact Int.emod_lt_of_pos _ (by decide)

/-- A gap that is not negative is a span of the same length, and any other one counts as none. -/
lemma nanos_toSpan?_getD {g : Gap} (hnormal : g.IsNormal)
    (hfits : g.nanos.natAbs ≤ Span.maxAddable) :
    (g.toSpan?.getD Span.zero).nanos = g.nanos.toNat := by
  obtain ⟨hnonneg, hlt⟩ := hnormal
  unfold Gap.nanos at hfits ⊢
  unfold Span.maxAddable maxSigned64 nanosPerMilli at hfits
  unfold nanosPerSecond at hfits hlt ⊢
  unfold toSpan? Span.ofParts? nanosPerSecond
  by_cases hneg : g.seconds < 0
  · rw [if_pos hneg, Option.getD_none, Span.zero]
    dsimp only
    omega
  · rw [if_neg hneg, dif_pos (by omega), Option.getD_some]
    dsimp only
    omega

end Gap

/-- A span is at least as long as another one, by seconds and then by the rest. -/
def Span.reaches (d w : Span) : Bool :=
  w.seconds < d.seconds || (w.seconds = d.seconds && w.subsecond ≤ d.subsecond)

lemma Span.reaches_eq_true_iff {d w : Span} : d.reaches w = true ↔ w.nanos ≤ d.nanos := by
  rw [reaches, Bool.or_eq_true, Bool.and_eq_true, decide_eq_true_eq, decide_eq_true_eq,
    decide_eq_true_eq]
  unfold seconds subsecond nanosPerSecond
  omega

namespace Instant

/-- The day that an instant lies in, counted from the epoch. -/
def day (t : Instant) : Int := t.seconds / 86400

/-- The second of its day that an instant lies in. -/
def secondOfDay (t : Instant) : Int := t.seconds % 86400

/-- The gap from an instant to another one, unless it cannot be written down. -/
def since? (t earlier : Instant) : Option Gap := do
  let days ← Gap.ofParts? ((t.day - earlier.day) * 86400) 0
  let times ← Gap.ofParts? (t.secondOfDay - earlier.secondOfDay) (t.subsecond - earlier.subsecond)
  Gap.ofParts? (days.seconds + times.seconds) (days.subsecond + times.subsecond)

/-- The nanoseconds from the first instant of the calendar to the last one. -/
def calendarWidth : Nat := 16544868105599999999999

/-- An instant is its day, its second of the day, and the rest. -/
lemma nanos_eq_parts (t : Instant) :
    t.nanos = (t.day * 86400 + t.secondOfDay) * nanosPerSecond + t.subsecond := by
  unfold day secondOfDay subsecond seconds nanosPerSecond
  omega

lemma sub_le_calendarWidth (s t : Instant) : (t.nanos - s.nanos).natAbs ≤ calendarWidth := by
  have hs := s.inRange
  have ht := t.inRange
  unfold calendarWidth
  omega

lemma parts_bounded (t : Instant) :
    0 ≤ t.secondOfDay ∧ t.secondOfDay < 86400 ∧ t.subsecond < nanosPerSecond := by
  unfold secondOfDay subsecond nanosPerSecond
  omega

/-- The calendar is shorter than the longest gap. -/
lemma sub_le_maxAddable (s t : Instant) : (t.nanos - s.nanos).natAbs ≤ Span.maxAddable :=
  Nat.le_trans (sub_le_calendarWidth s t) (by decide)

/-- Any two instants of the calendar have a gap, and it is their difference. -/
lemma exists_since? (t earlier : Instant) :
    ∃ g, t.since? earlier = some g ∧ g.IsNormal ∧ g.nanos = t.nanos - earlier.nanos := by
  have hwidth := sub_le_calendarWidth earlier t
  have ht := t.nanos_eq_parts
  have hearlier := earlier.nanos_eq_parts
  obtain ⟨ht₀, ht₁, ht₂⟩ := t.parts_bounded
  obtain ⟨he₀, he₁, he₂⟩ := earlier.parts_bounded
  unfold calendarWidth at hwidth
  unfold nanosPerSecond at ht hearlier ht₂ he₂
  have hdays : ((t.day - earlier.day) * 86400 * nanosPerSecond + 0 : Int).natAbs ≤
      Span.maxAddable := by
    unfold nanosPerSecond Span.maxAddable maxSigned64 nanosPerMilli
    omega
  have htimes : ((t.secondOfDay - earlier.secondOfDay) * nanosPerSecond +
      (t.subsecond - earlier.subsecond) : Int).natAbs ≤ Span.maxAddable := by
    unfold nanosPerSecond Span.maxAddable maxSigned64 nanosPerMilli
    omega
  obtain ⟨days, hdays, -, hdaysNanos⟩ := Gap.exists_ofParts? hdays
  obtain ⟨times, htimes, -, htimesNanos⟩ := Gap.exists_ofParts? htimes
  have hsum : (days.seconds + times.seconds) * nanosPerSecond +
      (days.subsecond + times.subsecond) = t.nanos - earlier.nanos := by
    unfold Gap.nanos nanosPerSecond at hdaysNanos htimesNanos
    unfold nanosPerSecond
    omega
  have hfits : ((days.seconds + times.seconds) * nanosPerSecond +
      (days.subsecond + times.subsecond)).natAbs ≤ Span.maxAddable := by
    rw [hsum]
    exact sub_le_maxAddable earlier t
  obtain ⟨g, hg, hnormal, hnanos⟩ := Gap.exists_ofParts? hfits
  refine ⟨g, ?_, hnormal, hnanos.trans hsum⟩
  rw [since?, hdays, htimes]
  exact hg

end Instant

/-! ## Whether an entry has ended -/

namespace Held

/-- Has the entry ended at `now`?  There is no answer if the gap to the last access is needed and
cannot be written down. -/
def hasEndedByParts? (e : Held) (now : Instant) : Option Bool :=
  if e.deadline.any (fun d => d ≤ now) then some true
  else
    match e.window with
    | none => some false
    | some w => (now.since? e.lastAccess).map fun g => (g.toSpan?.getD Span.zero).reaches w

variable {e : Held} {now : Instant}

lemma hasEnded_iff :
    e.hasEnded now = true ↔
      (∃ d ∈ e.deadline, d.nanos ≤ now.nanos) ∨
        ∃ w ∈ e.window, (w.nanos : Int) ≤ max 0 (now.nanos - e.lastAccess.nanos) := by
  rw [hasEnded, Bool.or_eq_true, Option.any_eq_true, Option.any_eq_true]
  refine or_congr (exists_congr fun d => and_congr_right fun _ => ?_)
    (exists_congr fun w => and_congr_right fun _ => ?_)
  · rw [decide_eq_true_eq, Instant.le_iff]
  · rw [decide_eq_true_eq, Instant.elapsedSince]
    omega

/-- No step on the way by parts fails, and the way leads to the same answer. -/
lemma hasEndedByParts?_eq (e : Held) (now : Instant) :
    e.hasEndedByParts? now = some (e.hasEnded now) := by
  rw [hasEndedByParts?, hasEnded]
  cases e.deadline.any fun d => d ≤ now with
  | true => rfl
  | false =>
    rw [if_neg Bool.false_ne_true, Bool.false_or]
    cases e.window with
    | none => rfl
    | some w =>
      obtain ⟨g, hg, hnormal, hnanos⟩ := now.exists_since? e.lastAccess
      have hspan : (g.toSpan?.getD Span.zero).nanos = now.elapsedSince e.lastAccess := by
        rw [Gap.nanos_toSpan?_getD hnormal, hnanos, Instant.elapsedSince]
        rw [hnanos]
        exact Instant.sub_le_maxAddable e.lastAccess now
      have hreaches : (g.toSpan?.getD Span.zero).reaches w =
          decide (w.nanos ≤ now.elapsedSince e.lastAccess) := by
        rw [Bool.eq_iff_iff, Span.reaches_eq_true_iff, hspan, decide_eq_true_eq]
      rw [hg, Option.any_some]
      exact congrArg some hreaches

/-- A window that is longer than the calendar does not matter. -/
lemma hasEnded_iff_of_long_window (h : ∀ w ∈ e.window, Instant.calendarWidth < w.nanos) :
    e.hasEnded now = true ↔ ∃ d ∈ e.deadline, d ≤ now := by
  rw [hasEnded_iff]
  refine or_iff_left ?_
  rintro ⟨w, hw, hle⟩
  have hlong := h w hw
  have hwidth := Instant.sub_le_calendarWidth e.lastAccess now
  omega

/-- An entry has any deadline, any window and any last access, and it is looked at at any instant,
also before the last access.

* The gap between the two ends of the calendar, and so any other one, can be written down, and it is
  the difference of the two instants.
* So the way by parts leads to an answer, and it is that of the integers: the deadline is not later
  than now, or as many nanoseconds have passed since the last access as the window has, where none
  have passed if now comes first.
* An entry that has ended has ended at all later instants, if it is not touched.
* A window that is longer than the calendar never ends an entry: only the deadline counts. -/
theorem hasEnded_over_integers (e : Held) (now : Instant) :
    (∃ g, now.since? e.lastAccess = some g ∧ g.nanos = now.nanos - e.lastAccess.nanos) ∧
    e.hasEndedByParts? now = some (e.hasEnded now) ∧
    (e.hasEnded now = true ↔
      (∃ d ∈ e.deadline, d.nanos ≤ now.nanos) ∨
        ∃ w ∈ e.window, (w.nanos : Int) ≤ max 0 (now.nanos - e.lastAccess.nanos)) ∧
    (∀ later, now ≤ later → e.hasEnded now = true → e.hasEnded later = true) ∧
    ((∀ w ∈ e.window, Instant.calendarWidth < w.nanos) →
      (e.hasEnded now = true ↔ ∃ d ∈ e.deadline, d ≤ now)) := by
  refine ⟨?_, hasEndedByParts?_eq e now, hasEnded_iff, fun later hlater => hasEnded_mono hlater,
    hasEnded_iff_of_long_window⟩
  obtain ⟨g, hg, -, hnanos⟩ := now.exists_since? e.lastAccess
  exact ⟨g, hg, hnanos⟩

end Held

namespace Demo

/-- An entry that was last read as the calendar began, with a window of so many nanoseconds. -/
def idleSince (window : ℕ) (h : window < 0x10000000000000000 * nanosPerSecond) : Held :=
  ⟨"hello", none, some ⟨window, h⟩, firstInstant⟩

/-- A window as long as the time from the beginning of the calendar to the epoch is over at the epoch
and stays so.  One that is longer than the calendar is still open at its end. -/
theorem idle_to_the_end :
    (idleSince 8334601228800000000000 (by decide)).hasEndedByParts? .epoch = some true ∧
      Instant.epoch ≤ lastInstant ∧
      (idleSince 8334601228800000000000 (by decide)).hasEnded lastInstant = true ∧
      (∀ w ∈ (idleSince (Instant.calendarWidth + 1) (by decide)).window,
        Instant.calendarWidth < w.nanos) ∧
      (idleSince (Instant.calendarWidth + 1) (by decide)).hasEnded lastInstant = false := by
  obtain ⟨-, hparts, hended, hlater, -⟩ :=
    (idleSince 8334601228800000000000 (by decide)).hasEnded_over_integers .epoch
  obtain ⟨-, -, -, -, hopen⟩ :=
    (idleSince (Instant.calendarWidth + 1) (by decide)).hasEnded_over_integers lastInstant
  have hover := hended.2 (.inr ⟨_, rfl, by decide⟩)
  have hle : Instant.epoch ≤ lastInstant := by decide
  have hlong : ∀ w ∈ (idleSince (Instant.calendarWidth + 1) (by decide)).window,
      Instant.calendarWidth < w.nanos := by
    rintro w ⟨⟩
    exact Nat.lt_succ_self _
  refine ⟨by rw [hparts, hover], hle, hlater lastInstant hle hover, hlong, ?_⟩
  rw [Bool.eq_false_iff]
  intro h
  obtain ⟨d, hd, -⟩ := (hopen hlong).1 h
  cases hd

end Demo

end RequestCache
