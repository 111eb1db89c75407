/-
# Ends counted from the write

A lifetime with a relative end is over so many nanoseconds after the write, to the nanosecond,
unless the span is too long to be added or the calendar ends before; then the entry never ends.
So a longer span never means an earlier end, although a span that is a little longer may mean none.

For the store in memory this comes down to a comparison of two entries that differ in their
deadlines alone (`Held.Outlasts`).  What is done with one of them is done with the other one at the
same instants, and whatever that is, the one with the earlier deadline goes first
(`Lifetime.relative_ends`).
-/
import RequestCache.Proofs.Expiry
import RequestCache.Proofs.Rounding

namespace RequestCache

/-! ## The sum -/

namespace Instant

/-- The first end comes no later than the second one; none is never. -/
def NotAfter (c d : Option Instant) : Prop := ∀ t ∈ d, ∃ s ∈ c, s ≤ t

lemma NotAfter.refl (c : Option Instant) : NotAfter c c := fun t ht => ⟨t, ht, Int.le_refl _⟩

lemma ofNanos?_eq_some_iff {n : Int} {t : Instant} : ofNanos? n = some t ↔ t.nanos = n := by
  refine ⟨nanos_of_ofNanos?, ?_⟩
  rintro rfl
  exact dif_pos t.inRange

lemma add?_eq_some_iff {t u : Instant} {d : Span} :
    t.add? d = some u ↔ d.nanos ≤ Span.maxAddable ∧ u.nanos = t.nanos + d.nanos := by
  unfold add?
  split_ifs with hfits
  · rw [ofNanos?_eq_some_iff, and_iff_right hfits]
  · exact iff_of_false nofun fun h => hfits h.1

lemma lt_of_add? {t u : Instant} {d : Span} (hd : 0 < d.nanos) (h : t.add? d = some u) : t < u := by
  have hsum := nanos_of_add? h
  rw [lt_iff]
  omega

/-- A shorter span can be added where a longer one can, and the sum comes no later. -/
lemma notAfter_add? {a b : Span} (hab : a.nanos ≤ b.nanos) (t : Instant) :
    NotAfter (t.add? a) (t.add? b) := by
  intro u hu
  obtain ⟨hfits, hsum⟩ := add?_eq_some_iff.1 hu
  have hrange := t.inRange
  have hrange' := u.inRange
  -- the sum with the shorter span lies between two instants of the calendar
  let s : Instant := ⟨t.nanos + a.nanos, by omega⟩
  refine ⟨s, add?_eq_some_iff.2 ⟨hab.trans hfits, rfl⟩, ?_⟩
  rw [le_iff, hsum]
  exact Int.add_le_add_left (Int.ofNat_le.2 hab) _

end Instant

/-! ## Two entries -/

namespace Held

/-- The entries have the same window and were last read together, and the first one is not the
first to end. -/
structure Outlasts (e' e : Held) : Prop where
  window : e'.window = e.window
  lastAccess : e'.lastAccess = e.lastAccess
  deadline : Instant.NotAfter e.deadline e'.deadline

/-- Where there is an entry, there is one in the other place that outlasts it. -/
def Outlives (long short : Option Held) : Prop := ∀ e ∈ short, ∃ e' ∈ long, e'.Outlasts e

/-- What can be done with the entry of one key. -/
inductive Deed where
  | write (value : String) (lifetime : Lifetime)
  | read
  | purge
  | remove
deriving DecidableEq

/-- The entry of a key after a deed at an instant, if there is one. -/
def after (e? : Option Held) (now : Instant) : Deed → Option Held
  | .write value l => if l.check = .ok () then fresh? now value l else e?
  | .read => (e?.filter fun e => !e.hasEnded now).map (·.touch now)
  | .purge => e?.filter fun e => !e.hasEnded now
  | .remove => none

variable {e e' : Held} {short long : Option Held} {now : Instant}

lemma Outlasts.refl (e : Held) : e.Outlasts e := ⟨rfl, rfl, .refl _⟩

lemma Outlasts.hasEnded (h : e'.Outlasts e) (hended : e'.hasEnded now = true) :
    e.hasEnded now = true := by
  simp only [Held.hasEnded, Bool.or_eq_true, Option.any_eq_true, decide_eq_true_eq] at hended ⊢
  rw [h.window, h.lastAccess] at hended
  refine hended.imp_left ?_
  rintro ⟨d', hd', hle⟩
  obtain ⟨d, hd, hle'⟩ := h.deadline d' hd'
  exact ⟨d, hd, Int.le_trans hle' hle⟩

lemma Outlasts.touch (h : e'.Outlasts e) (now : Instant) :
    (e'.touch now).Outlasts (e.touch now) := by
  unfold Held.touch
  rw [h.window]
  split_ifs
  · exact ⟨rfl, rfl, h.deadline⟩
  · exact h

lemma Outlives.filter (h : Outlives long short) (now : Instant) :
    Outlives (long.filter fun e => !e.hasEnded now) (short.filter fun e => !e.hasEnded now) := by
  intro e he
  obtain ⟨he, hlives⟩ := Option.filter_eq_some_iff.1 he
  obtain ⟨e', he', hlasts⟩ := h e he
  refine ⟨e', Option.filter_eq_some_iff.2 ⟨he', ?_⟩, hlasts⟩
  rw [Bool.not_eq_true'] at hlives ⊢
  exact eq_false_of_ne_true fun hended => absurd (hlasts.hasEnded hended) (by simp [hlives])

/-- The same deed leaves the entry that ends last where it was. -/
lemma Outlives.after (h : Outlives long short) (now : Instant) (deed : Deed) :
    Outlives (after long now deed) (after short now deed) := by
  cases deed with
  | write value l =>
    unfold Held.after
    dsimp only
    split_ifs
    · exact fun e he => ⟨e, he, .refl e⟩
    · exact h
  | read =>
    intro e he
    obtain ⟨e₀, he₀, rfl⟩ := Option.map_eq_some_iff.1 he
    obtain ⟨e', he', hlasts⟩ := h.filter now e₀ he₀
    exact ⟨e'.touch now, Option.mem_map_of_mem _ he', hlasts.touch now⟩
  | purge => exact h.filter now
  | remove =>
    intro e he
    cases he

end Held

/-! ## What is done with one key -/

/-- What a deed is to the entry of a key, if it is anything to it. -/
def Memory.Deed.onKey (key : String) : Memory.Deed → Option Held.Deed
  | write other value l => if other = key then some (.write value l) else none
  | read other => if other = key then some .read else none
  | remove other => if other = key then some .remove else none
  | contains _ => none
  | purge => some .purge
  | clear => some .remove
  | size => none

lemma elim_ite {α β : Type} {p : Prop} [Decidable p] (a : α) (b : β) (f : α → β) :
    (if p then some a else none).elim b f = if p then f a else b := by
  split_ifs <;> rfl

lemma Memory.get?_after (m : Memory) (now : Instant) (deed : Memory.Deed) (key : String) :
    (m.after now deed).get? key =
      (deed.onKey key).elim (m.get? key) (Held.after (m.get? key) now) := by
  cases deed with
  | write other value l =>
    rw [after, Deed.onKey, elim_ite]
    by_cases hl : l.check = .ok ()
    · rw [get?_write hl]
      exact ite_congr (propext eq_comm) (fun _ => (if_pos hl).symm) fun _ => rfl
    · obtain ⟨fault, hfault⟩ : ∃ fault, m.write now other value l = (.error fault, m) :=
        write_of_not_check hl other value
      rw [hfault, Held.after, if_neg hl, ite_self]
  | read other =>
    rw [after, Deed.onKey, elim_ite, get?_read]
    refine ite_congr (propext eq_comm) (fun hkey => ?_) fun _ => rfl
    rw [← hkey]
    rfl
  | remove other =>
    rw [after, Deed.onKey, elim_ite, Table.get?_erase]
    exact if_congr eq_comm rfl rfl
  | contains _ => rfl
  | purge => exact get?_purge key
  | clear => rfl
  | size => rfl

namespace Past

/-- What was done with one key, and when, the latest deed first. -/
def course (key : String) (past : Past) : List (Instant × Held.Deed) :=
  past.filterMap fun p => (p.2.onKey key).map (Prod.mk p.1)

/-- The entry of a key comes of the entry that it had before, by what was done with the key. -/
lemma get?_store_append (key : String) (later past : Past) :
    (store (later ++ past)).get? key =
      (later.course key).foldr (fun p e? => Held.after e? p.1 p.2) (past.store.get? key) := by
  induction later with
  | nil => rfl
  | cons p later ih =>
    obtain ⟨time, deed⟩ := p
    rw [List.cons_append, store, Memory.get?_after, ih]
    unfold course
    rw [List.filterMap_cons]
    cases deed.onKey key <;> rfl

end Past

/-- The same deeds leave the entry that ends last where it was. -/
lemma Held.Outlives.foldr {long short : Option Held} (h : Outlives long short)
    (course : List (Instant × Deed)) :
    Outlives (course.foldr (fun p e? => Held.after e? p.1 p.2) long)
      (course.foldr (fun p e? => Held.after e? p.1 p.2) short) := by
  induction course with
  | nil => exact h
  | cons p course ih => exact ih.after p.1 p.2

lemma Memory.contains_of_outlives {m m' : Memory} {key key' : String} {now : Instant}
    (h : Held.Outlives (m'.get? key') (m.get? key)) (hfound : m.contains now key = true) :
    m'.contains now key' = true := by
  obtain ⟨e, hget, hlives⟩ := contains_eq_true_iff.1 hfound
  obtain ⟨e', hget', hlasts⟩ := h e hget
  refine contains_eq_true_iff.2 ⟨e', hget', eq_false_of_ne_true fun hended => ?_⟩
  rw [hlasts.hasEnded hended] at hlives
  cases hlives

/-! ## Relative ends -/

namespace Lifetime

variable {now : Instant} {absolute absolute' : Option Instant} {sliding : Option Span} {a b : Span}

lemma check_of_relative (ha : 0 < a.nanos) (hsliding : sliding ≠ some Span.zero) :
    check ⟨absolute, some a, sliding⟩ = .ok () := by
  refine check_eq_ok_iff.2 ⟨fun hzero => ?_, hsliding⟩
  rw [Option.some.inj hzero] at ha
  exact Nat.lt_irrefl 0 ha

/-- A write with a relative end is never too late. -/
lemma isTimely_of_relative (ha : 0 < a.nanos) : IsTimely ⟨absolute, some a, sliding⟩ now :=
  fun _ hd => Instant.lt_of_add? ha hd

lemma get?_write_of_relative (ha : 0 < a.nanos) (hsliding : sliding ≠ some Span.zero)
    (m : Memory) (key value : String) :
    (m.write now key value ⟨absolute, some a, sliding⟩).2.get? key =
      some (Held.ofWrite now value ⟨absolute, some a, sliding⟩) :=
  (m.get?_write_iff now (check_of_relative ha hsliding) key value).1.2 (isTimely_of_relative ha)

/-- The relative ends of two lifetimes are `a` and `b`, neither is empty and `a` is the shorter one;
an absolute end may be set besides.

* The deadline for `a` is so many nanoseconds after the write.  There is none if `a` is longer than
  `2 ^ 63 - 1` milliseconds or no instant is so much later, and in no other case.
* It comes after the write.  So the store in memory keeps the write, if the window is not empty.
* It does not come after the deadline for `b`, where none is never.
* Two values are written at the same instant, with these lifetimes and the same window, each in a
  store of its own or both in the same one, whatever was done before.  Then the same is done with
  both keys.  As long as the value with the shorter lifetime can be found, the other one can. -/
theorem relative_ends (ha : 0 < a.nanos) (hab : a.nanos ≤ b.nanos) (now : Instant)
    (absolute absolute' : Option Instant) (sliding : Option Span) :
    (∀ d, deadline ⟨absolute, some a, sliding⟩ now = some d ↔
      a.nanos ≤ (2 ^ 63 - 1) * nanosPerMilli ∧ d.nanos = now.nanos + a.nanos) ∧
    (deadline ⟨absolute, some a, sliding⟩ now = none ↔
      (2 ^ 63 - 1) * nanosPerMilli < a.nanos ∨ ∀ d : Instant, d.nanos ≠ now.nanos + a.nanos) ∧
    (∀ d ∈ deadline ⟨absolute, some a, sliding⟩ now, now < d) ∧
    (sliding ≠ some Span.zero → ∀ (m : Memory) key value,
      (m.write now key value ⟨absolute, some a, sliding⟩).1 = .ok () ∧
      (m.write now key value ⟨absolute, some a, sliding⟩).2.get? key =
        some (Held.ofWrite now value ⟨absolute, some a, sliding⟩)) ∧
    Instant.NotAfter (deadline ⟨absolute, some a, sliding⟩ now)
      (deadline ⟨absolute', some b, sliding⟩ now) ∧
    (sliding ≠ some Span.zero → ∀ key key' value value' (before before' later later' : Past),
      later.course key = later'.course key' → ∀ time,
      (Past.store (later ++
          (now, .write key value ⟨absolute, some a, sliding⟩) :: before)).contains time key = true →
      (Past.store (later' ++
          (now, .write key' value' ⟨absolute', some b, sliding⟩) :: before')).contains time key' =
        true) := by
  have hsum : ∀ d, deadline ⟨absolute, some a, sliding⟩ now = some d ↔
      a.nanos ≤ (2 ^ 63 - 1) * nanosPerMilli ∧ d.nanos = now.nanos + a.nanos :=
    fun d => Instant.add?_eq_some_iff
  have hnotAfter : Instant.NotAfter (deadline ⟨absolute, some a, sliding⟩ now)
      (deadline ⟨absolute', some b, sliding⟩ now) := Instant.notAfter_add? hab now
  have hahead : ∀ d ∈ deadline ⟨absolute, some a, sliding⟩ now, now < d := isTimely_of_relative ha
  refine ⟨hsum, ?_, hahead, fun hsliding m key value => ?_, hnotAfter, ?_⟩
  · rw [Option.eq_none_iff_forall_ne_some]
    simp only [ne_eq, hsum, not_and]
    by_cases hfits : a.nanos ≤ (2 ^ 63 - 1) * nanosPerMilli
    · simp only [hfits, true_imp_iff, Nat.not_lt.2 hfits, false_or]
    · exact iff_of_true (fun d h => absurd h hfits) (.inl (Nat.lt_of_not_le hfits))
  · exact ⟨Memory.write_of_check (check_of_relative ha hsliding) key value,
      get?_write_of_relative ha hsliding m key value⟩
  · intro hsliding key key' value value' before before' later later' hcourse time hfound
    have hb : 0 < b.nanos := Nat.lt_of_lt_of_le ha hab
    -- just after the writes the entries differ in their values and deadlines alone
    have hstart : Held.Outlives (some (Held.ofWrite now value' ⟨absolute', some b, sliding⟩))
        (some (Held.ofWrite now value ⟨absolute, some a, sliding⟩)) := by
      intro e he
      cases he
      exact ⟨_, rfl, rfl, rfl, hnotAfter⟩
    refine Memory.contains_of_outlives ?_ hfound
    rw [Past.get?_store_append, Past.get?_store_append, ← hcourse]
    refine Held.Outlives.foldr ?_ _
    rw [Past.store, Past.store, Memory.after, Memory.after, get?_write_of_relative ha hsliding,
      get?_write_of_relative hb hsliding]
    exact hstart

end Lifetime

namespace Demo

/-- Two values are written at the epoch, one for half an hour and one for an hour, and each is read
after ten minutes. -/
def twoSpans : Past :=
  [(minute 10, .read "second"), (minute 10, .read "first"),
    (minute 0, .write "second" "two" { relative := some hour }),
    (minute 0, .write "first" "one" { relative := some halfHour })]

/-- Both can be found after twenty minutes. -/
theorem twoSpans_found :
    0 < halfHour.nanos ∧ halfHour.nanos ≤ hour.nanos ∧
      Lifetime.deadline { relative := some halfHour } (minute 0) = some (minute 30) ∧
      twoSpans.store.contains (minute 20) "first" = true ∧
      twoSpans.store.contains (minute 20) "second" = true := by
  obtain ⟨hsum, -, -, -, -, houtlives⟩ :=
    Lifetime.relative_ends (a := halfHour) (b := hour) (by decide) (by decide) (minute 0)
      none none none
  have hfound : twoSpans.store.contains (minute 20) "first" = true := by decide +kernel
  refine ⟨by decide, by decide, (hsum _).2 (by decide), hfound, ?_⟩
  exact houtlives nofun "first" "second" "one" "two" []
    [(minute 0, .write "first" "one" { relative := some halfHour })]
    [(minute 10, .read "second"), (minute 10, .read "first"),
      (minute 0, .write "second" "two" { relative := some hour })]
    [(minute 10, .read "second"), (minute 10, .read "first")] (by decide) (minute 20) hfound

end Demo

end RequestCache
