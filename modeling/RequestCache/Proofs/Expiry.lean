/-
# What a store in memory answers

An entry that has ended stays until it is read, overwritten or cleared away, and a read renews
what it finds, so what the store keeps depends on everything that was done with it.  Its answers
do not.  They follow from the past of a key alone, in which nothing ever goes because it ended:
the latest write of the key, if no removal came after it, and the latest read that found
something (`Past.value?`).

That both agree (`Past.live?_store`) is an induction on the past.  An entry that was dropped had
ended, and since the clock does not go back it has still ended whenever one asks; an entry that
has ended and is still there is not told apart from one that was dropped.
-/
import Mathlib.Data.List.Basic
import Mathlib.Logic.Function.Basic
import RequestCache.Proofs.Memory

namespace RequestCache

/-- What can be done with a store in memory. -/
inductive Memory.Deed where
  | write (key value : String) (lifetime : Lifetime)
  | read (key : String)
  | remove (key : String)
  | contains (key : String)
  | purge
  | clear
  | size

/-- Does the deed only look, or clear away what has ended? -/
def Memory.Deed.isPassive : Memory.Deed → Bool
  | contains _ => true
  | purge => true
  | size => true
  | _ => false

/-- The store after a deed at an instant. -/
def Memory.after (m : Memory) (now : Instant) : Memory.Deed → Memory
  | .write key value l => (m.write now key value l).2
  | .read key => (m.read now key).2
  | .remove key => m.erase key
  | .contains _ => m
  | .purge => (m.purge now).2
  | .clear => ∅
  | .size => m

/-- What was done with a store, and when, the latest deed first. -/
abbrev Past := List (Instant × Memory.Deed)

/-- A write, as it was asked for. -/
structure Written where
  time : Instant
  value : String
  lifetime : Lifetime

namespace Written

/-- The instant of the write or of the latest successful read, whichever is later. -/
def lastUse (w : Written) (lastRead : Option Instant) : Instant :=
  lastRead.elim w.time fun time => if w.time ≤ time then time else w.time

/-- Can what was written be read at `now`?  It was not written too late, its deadline is still to
come, and less than its window has passed since it was last used. -/
def isReadable (w : Written) (lastRead : Option Instant) (now : Instant) : Bool :=
  (w.lifetime.deadline w.time).all (fun d => w.time < d && now < d) &&
    w.lifetime.sliding.all fun window => now.elapsedSince (w.lastUse lastRead) < window.nanos

end Written

namespace Past

/-- The clock did not go back in the past and does not until `now`. -/
def LeadsTo (now : Instant) : Past → Prop
  | [] => True
  | (time, _) :: past => time ≤ now ∧ LeadsTo time past

instance decidableLeadsTo : (now : Instant) → (past : Past) → Decidable (past.LeadsTo now)
  | _, [] => .isTrue trivial
  | now, (time, _) :: past =>
    have := decidableLeadsTo time past
    inferInstanceAs (Decidable (time ≤ now ∧ LeadsTo time past))

/-- The store that starts empty, after all that was done. -/
def store : Past → Memory
  | [] => ∅
  | (time, deed) :: past => (store past).after time deed

/-- The write that stands for a key: the latest deed that writes or removes the key, if it is a
write.  A write that is refused is none. -/
def written? (key : String) : Past → Option Written
  | [] => none
  | (time, .write other value l) :: past =>
    if other = key ∧ l.check = .ok () then some ⟨time, value, l⟩ else written? key past
  | (_, .remove other) :: past => if other = key then none else written? key past
  | (_, .clear) :: _ => none
  | _ :: past => written? key past

/-- The instant of the latest read of a key that found something. -/
def lastRead? (key : String) : Past → Option Instant
  | [] => none
  | (time, .read other) :: past =>
    if other = key ∧ (written? key past).any (·.isReadable (lastRead? key past) time) then some time
    else lastRead? key past
  | _ :: past => lastRead? key past

/-- The value of a key at `now`, as its past has it. -/
def value? (past : Past) (now : Instant) (key : String) : Option String :=
  ((past.written? key).filter (·.isReadable (past.lastRead? key) now)).map Written.value

/-- The past without the deeds that only look or clear away what has ended. -/
def actions (past : Past) : Past := past.filter fun p => !p.2.isPassive

variable {past : Past} {now time : Instant} {key : String}

lemma LeadsTo.mono (h : past.LeadsTo time) (hle : time ≤ now) : past.LeadsTo now := by
  cases past with
  | nil => trivial
  | cons p past => exact ⟨Int.le_trans h.1 hle, h.2⟩

lemma time_le_of_written? (h : past.LeadsTo now) {w : Written} (hw : past.written? key = some w) :
    w.time ≤ now := by
  induction past generalizing now with
  | nil => cases hw
  | cons p past ih =>
    obtain ⟨time, deed⟩ := p
    have hrest : written? key past = some w → w.time ≤ now :=
      fun hw => Int.le_trans (ih h.2 hw) h.1
    cases deed with
    | write other value l =>
      simp only [written?] at hw
      split_ifs at hw
      · cases hw
        exact h.1
      · exact hrest hw
    | remove other =>
      simp only [written?] at hw
      split_ifs at hw
      exact hrest hw
    | clear => cases hw
    | _ => exact hrest hw

lemma le_of_lastRead? (h : past.LeadsTo now) {read : Instant}
    (hr : past.lastRead? key = some read) : read ≤ now := by
  induction past generalizing now with
  | nil => cases hr
  | cons p past ih =>
    obtain ⟨time, deed⟩ := p
    have hrest : lastRead? key past = some read → read ≤ now :=
      fun hr => Int.le_trans (ih h.2 hr) h.1
    cases deed with
    | read other =>
      simp only [lastRead?] at hr
      split_ifs at hr
      · cases hr
        exact h.1
      · exact hrest hr
    | _ => exact hrest hr

end Past

lemma Instant.le_antisymm {s t : Instant} (h : s ≤ t) (h' : t ≤ s) : s = t := by
  cases s
  cases t
  congr
  exact Int.le_antisymm h h'

namespace Written

/-- The entry that stands for a write that was last read at an instant. -/
def held (w : Written) (lastRead : Option Instant) : Held :=
  ⟨w.value, w.lifetime.deadline w.time, w.lifetime.sliding,
    if w.lifetime.sliding.isSome then w.lastUse lastRead else w.time⟩

variable {w : Written} {lastRead : Option Instant} {now : Instant}

@[simp] lemma value_held : (w.held lastRead).value = w.value := rfl

/-- The entry has not ended as long as the write can be read. -/
lemma hasEnded_held (h : w.time ≤ now) :
    (w.held lastRead).hasEnded now = !w.isReadable lastRead now := by
  have hdeadline : (w.lifetime.deadline w.time).any (fun d => d ≤ now) =
      !(w.lifetime.deadline w.time).all fun d => w.time < d && now < d := by
    cases w.lifetime.deadline w.time with
    | none => rfl
    | some d =>
      rw [Bool.eq_iff_iff]
      simp only [Option.any_some, Option.all_some, Bool.not_and, Bool.or_eq_true,
        Bool.not_eq_true', decide_eq_false_iff_not, decide_eq_true_eq, Instant.le_iff,
        Instant.lt_iff] at h ⊢
      omega
  have hwindow : ∀ lastAccess,
      w.lifetime.sliding.any (fun s => s.nanos ≤ now.elapsedSince lastAccess) =
        !w.lifetime.sliding.all fun s => now.elapsedSince lastAccess < s.nanos := by
    intro lastAccess
    cases w.lifetime.sliding with
    | none => rfl
    | some s =>
      rw [Option.any_some, Option.all_some, Bool.eq_iff_iff]
      simp only [Bool.not_eq_true', decide_eq_true_eq, decide_eq_false_iff_not, Nat.not_lt]
  rw [isReadable, Bool.not_and, ← hdeadline, ← hwindow, Held.hasEnded, held]
  cases w.lifetime.sliding <;> rfl

lemma lastUse_of_le (h : ∀ read ∈ lastRead, read ≤ w.time) : w.lastUse lastRead = w.time := by
  unfold lastUse
  cases lastRead with
  | none => rfl
  | some read =>
    simp only [Option.elim_some]
    split_ifs with hge
    · exact Instant.le_antisymm (h read rfl) hge
    · rfl

/-- A read renews the entry to the one that was last read then. -/
lemma touch_held (h : w.time ≤ now) : (w.held lastRead).touch now = w.held (some now) := by
  unfold Held.touch held lastUse
  cases w.lifetime.sliding <;> simp [h]

lemma held_of_le (h : ∀ read ∈ lastRead, read ≤ w.time) :
    w.held lastRead = ⟨w.value, w.lifetime.deadline w.time, w.lifetime.sliding, w.time⟩ := by
  rw [held, lastUse_of_le h, ite_self]

/-- A write that comes too late leaves no entry, and its entry would have ended. -/
lemma filter_fresh? (h : ∀ read ∈ lastRead, read ≤ w.time) (hnow : w.time ≤ now) :
    (Held.fresh? w.time w.value w.lifetime).filter (fun e => !e.hasEnded now) =
      (some (w.held lastRead)).filter fun e => !e.hasEnded now := by
  rw [Held.fresh?, held_of_le h]
  split_ifs with hlate
  · obtain ⟨d, hd, hle⟩ := (Option.any_eq_true _ _).1 hlate
    have hended : d ≤ now := Int.le_trans (of_decide_eq_true hle) hnow
    simp [Option.filter, hd, Held.hasEnded, hended]
  · rfl

end Written

namespace Memory

variable {m m' : Memory} {now later : Instant} {key : String}

lemma live?_congr (h : m'.get? key = m.get? key) : m'.live? now key = m.live? now key := by
  rw [live?, live?, h]

/-- What changes one key alone puts what lives under it in place of what lived there. -/
lemma live?_eq_update {e? : Option Held} (hkey : m'.get? key = e?)
    (hlives : ∀ e ∈ e?, e.hasEnded now = false)
    (hother : ∀ other, other ≠ key → m'.get? other = m.get? other) :
    m'.live? now = Function.update (m.live? now) key e? := by
  funext other
  by_cases h : other = key
  · subst h
    rw [Function.update_self, live?, hkey]
    cases e? with
    | none => rfl
    | some e => simp [Option.filter, hlives e rfl]
  · rw [Function.update_of_ne h]
    exact live?_congr (hother other h)

lemma live?_read : (m.read now key).2.live? now =
    Function.update (m.live? now) key ((m.live? now key).map (·.touch now)) := by
  refine live?_eq_update ?_ ?_ ?_
  · rw [get?_read, if_pos rfl]
  · intro e he
    obtain ⟨e', he', rfl⟩ := Option.map_eq_some_iff.1 he
    exact Held.hasEnded_touch (live?_eq_some_iff.1 he').2
  · intro other hother
    rw [get?_read, if_neg hother]

lemma live?_erase : live? (m.erase key) now = Function.update (m.live? now) key none := by
  refine live?_eq_update ?_ ?_ ?_
  · rw [Table.get?_erase, if_pos rfl]
  · intro e he
    cases he
  · intro other hother
    rw [Table.get?_erase, if_neg hother]

/-- What has not ended later has not ended now. -/
lemma filter_live? (h : now ≤ later) :
    (m.live? now key).filter (fun e => !e.hasEnded later) = m.live? later key := by
  unfold live?
  cases m.get? key with
  | none => rfl
  | some e =>
    cases hended : e.hasEnded now with
    | true => simp [Option.filter, hended, Held.hasEnded_mono h hended]
    | false => simp [Option.filter, hended]

/-- What is cleared away is what is kept and can no longer be found. -/
lemma purge_eq_length (m : Memory) (now : Instant) :
    (m.purge now).1 = (m.keys.filter fun key => !m.contains now key).length := by
  have hended : ∀ e ∈ m.entries, (!m.contains now e.1) = !!e.2.hasEnded now := by
    intro e he
    rw [contains, Table.get?_eq_some_iff.2 he, Option.any_some]
  have hcount := m.entries.length_eq_length_filter_add fun e => !e.2.hasEnded now
  change m.entries.length - (m.entries.filter fun e => !e.2.hasEnded now).length = _
  rw [Table.keys, List.filter_map, List.length_map, Function.comp_def, List.filter_congr hended]
  omega

end Memory

namespace Past

variable {past : Past} {now time : Instant} {key : String}

/-- The entry of a key as its past has it, ended or not. -/
def held? (past : Past) (key : String) : Option Held :=
  (past.written? key).map (·.held (past.lastRead? key))

/-- What a write leaves under its key. -/
lemma filter_held?_write (hpast : past.LeadsTo time) (hle : time ≤ now) {value : String}
    {l : Lifetime} (hl : l.check = .ok ()) :
    (Held.fresh? time value l).filter (fun e => !e.hasEnded now) =
      (held? ((time, .write key value l) :: past) key).filter fun e => !e.hasEnded now := by
  -- reads of what was there before do not count for what is written now
  have hread : ∀ read ∈ lastRead? key past, read ≤ time :=
    fun read hr => le_of_lastRead? hpast hr
  rw [Written.filter_fresh? (w := ⟨time, value, l⟩) hread hle]
  simp [held?, written?, lastRead?, hl]

/-- What a read leaves under its key. -/
lemma filter_held?_read (hpast : past.LeadsTo time) (hle : time ≤ now) :
    (((held? past key).filter fun e => !e.hasEnded time).map (·.touch time)).filter
        (fun e => !e.hasEnded now) =
      (held? ((time, .read key) :: past) key).filter fun e => !e.hasEnded now := by
  cases hw : written? key past with
  | none => simp [held?, written?, hw]
  | some w =>
    have htime := time_le_of_written? hpast hw
    have hended : (w.held (lastRead? key past)).hasEnded time = _ := Written.hasEnded_held htime
    cases hreadable : w.isReadable (lastRead? key past) time with
    | true =>
      -- the read renews the entry, and is the latest one that found something
      rw [hreadable] at hended
      simp [held?, written?, lastRead?, hw, hreadable, Option.filter, hended,
        Written.touch_held htime]
    | false =>
      -- the read drops the entry, which has ended for good, and leaves no trace in the past
      rw [hreadable] at hended
      have hlater := Held.hasEnded_mono hle hended
      simp [held?, written?, lastRead?, hw, hreadable, Option.filter, hended, hlater]

/-- What lives in the store under a key is the entry of its past, unless that has ended. -/
theorem live?_store (h : past.LeadsTo now) (key : String) :
    past.store.live? now key = (past.held? key).filter fun e => !e.hasEnded now := by
  induction past generalizing now with
  | nil => rfl
  | cons p past ih =>
    obtain ⟨time, deed⟩ := p
    obtain ⟨hle, hpast⟩ := h
    -- a deed that is not about the key changes nothing
    have hsame : (store ((time, deed) :: past)).get? key = (store past).get? key →
        held? ((time, deed) :: past) key = held? past key →
        (store ((time, deed) :: past)).live? now key =
          (held? ((time, deed) :: past) key).filter fun e => !e.hasEnded now := by
      intro hget hentry
      rw [Memory.live?_congr hget, hentry]
      exact ih (LeadsTo.mono hpast hle)
    cases deed with
    | write other value l =>
      by_cases hl : l.check = .ok ()
      · have hget : ((store past).write time other value l).2.get? key = _ :=
          Memory.get?_write hl other value key
        by_cases hkey : key = other
        · subst hkey
          rw [if_pos rfl] at hget
          rw [Memory.live?, store, Memory.after, hget]
          exact filter_held?_write hpast hle hl
        · rw [if_neg hkey] at hget
          refine hsame hget ?_
          simp [held?, written?, lastRead?, Ne.symm hkey]
      · obtain ⟨fault, hfault⟩ : ∃ fault, (store past).write time other value l =
            (.error fault, store past) := Memory.write_of_not_check hl other value
        refine hsame ?_ ?_
        · rw [store, Memory.after, hfault]
        · simp [held?, written?, lastRead?, hl]
    | read other =>
      have hget : ((store past).read time other).2.get? key = _ := Memory.get?_read other key
      by_cases hkey : key = other
      · subst hkey
        rw [if_pos rfl, ih hpast] at hget
        rw [Memory.live?, store, Memory.after, hget]
        exact filter_held?_read hpast hle
      · rw [if_neg hkey] at hget
        refine hsame hget ?_
        simp [held?, written?, lastRead?, Ne.symm hkey]
    | remove other =>
      have hget := (store past).get?_erase other key
      by_cases hkey : key = other
      · subst hkey
        rw [if_pos rfl] at hget
        rw [Memory.live?, store, Memory.after, hget]
        simp [held?, written?]
      · rw [if_neg hkey] at hget
        refine hsame hget ?_
        simp [held?, written?, lastRead?, Ne.symm hkey]
    | purge =>
      rw [Memory.live?, store, Memory.after, Memory.get?_purge, Memory.filter_live? hle]
      exact ih (LeadsTo.mono hpast hle)
    | clear => rfl
    | contains other => exact hsame rfl rfl
    | size => exact hsame rfl rfl

/-- What the store answers is what the past says. -/
lemma value?_eq (h : past.LeadsTo now) (key : String) :
    past.value? now key = (past.store.live? now key).map Held.value := by
  rw [live?_store h, held?, value?]
  cases hw : past.written? key with
  | none => rfl
  | some w =>
    have hended : (w.held (past.lastRead? key)).hasEnded now = _ :=
      Written.hasEnded_held (time_le_of_written? h hw)
    cases hreadable : w.isReadable (past.lastRead? key) now <;>
      simp [Option.filter, hended, hreadable]

/-- Deeds that only look or clear away what has ended make no difference to a past. -/
lemma value?_actions (now : Instant) (key : String) :
    past.actions.value? now key = past.value? now key := by
  have hsame : past.actions.written? key = past.written? key ∧
      past.actions.lastRead? key = past.lastRead? key := by
    induction past with
    | nil => exact ⟨rfl, rfl⟩
    | cons p past ih =>
      obtain ⟨time, deed⟩ := p
      obtain ⟨hwritten, hread⟩ := ih
      cases deed <;>
        simp_all [actions, Memory.Deed.isPassive, written?, lastRead?]
  rw [value?, value?, hsame.1, hsame.2]

/-- What a store in memory answers follows from the past of each key, in which nothing goes
because it ended.  So it makes no difference when and how often one looked whether there is
something, or cleared away what has ended; and what is cleared away is what is kept and can no
longer be found. -/
theorem answers_eq_value (h : past.LeadsTo now) :
    (∀ key, (past.store.read now key).1 = past.value? now key ∧
      past.store.contains now key = (past.value? now key).isSome) ∧
    (∀ other : Past, other.LeadsTo now → other.actions = past.actions → ∀ key,
      (other.store.read now key).1 = (past.store.read now key).1 ∧
        other.store.contains now key = past.store.contains now key) ∧
    (past.store.purge now).1 =
      (past.store.keys.filter fun key => !past.store.contains now key).length := by
  have hanswers : ∀ {past : Past}, past.LeadsTo now → ∀ key,
      (past.store.read now key).1 = past.value? now key ∧
        past.store.contains now key = (past.value? now key).isSome := by
    intro past h key
    rw [value?_eq h, Memory.read_value, Memory.contains_eq_isSome, Option.isSome_map]
    exact ⟨rfl, rfl⟩
  refine ⟨hanswers h, fun other hother hactions key => ?_, ?_⟩
  · have hvalue : other.value? now key = past.value? now key := by
      rw [← value?_actions, hactions, value?_actions]
    rw [(hanswers hother key).1, (hanswers hother key).2, (hanswers h key).1, (hanswers h key).2,
      hvalue]
    exact ⟨rfl, rfl⟩
  · exact Memory.purge_eq_length _ now

end Past

namespace Demo

/-- So many minutes after the epoch. -/
def minute (n : UInt8) : Instant :=
  ⟨60 * n.toNat * 1000000000, by have := n.toNat_lt; omega⟩

/-- An hour. -/
def hour : Span := ⟨3600 * nanosPerSecond, by decide⟩

/-- At the epoch two values are written, one with a window of an hour and one that ends after
an hour, and the first one is read again after forty minutes. -/
def twoValues : Past :=
  [(minute 40, .read "first"), (minute 0, .write "second" "two" { absolute := some (minute 60) }),
    (minute 0, .write "first" "one" { sliding := some hour })]

/-- The same, but after an hour the store was cleared of what had ended. -/
def twoValuesPurged : Past := (minute 60, .purge) :: twoValues

/-- After eighty minutes the first value can still be read, the second one is there but cannot,
and if it had been cleared away before, the answers would be the same. -/
theorem answers_twoValues :
    twoValues.LeadsTo (minute 80) ∧ (twoValues.store.read (minute 80) "first").1 = some "one" ∧
      twoValues.store.contains (minute 80) "second" = false ∧
      (twoValuesPurged.store.read (minute 80) "first").1 = some "one" ∧
      (twoValues.store.purge (minute 80)).1 = 1 := by
  have hforward : twoValues.LeadsTo (minute 80) := by decide
  have hpurged : twoValuesPurged.LeadsTo (minute 80) := by decide
  obtain ⟨hanswers, hsame, hpurge⟩ := Past.answers_eq_value hforward
  refine ⟨hforward, ?_, ?_, ?_, ?_⟩
  · rw [(hanswers "first").1]
    decide +kernel
  · rw [(hanswers "second").2]
    decide +kernel
  · rw [(hsame twoValuesPurged hpurged rfl "first").1, (hanswers "first").1]
    decide +kernel
  · rw [hpurge]
    decide +kernel

end Demo

end RequestCache
