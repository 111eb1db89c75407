/-
# The laws of the store in memory

What can be seen of the store at an instant is the entry under each key that has not ended yet
(`Memory.live?`).  A read tells its value and renews it, and since the renewed entry ends no
earlier, reads never change which keys can be read at that instant (`contains_read`).  Changes of
several keys are described by what they leave under each key (`get?_puts`, `get?_deletes`); the
order in which they are made is lost, as it should be.
-/
import Mathlib.Tactic.Common
import Mathlib.Tactic.Lemma
import RequestCache.Effect
import RequestCache.Store.Memory

namespace RequestCache

namespace Lifetime

/-- Both parts of a lifetime that must not be empty are not empty. -/
lemma check_eq_ok_iff {l : Lifetime} :
    l.check = .ok () ↔ l.relative ≠ some Span.zero ∧ l.sliding ≠ some Span.zero := by
  unfold check
  split_ifs with hrelative hsliding <;> simp_all

lemma isEndless_iff {l : Lifetime} :
    l.isEndless = true ↔ l.absolute = none ∧ l.relative = none ∧ l.sliding = none := by
  simp [isEndless, and_assoc]

lemma check_of_isEndless {l : Lifetime} (hl : l.isEndless = true) : l.check = .ok () := by
  obtain ⟨-, hrelative, hsliding⟩ := isEndless_iff.1 hl
  rw [check_eq_ok_iff, hrelative, hsliding]
  exact ⟨nofun, nofun⟩

end Lifetime

/-- A period of an expiration is not empty. -/
def Expiration.HasPeriod : Expiration → Prop
  | .afterWrite d => 0 < d.nanos
  | .sliding d => 0 < d.nanos
  | _ => True

lemma Expiration.HasPeriod.check {x : Expiration} (h : x.HasPeriod) :
    x.lifetime.check = .ok () := by
  rw [Lifetime.check_eq_ok_iff]
  cases x with
  | never => simp [lifetime]
  | «at» end_ => simp [lifetime]
  | afterWrite d =>
    refine ⟨?_, by simp [lifetime]⟩
    rintro hzero
    rw [Option.some.inj hzero] at h
    exact absurd h (by simp [HasPeriod, Span.zero])
  | sliding d =>
    refine ⟨by simp [lifetime], ?_⟩
    rintro hzero
    rw [Option.some.inj hzero] at h
    exact absurd h (by simp [HasPeriod, Span.zero])

namespace Held

lemma hasEnded_touch {e : Held} {now : Instant} (h : e.hasEnded now = false) :
    (e.touch now).hasEnded now = false := by
  simp only [hasEnded, Bool.or_eq_false_iff] at h ⊢
  obtain ⟨hdeadline, hwindow⟩ := h
  cases hw : e.window with
  | none => simp [touch, hw, hdeadline]
  | some w =>
    have hpos : 0 < w.nanos := by
      simp only [hw, Option.any_some, decide_eq_false_iff_not] at hwindow
      omega
    simp [touch, hw, hdeadline, Instant.elapsedSince, Nat.ne_of_gt hpos]

@[simp] lemma value_touch (e : Held) (now : Instant) : (e.touch now).value = e.value := by
  unfold touch
  split <;> rfl

/-- An entry that has ended does not come back. -/
lemma hasEnded_mono {e : Held} {now later : Instant} (h : now ≤ later)
    (hended : e.hasEnded now = true) : e.hasEnded later = true := by
  simp only [hasEnded, Bool.or_eq_true, Option.any_eq_true] at hended ⊢
  rw [Instant.le_iff] at h
  rcases hended with ⟨d, hd, hle⟩ | ⟨w, hw, hle⟩
  · refine .inl ⟨d, hd, ?_⟩
    simp only [decide_eq_true_eq, Instant.le_iff] at hle ⊢
    omega
  · refine .inr ⟨w, hw, ?_⟩
    have hmore : now.elapsedSince e.lastAccess ≤ later.elapsedSince e.lastAccess := by
      unfold Instant.elapsedSince
      omega
    simp only [decide_eq_true_eq] at hle ⊢
    exact Nat.le_trans hle hmore

/-- The entry of a fresh write, unless its deadline has passed already. -/
def fresh? (now : Instant) (value : String) (l : Lifetime) : Option Held :=
  if (l.deadline now).any (fun d => d ≤ now) then none
  else some ⟨value, l.deadline now, l.sliding, now⟩

lemma value_of_fresh? {now : Instant} {value : String} {l : Lifetime} {e : Held}
    (h : fresh? now value l = some e) : e.value = value := by
  unfold fresh? at h
  split at h
  · cases h
  · cases h
    rfl

lemma fresh?_of_isEndless {l : Lifetime} (hl : l.isEndless = true) (now : Instant)
    (value : String) : fresh? now value l = some ⟨value, none, none, now⟩ := by
  obtain ⟨habsolute, hrelative, hsliding⟩ := Lifetime.isEndless_iff.1 hl
  simp [fresh?, Lifetime.deadline, habsolute, hrelative, hsliding]

end Held

namespace Memory

variable {m : Memory} {now : Instant}

/-- The entry under a key that has not ended. -/
def live? (m : Memory) (now : Instant) (key : String) : Option Held :=
  (m.get? key).filter fun e => !e.hasEnded now

lemma live?_eq_some_iff {key : String} {e : Held} :
    m.live? now key = some e ↔ m.get? key = some e ∧ e.hasEnded now = false := by
  simp [live?, Option.filter_eq_some_iff]

lemma contains_eq_isSome (key : String) : m.contains now key = (m.live? now key).isSome := by
  unfold contains live?
  cases m.get? key with
  | none => rfl
  | some e => cases h : e.hasEnded now <;> simp [h]

lemma contains_eq_true_iff {key : String} :
    m.contains now key = true ↔ ∃ e, m.get? key = some e ∧ e.hasEnded now = false := by
  simp [contains, Option.any_eq_true]

lemma live?_eq_none_iff {key : String} :
    m.live? now key = none ↔ m.contains now key = false := by
  rw [contains_eq_isSome]
  cases m.live? now key <;> simp

lemma contains_of_get?_eq_none {key : String} (h : m.get? key = none) :
    m.contains now key = false := by
  simp [contains, h]

/-- What can be read depends on what is kept alone. -/
lemma contains_congr {m' : Memory} {key : String} (h : m'.get? key = m.get? key) :
    m'.contains now key = m.contains now key := by
  rw [contains, contains, h]

/-- What can be read at an instant could be read before, if nothing was done. -/
lemma contains_of_le {later : Instant} {key : String} (hle : now ≤ later)
    (h : m.contains later key = true) : m.contains now key = true := by
  obtain ⟨e, hget, hended⟩ := contains_eq_true_iff.1 h
  refine contains_eq_true_iff.2 ⟨e, hget, ?_⟩
  by_contra hnot
  rw [Bool.not_eq_false] at hnot
  rw [Held.hasEnded_mono hle hnot] at hended
  cases hended

/-! ## Reads -/

lemma read_value (key : String) : (m.read now key).1 = (m.live? now key).map Held.value := by
  unfold read live?
  cases m.get? key with
  | none => rfl
  | some e => cases h : e.hasEnded now <;> simp [Option.filter, h]

/-- A read removes the entry if it has ended and renews it otherwise; the others stay. -/
lemma get?_read (key other : String) :
    (m.read now key).2.get? other =
      if other = key then (m.live? now key).map (·.touch now) else m.get? other := by
  unfold read live?
  cases hm : m.get? key with
  | none =>
    split_ifs with h
    · simp [h, hm]
    · rfl
  | some e => cases h : e.hasEnded now <;> simp [Option.filter, h, Table.get?_erase,
      Table.get?_insert]

/-- A text that is kept after a read was kept before. -/
lemma exists_get?_of_get?_read {key other : String} {e : Held}
    (h : (m.read now key).2.get? other = some e) :
    ∃ e', m.get? other = some e' ∧ e'.value = e.value := by
  rw [get?_read] at h
  split_ifs at h with hkey
  · subst hkey
    obtain ⟨e', he', rfl⟩ := Option.map_eq_some_iff.1 h
    exact ⟨e', (live?_eq_some_iff.1 he').1, by simp⟩
  · exact ⟨e, h, rfl⟩

/-- A read does not change what can be read at its instant. -/
theorem contains_read (key other : String) :
    (m.read now key).2.contains now other = m.contains now other := by
  rw [contains_eq_isSome (m := m), contains, get?_read]
  split_ifs with h
  · subst h
    cases hlive : m.live? now other with
    | none => rfl
    | some e => simp [Held.hasEnded_touch (live?_eq_some_iff.1 hlive).2]
  · rw [← contains_eq_isSome]
    rfl

/-! ## Changes -/

/-- Makes a change at an instant. -/
def change (m : Memory) (now : Instant) : Change → ChangeOutcome × Memory
  | .put key text lifetime => m.write now key text lifetime
  | .delete key => (.ok (), m.erase key)

/-- Makes changes at an instant, one after the other. -/
def changes (m : Memory) (now : Instant) : List Change → List ChangeOutcome × Memory
  | [] => ([], m)
  | c :: cs =>
    let (outcome, m) := m.change now c
    let (outcomes, m) := changes m now cs
    (outcome :: outcomes, m)

lemma length_changes (cs : List Change) : (m.changes now cs).1.length = cs.length := by
  induction cs generalizing m with
  | nil => rfl
  | cons c cs ih => simp only [changes, List.length_cons, ih]

lemma write_of_check {l : Lifetime} (hl : l.check = .ok ()) (key text : String) :
    (m.write now key text l).1 = .ok () := by
  unfold write
  rw [hl]
  dsimp only
  split <;> rfl

/-- A write leaves the fresh entry under its key, or none. -/
lemma get?_write {l : Lifetime} (hl : l.check = .ok ()) (key text other : String) :
    (m.write now key text l).2.get? other =
      if other = key then Held.fresh? now text l else m.get? other := by
  unfold write Held.fresh?
  rw [hl]
  dsimp only
  split_ifs with hdeadline hother hother
  · rw [Table.get?_erase, if_pos hother]
  · rw [Table.get?_erase, if_neg hother]
  · rw [Table.get?_insert, if_pos hother]
  · rw [Table.get?_insert, if_neg hother]

lemma write_of_not_check {l : Lifetime} (hl : l.check ≠ .ok ()) (key text : String) :
    ∃ fault, m.write now key text l = (.error fault, m) := by
  unfold write
  cases hcheck : l.check with
  | error fault => exact ⟨fault, rfl⟩
  | ok u => exact absurd hcheck hl

/-- A change is about its key alone. -/
lemma get?_change_of_ne {c : Change} {other : String} (h : other ≠ c.key) :
    (m.change now c).2.get? other = m.get? other := by
  cases c with
  | put key text l =>
    by_cases hl : l.check = .ok ()
    · exact (get?_write hl key text other).trans (if_neg h)
    · obtain ⟨fault, hfault⟩ : ∃ fault, m.write now key text l = (.error fault, m) :=
        write_of_not_check hl key text
      rw [change, hfault]
  | delete key => exact (m.get?_erase key other).trans (if_neg h)

/-- A text that is kept after a change was kept before, or the change has put it there. -/
lemma exists_get?_of_get?_change {c : Change} {key : String} {e : Held}
    (h : (m.change now c).2.get? key = some e) :
    m.get? key = some e ∨ ∃ l, c = .put key e.value l := by
  by_cases hkey : key = c.key
  · subst hkey
    cases c with
    | put key text l =>
      change (m.write now key text l).2.get? key = some e at h
      by_cases hl : l.check = .ok ()
      · rw [get?_write hl, if_pos rfl] at h
        rw [← Held.value_of_fresh? h]
        exact .inr ⟨l, rfl⟩
      · obtain ⟨fault, hfault⟩ : ∃ fault, m.write now key text l = (.error fault, m) :=
          write_of_not_check hl key text
        rw [hfault] at h
        exact .inl h
    | delete key =>
      change (m.erase key).get? key = some e at h
      rw [Table.get?_erase, if_pos rfl] at h
      cases h
  · rw [get?_change_of_ne hkey] at h
    exact .inl h

/-- Clearing away keeps what has not ended. -/
lemma get?_purge (key : String) : (m.purge now).2.get? key = m.live? now key :=
  m.get?_filter _ key

lemma changes_puts_outcomes {l : Lifetime} (hl : l.check = .ok ()) (text : String)
    (keys : List String) :
    (m.changes now (keys.map (.put · text l))).1 = keys.map fun _ => .ok () := by
  induction keys generalizing m with
  | nil => rfl
  | cons key keys ih => simp only [List.map_cons, changes, change, write_of_check hl, ih]

/-- Writes leave the fresh entry under all of their keys. -/
lemma get?_puts {l : Lifetime} (hl : l.check = .ok ()) (text : String) (keys : List String)
    (other : String) :
    (m.changes now (keys.map (.put · text l))).2.get? other =
      if other ∈ keys then Held.fresh? now text l else m.get? other := by
  induction keys generalizing m with
  | nil => rfl
  | cons key keys ih =>
    simp only [List.map_cons, changes, change, ih, get?_write hl, List.mem_cons]
    by_cases hkeys : other ∈ keys
    · simp [hkeys]
    · simp [hkeys]

/-- A write with a lifetime that is refused changes nothing. -/
lemma changes_puts_of_not_check {l : Lifetime} (hl : l.check ≠ .ok ()) (text : String)
    (keys : List String) : (m.changes now (keys.map (.put · text l))).2 = m := by
  induction keys with
  | nil => rfl
  | cons key keys ih =>
    obtain ⟨fault, hfault⟩ : ∃ fault, m.write now key text l = (.error fault, m) :=
      write_of_not_check hl key text
    simp only [List.map_cons, changes, change, hfault, ih]

lemma exists_error_of_not_check {l : Lifetime} (hl : l.check ≠ .ok ()) (text : String)
    {keys : List String} (hkeys : keys ≠ []) :
    ∃ fault, .error fault ∈ (m.changes now (keys.map (.put · text l))).1 := by
  cases keys with
  | nil => exact absurd rfl hkeys
  | cons key keys =>
    obtain ⟨fault, hfault⟩ : ∃ fault, m.write now key text l = (.error fault, m) :=
      write_of_not_check hl key text
    exact ⟨fault, by simp [changes, change, hfault]⟩

lemma changes_deletes_outcomes (keys : List String) :
    (m.changes now (keys.map .delete)).1 = keys.map fun _ => .ok () := by
  induction keys generalizing m with
  | nil => rfl
  | cons key keys ih => simp only [List.map_cons, changes, change, ih]

/-- Removals leave nothing under their keys. -/
lemma get?_deletes (keys : List String) (other : String) :
    (m.changes now (keys.map .delete)).2.get? other =
      if other ∈ keys then none else m.get? other := by
  induction keys generalizing m with
  | nil => rfl
  | cons key keys ih =>
    simp only [List.map_cons, changes, change, ih, Table.get?_erase, List.mem_cons]
    by_cases hkeys : other ∈ keys
    · simp [hkeys]
    · simp [hkeys]

end Memory

end RequestCache
