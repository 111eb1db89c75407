/-
# Removal through any one key

An entry lies under several keys, each of which lists them all, so that a removal that finds the
entry under one of them reaches the others.  It has to find it, though: every key ends on its
own, and of a sliding expiration a key that nobody reads ends although another key of the same
entry is read and lives on.  A removal through the key that ended finds nothing, reports nothing,
and the entry stays.

While one entry is kept for one request, `Kept` holds: as long as the key that the request is
looked up under can be read, each other key can be read for as long as if nothing had happened to
it since the write.  So it is known which keys can be read (`Kept.contains_iff`), and with that
which removals find the entry (`contains_foldl_remove`).
-/
import RequestCache.Proofs.Calm

namespace RequestCache

/-! ## Entries that are whole -/

namespace Memory

/-- No entry under another key, of those that are named, lists one of the keys. -/
def Apart (m : Memory) (keys : List String) (named : Key → Prop) : Prop :=
  ∀ key : Key, named key → key.text ∉ keys → ∀ e, m.get? key.text = some e → ∀ listed,
    Bundle.decodeKeys? e.value = some listed → ∀ y ∈ listed, y ∉ keys

/-- What lies under the keys is one text, and no entry under another key, of those that are named,
lists one of them. -/
structure Whole (m : Memory) (keys : List String) (text : String) (named : Key → Prop) :
    Prop where
  inside : ∀ x ∈ keys, ∀ e, m.get? x = some e → e.value = text
  apart : m.Apart keys named

/-- A memory that keeps no other texts than a whole one is whole. -/
lemma Whole.of_values {m m' : Memory} {keys : List String} {text : String} {named : Key → Prop}
    (h : m.Whole keys text named)
    (hvalues : ∀ x e, m'.get? x = some e → ∃ e', m.get? x = some e' ∧ e'.value = e.value) :
    m'.Whole keys text named where
  inside x hx e he := by
    obtain ⟨e', he', hvalue⟩ := hvalues x e he
    rw [← hvalue]
    exact h.inside x hx e' he'
  apart key hnamed hkey e he listed hlisted := by
    obtain ⟨e', he', hvalue⟩ := hvalues key.text e he
    exact h.apart key hnamed hkey e' he' listed (hvalue ▸ hlisted)

end Memory

variable {C : Catalogue} {α : Type}

namespace Scene

variable {s : Scene C} {keys : List String} {text : String} {named : Key → Prop}

lemma whole_read (h : s.memory.Whole keys text named) (key : Key) :
    (s.read key).memory.Whole keys text named :=
  h.of_values fun _ _ => Memory.exists_get?_of_get?_read

lemma contains_read (key : Key) (x : String) :
    (s.read key).memory.contains s.clock x = s.memory.contains s.clock x :=
  Memory.contains_read key.text x

/-- After a removal a key holds what it held after the read that the removal begins with, or
nothing. -/
lemma get?_remove (key : Key) (x : String) :
    (s.remove key).memory.get? x =
      if x ∈ s.doomed key then none else (s.read key).memory.get? x :=
  get?_delete (s.read key) (s.doomed key) x

lemma whole_remove (h : s.memory.Whole keys text named) (key : Key) :
    (s.remove key).memory.Whole keys text named := by
  refine (whole_read h key).of_values fun x e he => ?_
  rw [get?_remove] at he
  split_ifs at he
  exact ⟨e, he, rfl⟩

lemma mem_doomed {key : Key} {x : String} (hx : x ∈ s.doomed key) :
    x = key.text ∨ ∃ e, s.memory.get? key.text = some e ∧
      ∃ listed, Bundle.decodeKeys? e.value = some listed ∧ x ∈ listed := by
  unfold doomed at hx
  cases hcontent : s.content key with
  | none => simp [hcontent] at hx
  | some content =>
    obtain ⟨e, hlive, hvalue, -⟩ := content_eq_some_iff.1 hcontent
    have hget := (Memory.live?_eq_some_iff.1 hlive).1
    cases hlisted : Bundle.decodeKeys? content with
    | none =>
      simp only [hcontent, hlisted, List.mem_singleton] at hx
      exact .inl hx
    | some listed =>
      simp only [hcontent, hlisted, Entry.doomed] at hx
      have hmem : x ∈ listed ∨ x = key.text := by
        split_ifs at hx with hkey
        · exact .inl hx
        · simpa using hx
      rcases hmem with hmem | hmem
      · exact .inr ⟨e, hget, listed, hvalue ▸ hlisted, hmem⟩
      · exact .inl hmem

/-- Through a key that can be read and holds the text of an entry, all keys of the entry go. -/
lemma doomed_of_contains {c : Json.Codec α} {value : α}
    (htext : Bundle.encode c ⟨value, keys⟩ = .ok text) {key : Key} (hkey : key.text ∈ keys)
    (hvalue : ∀ e, s.memory.get? key.text = some e → e.value = text)
    (hcontains : s.memory.contains s.clock key.text = true) : s.doomed key = keys := by
  obtain ⟨e, hget, hended⟩ := Memory.contains_eq_true_iff.1 hcontains
  have hlive := Memory.live?_eq_some_iff.2 ⟨hget, hended⟩
  have hbundle := hvalue e hget ▸ htext
  rw [doomed, content_of_live hlive hbundle]
  simp [Bundle.decodeKeys?_encode hbundle, Entry.doomed, hkey]

/-- A removal through a key of a whole entry that can be read there takes all of its keys. -/
lemma get?_remove_of_contains (h : s.memory.Whole keys text named) {c : Json.Codec α} {value : α}
    (htext : Bundle.encode c ⟨value, keys⟩ = .ok text) {key : Key} (hkey : key.text ∈ keys)
    (hcontains : s.memory.contains s.clock key.text = true) :
    ∀ x ∈ keys, (s.remove key).memory.get? x = none := by
  intro x hx
  rw [get?_remove, doomed_of_contains htext hkey (h.inside key.text hkey) hcontains, if_pos hx]

lemma doomed_of_not_contains {key : Key} (h : s.memory.contains s.clock key.text = false) :
    s.doomed key = [] := by
  rw [doomed, content_of_not_live (Memory.live?_eq_none_iff.2 h)]

/-- Any other removal leaves the keys of a whole entry as they were, apart from one that has
ended and is read. -/
lemma get?_remove_of_not_contains (h : s.memory.Whole keys text named) {key : Key}
    (hnamed : named key)
    (hkey : ¬ (key.text ∈ keys ∧ s.memory.contains s.clock key.text = true)) {x : String}
    (hx : x ∈ keys) :
    (s.remove key).memory.get? x = s.memory.get? x ∨
      s.memory.contains s.clock x = false ∧ (s.remove key).memory.get? x = none := by
  rw [not_and, Bool.not_eq_true] at hkey
  by_cases hxkey : x = key.text
  · subst hxkey
    refine .inr ⟨hkey hx, ?_⟩
    rw [get?_remove, doomed_of_not_contains (hkey hx), get?_read, if_pos rfl,
      Memory.live?_eq_none_iff.2 (hkey hx)]
    simp
  · left
    have hdoomed : x ∉ s.doomed key := by
      intro hmem
      by_cases hin : key.text ∈ keys
      · rw [doomed_of_not_contains (hkey hin)] at hmem
        cases hmem
      · rcases mem_doomed hmem with heq | ⟨e, hget, listed, hlisted, hxl⟩
        · exact hxkey heq
        · exact h.apart key hnamed hin e hget listed hlisted x hxl hx
    rw [get?_remove, if_neg hdoomed, get?_read, if_neg hxkey]

/-! ## Evictions, one after the other -/

lemma clock_foldl_remove (removed : List Key) : (removed.foldl remove s).clock = s.clock := by
  induction removed generalizing s with
  | nil => rfl
  | cons key removed ih => exact ih

lemma handled_foldl_remove (removed : List Key) :
    (removed.foldl remove s).handled = s.handled := by
  induction removed generalizing s with
  | nil => rfl
  | cons key removed ih => exact ih

lemma whole_foldl_remove (h : s.memory.Whole keys text named) (removed : List Key) :
    (removed.foldl remove s).memory.Whole keys text named := by
  induction removed generalizing s with
  | nil => exact h
  | cons key removed ih => exact ih (whole_remove h key)

/-- A key that holds nothing holds nothing after removals. -/
lemma get?_foldl_remove_of_none {x : String} (h : s.memory.get? x = none) (removed : List Key) :
    (removed.foldl remove s).memory.get? x = none := by
  induction removed generalizing s with
  | nil => exact h
  | cons key removed ih =>
    refine ih ?_
    rw [get?_remove, get?_read]
    split_ifs with _ hkey
    · rfl
    · subst hkey
      simp [Memory.live?, h]
    · exact h

/-- One of the removals finds the entry that is under the keys. -/
def Finds (s : Scene C) (keys : List String) (removed : List Key) : Prop :=
  ∃ key ∈ removed, key.text ∈ keys ∧ s.memory.contains s.clock key.text = true

/-- If none of the removals finds the entry, its keys are left as they were, apart from those
that have ended. -/
lemma get?_foldl_remove_of_not_finds (h : s.memory.Whole keys text named) {removed : List Key}
    (hnamed : ∀ key ∈ removed, named key) (hfinds : ¬ s.Finds keys removed) {x : String}
    (hx : x ∈ keys) :
    (removed.foldl remove s).memory.get? x = s.memory.get? x ∨
      s.memory.contains s.clock x = false ∧ (removed.foldl remove s).memory.get? x = none := by
  induction removed generalizing s with
  | nil => exact .inl rfl
  | cons key removed ih =>
    have hkey : ¬ (key.text ∈ keys ∧ s.memory.contains s.clock key.text = true) := fun hkey =>
      hfinds ⟨key, by simp, hkey⟩
    have hsame : ∀ y ∈ keys,
        (s.remove key).memory.contains s.clock y = s.memory.contains s.clock y := by
      intro y hy
      rcases get?_remove_of_not_contains h (hnamed key (by simp)) hkey hy with
        heq | ⟨hnot, hnone⟩
      · exact Memory.contains_congr heq
      · rw [hnot, Memory.contains_of_get?_eq_none hnone]
    have hrest : ¬ (s.remove key).Finds keys removed := by
      rintro ⟨other, hother, hin, hcontains⟩
      exact hfinds ⟨other, by simp [hother], hin, (hsame _ hin).symm.trans hcontains⟩
    have hothers : ∀ other ∈ removed, named other := fun other hother =>
      hnamed other (by simp [hother])
    rcases get?_remove_of_not_contains h (hnamed key (by simp)) hkey hx with heq | ⟨hnot, hnone⟩
    · rcases ih (whole_remove h key) hothers hrest with heq' | ⟨hnot', hnone'⟩
      · exact .inl (heq'.trans heq)
      · exact .inr ⟨(hsame x hx).symm.trans hnot', hnone'⟩
    · exact .inr ⟨hnot, get?_foldl_remove_of_none hnone removed⟩

/-- If one of the removals finds the entry, nothing of it is left. -/
lemma get?_foldl_remove_of_finds (h : s.memory.Whole keys text named) {c : Json.Codec α} {value : α}
    (htext : Bundle.encode c ⟨value, keys⟩ = .ok text) {removed : List Key}
    (hnamed : ∀ key ∈ removed, named key) (hfinds : s.Finds keys removed) {x : String}
    (hx : x ∈ keys) :
    (removed.foldl remove s).memory.get? x = none := by
  induction removed generalizing s with
  | nil =>
    obtain ⟨key, hkey, -⟩ := hfinds
    cases hkey
  | cons key removed ih =>
    by_cases hkey : key.text ∈ keys ∧ s.memory.contains s.clock key.text = true
    · exact get?_foldl_remove_of_none (get?_remove_of_contains h htext hkey.1 hkey.2 x hx) removed
    · obtain ⟨other, hother, hin, hcontains⟩ := hfinds
      have hmem : other ∈ removed := by
        rcases List.mem_cons.1 hother with rfl | hmem
        · exact absurd ⟨hin, hcontains⟩ hkey
        · exact hmem
      refine ih (whole_remove h key) (fun other hother => hnamed other (by simp [hother]))
        ⟨other, hmem, hin, ?_⟩
      rw [← hcontains]
      rcases get?_remove_of_not_contains h (hnamed key (by simp)) hkey hin with heq | ⟨hnot, -⟩
      · exact Memory.contains_congr heq
      · rw [hnot] at hcontains
        cases hcontains

/-- After removals an entry can be read under none of its keys if one of them finds it, and where
it could be read before if none does. -/
theorem contains_foldl_remove (h : s.memory.Whole keys text named) {c : Json.Codec α} {value : α}
    (htext : Bundle.encode c ⟨value, keys⟩ = .ok text) {removed : List Key}
    (hnamed : ∀ key ∈ removed, named key) {x : String} (hx : x ∈ keys) :
    (removed.foldl remove s).memory.contains s.clock x = true ↔
      ¬ s.Finds keys removed ∧ s.memory.contains s.clock x = true := by
  by_cases hfinds : s.Finds keys removed
  · have hnone := get?_foldl_remove_of_finds h htext hnamed hfinds hx
    simp [hfinds, Memory.contains_of_get?_eq_none hnone]
  · rcases get?_foldl_remove_of_not_finds h hnamed hfinds hx with heq | ⟨hnot, hnone⟩
    · simp [hfinds, Memory.contains_congr heq]
    · simp [hnot, Memory.contains_of_get?_eq_none hnone]

/-! ## What is left of an entry that is kept -/

section

variable {k : C.Kind} {p : Plan C k} {request : C.Request k} {written : Instant}

/-- An entry was written at an instant and has not been written since.  Under the key that its
request is looked up under lies what was written, perhaps renewed; as long as that can be read,
each other key can be read for as long as if nothing had happened to it since the write. -/
structure Kept (p : Plan C k) (request : C.Request k) (keys : List String) (text : String)
    (named : Key → Prop) (written : Instant) (s : Scene C) : Prop where
  since : written ≤ s.clock
  whole : s.memory.Whole keys text named
  owned : ∀ e, s.memory.get? (p.lookupKey request).text = some e →
    e.deadline = p.expiration.lifetime.deadline written ∧
      e.window = p.expiration.lifetime.sliding
  siblings : s.memory.contains s.clock (p.lookupKey request).text = true →
    ∀ x ∈ keys, x ≠ (p.lookupKey request).text → ∀ now, s.clock ≤ now →
      s.memory.contains now x =
        (Held.fresh? written text p.expiration.lifetime).any fun e => !e.hasEnded now

lemma Kept.atTime (h : Kept p request keys text named written s) {now : Instant}
    (hnow : s.clock ≤ now) :
    Kept p request keys text named written (s.atTime now) where
  since := Int.le_trans h.since hnow
  whole := h.whole
  owned := h.owned
  siblings hcontains x hx hne later hlater := by
    have hbefore := Memory.contains_of_le hnow hcontains
    exact h.siblings hbefore x hx hne later (Int.le_trans hnow hlater)

lemma Kept.read (h : Kept p request keys text named written s) :
    Kept p request keys text named written (s.read (p.lookupKey request)) where
  since := h.since
  whole := whole_read h.whole _
  owned e he := by
    rw [get?_read, if_pos rfl] at he
    obtain ⟨e', hlive, rfl⟩ := Option.map_eq_some_iff.1 he
    have howned := h.owned e' (Memory.live?_eq_some_iff.1 hlive).1
    unfold Held.touch
    split <;> exact howned
  siblings hcontains x hx hne now hnow := by
    have hsame : (s.read (p.lookupKey request)).memory.get? x = s.memory.get? x := by
      rw [get?_read, if_neg hne]
    rw [Memory.contains_congr hsame]
    exact h.siblings ((contains_read _ _).symm.trans hcontains) x hx hne now hnow

lemma Kept.removals (h : Kept p request keys text named written s) {c : Json.Codec α} {value : α}
    (htext : Bundle.encode c ⟨value, keys⟩ = .ok text)
    (hlookup : (p.lookupKey request).text ∈ keys) {removed : List Key}
    (hnamed : ∀ key ∈ removed, named key) :
    Kept p request keys text named written (removed.foldl remove s) := by
  have hsince : written ≤ (removed.foldl remove s).clock := by
    rw [clock_foldl_remove]
    exact h.since
  by_cases hfinds : s.Finds keys removed
  · have hnone := get?_foldl_remove_of_finds h.whole htext hnamed hfinds hlookup
    refine ⟨hsince, whole_foldl_remove h.whole removed, ?_, ?_⟩
    · intro e he
      rw [hnone] at he
      cases he
    · intro hcontains
      rw [Memory.contains_of_get?_eq_none hnone] at hcontains
      cases hcontains
  · refine ⟨hsince, whole_foldl_remove h.whole removed, ?_, ?_⟩
    · intro e he
      rcases get?_foldl_remove_of_not_finds h.whole hnamed hfinds hlookup with heq | ⟨-, hnone⟩
      · exact h.owned e (heq.symm.trans he)
      · rw [hnone] at he
        cases he
    · intro hcontains x hx hne now hnow
      rw [clock_foldl_remove] at hcontains hnow
      have hbefore :=
        ((contains_foldl_remove h.whole htext hnamed hlookup).1 hcontains).2
      have hsiblings := h.siblings hbefore x hx hne
      rcases get?_foldl_remove_of_not_finds h.whole hnamed hfinds hx with heq | ⟨hnot, hnone⟩
      · rw [Memory.contains_congr heq]
        exact hsiblings now hnow
      · -- the key has ended, so what was written there has ended for good
        rw [Memory.contains_of_get?_eq_none hnone]
        rw [hsiblings s.clock (Int.le_refl _)] at hnot
        cases hfresh : Held.fresh? written text p.expiration.lifetime with
        | none => rfl
        | some e =>
          simp only [hfresh, Option.any_some, Bool.not_eq_false'] at hnot
          simp [Held.hasEnded_mono hnow hnot]

/-- Which keys of a kept entry can be read while the looked-up one can: all of them, unless the
expiration is sliding and the time since the write exceeds its window; then only that one. -/
theorem Kept.contains_iff (h : Kept p request keys text named written s)
    (hlookup : s.memory.contains s.clock (p.lookupKey request).text = true) {x : String}
    (hx : x ∈ keys) :
    s.memory.contains s.clock x = true ↔
      x = (p.lookupKey request).text ∨
        ∀ w, p.expiration = .sliding w → s.clock.elapsedSince written < w.nanos := by
  by_cases hne : x = (p.lookupKey request).text
  · subst hne
    simp [hlookup]
  rw [h.siblings hlookup x hx hne s.clock (Int.le_refl _)]
  obtain ⟨e, hget, hended⟩ := Memory.contains_eq_true_iff.1 hlookup
  obtain ⟨hdeadline, -⟩ := h.owned e hget
  have hlives : ∀ d, p.expiration.lifetime.deadline written = some d → ¬ d ≤ s.clock := by
    intro d hd hle
    rw [Held.hasEnded, hdeadline, hd] at hended
    simp [hle] at hended
  have hfresh : Held.fresh? written text p.expiration.lifetime =
      some ⟨text, p.expiration.lifetime.deadline written, p.expiration.lifetime.sliding,
        written⟩ := by
    refine if_neg fun hany => ?_
    obtain ⟨d, hd, hle⟩ := (Option.any_eq_true _ _).1 hany
    exact hlives d hd (Int.le_trans (of_decide_eq_true hle) h.since)
  have hdead : (p.expiration.lifetime.deadline written).any (fun d => d ≤ s.clock) = false := by
    rw [Option.any_eq_false]
    intro d hd
    simpa using hlives d hd
  rw [hfresh, Option.any_some, Held.hasEnded, hdead]
  cases hx : p.expiration <;> simp [hne, Expiration.lifetime]

end

end Scene

end RequestCache
