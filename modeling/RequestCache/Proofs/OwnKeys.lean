/-
# Every entry lists its own key

Writes, look-ups and removals of entries are on their way at the same time, over a store that is
empty at first.  Their keys may overlap in any way, calls to the store may fail, operations may be
cancelled, the clock may be set, and what has ended may be cleared away, all at any point.  So the
keys of one entry may well hold the texts of different writes.

But each key holds the text of one write as it was written, namely of the write that took effect
there last, and whoever writes a text under a key lists the key in it, once
(`Chronicle.Reachable.own_keys`).  That is all a removal relies on: it always finds keys listed,
its own key is among them, and none of them is removed twice.

To say which write came last, the changes that take effect are recorded as they are made
(`Chronicle`).  Nothing depends on the record (`Chronicle.exists_reachable_iff`).
-/
import RequestCache.Proofs.Cancellation
import RequestCache.Proofs.Overlap

namespace RequestCache

variable {C : Catalogue} {W : Interface} {α : Type}

/-! ## Changes that take effect -/

/-- What takes effect when a change is made.  A write whose lifetime is refused does not. -/
def Change.effect : Change → Option Change
  | .put x text l =>
    match l.check with
    | .ok () => some (.put x text l)
    | .error _ => none
  | .delete x => some (.delete x)

lemma Change.effect_put_of_ok {l : Lifetime} (hl : l.check = .ok ()) (x text : String) :
    (put x text l).effect = some (put x text l) := by rw [effect, hl]

lemma Change.effect_put_of_error {l : Lifetime} {fault : StoreFault} (hl : l.check = .error fault)
    (x text : String) : (put x text l).effect = none := by rw [effect, hl]

lemma Change.eq_of_effect_eq_some {c c' : Change} (h : c.effect = some c') : c' = c := by
  cases c with
  | put x text l =>
    cases hl : l.check with
    | ok u =>
      rw [effect_put_of_ok hl] at h
      exact (Option.some.inj h).symm
    | error fault =>
      rw [effect_put_of_error hl] at h
      cases h
  | delete x => exact (Option.some.inj h).symm

/-- What a key holds after something may have taken effect, it held before, unless it was
written. -/
def Carries (m : Memory) (effect : Option Change) (m' : Memory) : Prop :=
  ∀ x e', m'.get? x = some e' →
    (∃ e, m.get? x = some e ∧ e.value = e'.value ∧ ∀ c, effect = some c → c.key ≠ x) ∨
      ∃ l, effect = some (.put x e'.value l)

lemma carries_refl (m : Memory) : Carries m none m := by
  intro x e' he'
  refine .inl ⟨e', he', rfl, ?_⟩
  rintro c ⟨⟩

lemma carries_change (m : Memory) (now : Instant) (c : Change) :
    Carries m c.effect (m.change now c).2 := by
  intro x e' he'
  cases c with
  | put key text l =>
    change (m.write now key text l).2.get? x = some e' at he'
    cases hl : l.check with
    | error fault =>
      have hwrite : (m.write now key text l).2 = m := by rw [Memory.write, hl]
      rw [hwrite] at he'
      rw [Change.effect_put_of_error hl]
      exact carries_refl m x e' he'
    | ok u =>
      rw [Change.effect_put_of_ok hl]
      rw [Memory.get?_write hl] at he'
      split_ifs at he' with hx
      · subst hx
        rw [Held.value_of_fresh? he']
        exact .inr ⟨l, rfl⟩
      · refine .inl ⟨e', he', rfl, ?_⟩
        rintro c ⟨⟩
        exact Ne.symm hx
  | delete key =>
    change (m.erase key).get? x = some e' at he'
    rw [Table.get?_erase] at he'
    split_ifs at he' with hx
    refine .inl ⟨e', he', rfl, ?_⟩
    rintro c ⟨⟩
    exact Ne.symm hx

/-! ## Steps with what takes effect -/

/-- A step of an operation, and the change that takes effect by it, if one does. -/
inductive Advance (cancelled : Bool) :
    Commons C → Course C α → Option Change → Commons C → Course C α → Prop
  /-- An effect that is no change is answered. -/
  | ask {c : Commons C} {e : Effect (handlings C)} {x : e.Answer} {m : Memory}
      {next : e.Answer → Action (handlings C) α} (h : Answers cancelled c e x m) :
    Advance cancelled c (.running (.ask e next)) none { c with memory := m } (.running (next x))
  /-- Changes begin, all of them at once. -/
  | begin {c : Commons C} {cs : List Change}
      {next : Option (List ChangeOutcome) → Action (handlings C) α} :
    Advance cancelled c (.running (.ask (.apply cs) next)) none c
      (.changing (cs.map .begun) next)
  /-- One of the changes is made. -/
  | land {c : Commons C} {flights : List Flight} {j : ℕ} {change : Change}
      {next : Option (List ChangeOutcome) → Action (handlings C) α}
      (h : flights[j]? = some (.begun change)) :
    Advance cancelled c (.changing flights next) change.effect
      { c with memory := (c.memory.change c.clock change).2 }
      (.changing (flights.set j ⟨change, some (c.memory.change c.clock change).1⟩) next)
  /-- One of the changes fails without being made. -/
  | lost {c : Commons C} {flights : List Flight} {j : ℕ} {change : Change}
      {next : Option (List ChangeOutcome) → Action (handlings C) α}
      (h : flights[j]? = some (.begun change)) (fault : StoreFault) :
    Advance cancelled c (.changing flights next) none c
      (.changing (flights.set j ⟨change, some (.error fault)⟩) next)
  /-- One of the changes fails although it is made. -/
  | failed {c : Commons C} {flights : List Flight} {j : ℕ} {change : Change}
      {next : Option (List ChangeOutcome) → Action (handlings C) α}
      (h : flights[j]? = some (.begun change)) (fault : StoreFault) :
    Advance cancelled c (.changing flights next) change.effect
      { c with memory := (c.memory.change c.clock change).2 }
      (.changing (flights.set j ⟨change, some (.error fault)⟩) next)
  /-- All changes have an outcome. -/
  | finish {c : Commons C} {flights : List Flight} {outcomes : List ChangeOutcome}
      {next : Option (List ChangeOutcome) → Action (handlings C) α}
      (h : flights.map Flight.outcome = outcomes.map some) :
    Advance cancelled c (.changing flights next) none c (.running (next (some outcomes)))
  /-- The operation was cancelled and waits no longer. -/
  | cut {c : Commons C} {flights : List Flight}
      {next : Option (List ChangeOutcome) → Action (handlings C) α} (h : cancelled = true) :
    Advance cancelled c (.changing flights next) none c (.running (next none))

section

variable {cancelled : Bool} {c c' : Commons C} {course course' : Course C α}
  {effect : Option Change}

/-- The steps are those of an operation, no more and no fewer. -/
lemma exists_advance_iff :
    (∃ effect, Advance cancelled c course effect c' course') ↔
      Progress cancelled c course c' course' := by
  constructor
  · rintro ⟨effect, h⟩
    cases h with
    | ask h => exact .ask h
    | begin => exact .begin
    | land h => exact .land h
    | lost h fault => exact .fail h fault (.inl rfl)
    | failed h fault => exact .fail h fault (.inr rfl)
    | finish h => exact .finish h
    | cut h => exact .cut h
  · intro h
    cases h with
    | ask h => exact ⟨_, .ask h⟩
    | begin => exact ⟨_, .begin⟩
    | land h => exact ⟨_, .land h⟩
    | fail h fault hm =>
      rcases hm with rfl | rfl
      · exact ⟨_, .lost h fault⟩
      · exact ⟨_, .failed h fault⟩
    | finish h => exact ⟨_, .finish h⟩
    | cut h => exact ⟨_, .cut h⟩

/-- A step writes what takes effect by it and nothing else. -/
lemma Advance.carries (h : Advance cancelled c course effect c' course') :
    Carries c.memory effect c'.memory := by
  cases h with
  | ask h =>
    intro x e' he'
    cases h with
    | read key =>
      obtain ⟨e, he, hvalue⟩ := Memory.exists_get?_of_get?_read he'
      refine .inl ⟨e, he, hvalue, ?_⟩
      rintro c ⟨⟩
    | _ => exact carries_refl _ x e' he'
  | land h => exact carries_change _ _ _
  | failed h fault => exact carries_change _ _ _
  | _ => exact carries_refl _

end

/-! ## How far an operation has come -/

/-- How far changes of several keys have come. -/
inductive Fans (operation : String) (change : String → Change) (xs : List String) :
    Course C (Except CacheFault Unit) → Prop
  /-- They have not begun. -/
  | waiting : Fans operation change xs (.running (Entry.changeAll operation change xs))
  /-- They are on their way. -/
  | changing {flights : List Flight} (h : flights.map Flight.change = xs.map change) :
    Fans operation change xs (.changing flights (Entry.conclude operation xs))
  /-- They are over. -/
  | ended (outcome : Except CacheFault Unit) :
    Fans operation change xs (.running (.done outcome))

/-- A step of changes makes one of them, or none. -/
lemma Fans.advance {operation : String} {change : String → Change} {xs : List String}
    {cancelled : Bool} {c c' : Commons C} {course course' : Course C (Except CacheFault Unit)}
    {effect : Option Change} (h : Fans operation change xs course)
    (hadvance : Advance cancelled c course effect c' course') :
    Fans operation change xs course' ∧
      ∀ made, effect = some made → ∃ x ∈ xs, made = change x := by
  have hnone : ∀ made, (none : Option Change) = some made → ∃ x ∈ xs, made = change x := by
    rintro made ⟨⟩
  -- whatever becomes of one of the changes, it remains the same change
  have hset : ∀ {flights : List Flight} {j : ℕ} {begun : Change} (outcome : ChangeOutcome),
      flights.map Flight.change = xs.map change → flights[j]? = some (.begun begun) →
      (flights.set j ⟨begun, some outcome⟩).map Flight.change = xs.map change ∧
        ∀ made, begun.effect = some made → ∃ x ∈ xs, made = change x := by
    intro flights j begun outcome hchanges hj
    have hsame : (flights.map Flight.change)[j]? = some begun := by
      rw [List.getElem?_map, hj]
      rfl
    obtain ⟨hlt, hget⟩ := List.getElem?_eq_some_iff.1 hsame
    have hself := List.set_getElem_self hlt
    rw [hget] at hself
    refine ⟨by rw [List.map_set, hself, hchanges], fun made hmade => ?_⟩
    rw [hchanges] at hsame
    obtain ⟨x, hx, hchange⟩ := List.mem_map.1 (List.mem_of_getElem? hsame)
    exact ⟨x, hx, (Change.eq_of_effect_eq_some hmade).trans hchange.symm⟩
  cases h with
  | waiting =>
    rw [Entry.changeAll_eq] at hadvance
    cases hadvance with
    | ask h => cases h
    | begin => exact ⟨.changing (by simp [Flight.begun, Function.comp_def]), hnone⟩
  | changing hchanges =>
    cases hadvance with
    | land hj =>
      obtain ⟨hmap, hmade⟩ := hset _ hchanges hj
      exact ⟨.changing hmap, hmade⟩
    | lost hj fault => exact ⟨.changing (hset _ hchanges hj).1, hnone⟩
    | failed hj fault =>
      obtain ⟨hmap, hmade⟩ := hset _ hchanges hj
      exact ⟨.changing hmap, hmade⟩
    | finish houtcomes => exact ⟨.ended _, hnone⟩
    | cut hcut => exact ⟨.ended _, hnone⟩
  | ended outcome => cases hadvance

/-! ## What an operation may do -/

/-- Some distinct keys, one of them the given one, are listed in the text of some value. -/
structure Lists (C : Catalogue) (x : String) (listed : List String) (text : String) : Prop where
  encodes : ∃ (k : C.Kind) (value : C.Response k),
    Bundle.encode (C.codec k) ⟨value, listed⟩ = .ok text
  mem : x ∈ listed
  nodup : listed.Nodup

/-- What a removal reads lists its key, so it removes the keys that are listed and no others. -/
lemma Lists.removeContent_eq {key : Key} {listed : List String} {text : String}
    (h : Lists C key.text listed text) :
    isBlank text = false ∧ Bundle.decodeKeys? text = some listed ∧
      Entry.removeContent (W := W) key (some text) =
        Entry.changeAll "remove" .delete listed := by
  obtain ⟨⟨k, value, htext⟩, hmem, -⟩ := h
  have hdecode := Bundle.decodeKeys?_encode htext
  have hdoomed : Entry.doomed key listed = listed := by simp [Entry.doomed, hmem]
  refine ⟨Bundle.isBlank_encode htext, hdecode, ?_⟩
  rw [Entry.removeContent, hdecode]
  dsimp only
  rw [hdoomed]

namespace Entry

/-- How a removal goes on with the answer to its read. -/
def removeFound (key : Key) : Option ReadOutcome → Action W (Except CacheFault Unit)
  | none => .done (.error .cancelled)
  | some (.error source) => .done (.error (.store source))
  | some (.ok found) => removeContent key (found.filter fun s => !isBlank s)

lemma remove_eq (key : Key) :
    remove (W := W) key = .ask (I := effects W) (.read key.text) (removeFound key) := by
  obtain ⟨next, hremove, hnext, -⟩ := exists_remove_eq (W := W) key
  have hstops : next none = .done (.error .cancelled) ∧
      ∀ source, next (some (.error source)) = .done (.error (.store source)) := by
    cases hremove
    exact ⟨rfl, fun _ => rfl⟩
  rw [hremove]
  refine congrArg (Program.ask (I := effects W) (.read key.text)) (funext fun x => ?_)
  rcases x with _ | source | found
  · exact hstops.1
  · exact hstops.2 source
  · exact hnext found

end Entry

namespace Operation

/-- The changes that an operation may make: a write writes its one text under its keys, and a
removal only removes. -/
def Makes : Operation C → Change → Prop
  | store k value keys l, .put x text l' => l' = l ∧ x ∈ Key.texts keys ∧
    Bundle.encode (C.codec k) ⟨value, Key.texts keys⟩ = .ok text
  | remove _, .delete _ => True
  | _, _ => False

/-- How far an operation may have come.  A removal has not looked yet, or it is over, or it removes
the keys that are listed in a text, its own among them. -/
def Follows : (o : Operation C) → Course C o.Result → Prop
  | store k value keys l, course => (∃ outcome, course = .running (.done outcome)) ∨
    ∃ text, Bundle.encode (C.codec k) ⟨value, Key.texts keys⟩ = .ok text ∧
      Fans "set" (.put · text l) (Key.texts keys) course
  | find _ _, course => ∃ p, course = .running p ∧ p.IsQuiet
  | remove key, course => course = .running (Entry.remove key) ∨
    (∃ outcome, course = .running (.done outcome)) ∨
    ∃ listed text, Lists C key.text listed text ∧ Fans "remove" .delete listed course

lemma follows_start (o : Operation C) : o.Follows (.running o.action) := by
  cases o with
  | store k value keys l =>
    rcases Entry.store_cases (W := handlings C) (C.codec k) value keys l with
      ⟨outcome, hstore, -⟩ | ⟨text, htext, hstore⟩
    · exact .inl ⟨outcome, congrArg Course.running hstore⟩
    · refine .inr ⟨text, htext, ?_⟩
      rw [action, hstore]
      exact .waiting
  | find k key => exact ⟨_, rfl, Entry.isQuiet_find _ key⟩
  | remove key => exact .inl rfl

variable {cancelled : Bool} {c c' : Commons C} {effect : Option Change}

/-- A removal that looks removes what it finds listed. -/
lemma follows_remove {key : Key} {course course' : Course C (Except CacheFault Unit)}
    (h : (remove (C := C) key).Follows course)
    (hlists : ∀ e, c.memory.get? key.text = some e → ∃ listed, Lists C key.text listed e.value)
    (hadvance : Advance cancelled c course effect c' course') :
    (remove (C := C) key).Follows course' ∧
      ∀ made, effect = some made → (remove (C := C) key).Makes made := by
  have hnone : ∀ made, (none : Option Change) = some made → (remove (C := C) key).Makes made := by
    rintro made ⟨⟩
  rcases h with rfl | ⟨outcome, rfl⟩ | ⟨listed, text, hlisted, hfans⟩
  · rw [Entry.remove_eq] at hadvance
    cases hadvance with
    | ask h =>
      refine ⟨?_, hnone⟩
      cases h with
      | read =>
        -- what lies under the key lists it, if anything does
        rw [Entry.removeFound, Memory.read_value]
        cases hlive : c.memory.live? c.clock key.text with
        | none => exact .inr (.inl ⟨.ok (), rfl⟩)
        | some e =>
          obtain ⟨listed, hlisted⟩ := hlists e (Memory.live?_eq_some_iff.1 hlive).1
          obtain ⟨hblank, -, hremove⟩ := hlisted.removeContent_eq (W := handlings C)
          rw [Option.map_some, Option.filter_some_pos (by simp [hblank]), hremove]
          exact .inr (.inr ⟨listed, e.value, hlisted, .waiting⟩)
      | readFails _ source => exact .inr (.inl ⟨.error (.store source), rfl⟩)
      | readCut => exact .inr (.inl ⟨.error .cancelled, rfl⟩)
  · cases hadvance
  · obtain ⟨hfans', hmade⟩ := hfans.advance hadvance
    refine ⟨.inr (.inr ⟨listed, text, hlisted, hfans'⟩), fun made heffect => ?_⟩
    obtain ⟨x, -, rfl⟩ := hmade made heffect
    trivial

/-- One step of an operation. -/
theorem Follows.advance {o : Operation C} {course course' : Course C o.Result}
    (h : o.Follows course)
    (hlists : ∀ x e, c.memory.get? x = some e → ∃ listed, Lists C x listed e.value)
    (hadvance : Advance cancelled c course effect c' course') :
    o.Follows course' ∧ ∀ made, effect = some made → o.Makes made := by
  cases o with
  | store k value keys l =>
    rcases h with ⟨outcome, rfl⟩ | ⟨text, htext, hfans⟩
    · cases hadvance
    · obtain ⟨hfans', hmade⟩ := hfans.advance hadvance
      refine ⟨.inr ⟨text, htext, hfans'⟩, fun made heffect => ?_⟩
      obtain ⟨x, hx, rfl⟩ := hmade made heffect
      exact ⟨rfl, hx, htext⟩
  | find k key =>
    obtain ⟨p, rfl, hp⟩ := h
    cases hadvance with
    | ask h =>
      refine ⟨⟨_, rfl, hp.2 _⟩, ?_⟩
      rintro made ⟨⟩
    | begin => exact absurd rfl (hp.1 _)
  | remove key => exact follows_remove h (hlists key.text) hadvance

end Operation

/-! ## The record of what took effect -/

/-- All operations so far, and the changes that took effect, the latest first, each with the number
of the operation that made it. -/
structure Chronicle (C : Catalogue) extends Workload C where
  made : List (ℕ × Change)

namespace Chronicle

/-- What happens next. -/
inductive Step : Chronicle C → Chronicle C → Prop
  /-- An operation begins. -/
  | begin {t : Chronicle C} (o : Operation C) :
    Step t { t with jobs := t.jobs ++ [⟨o, false, .running o.action⟩] }
  /-- The clock is set. -/
  | tick {t : Chronicle C} (now : Instant) :
    Step t { t with commons := { t.commons with clock := now } }
  /-- The store is cleared of what has ended. -/
  | purge {t : Chronicle C} :
    Step t { t with
      commons := { t.commons with memory := (t.commons.memory.purge t.commons.clock).2 } }
  /-- An operation is cancelled. -/
  | cancel {t : Chronicle C} {i : ℕ} {job : Job C} (h : t.jobs[i]? = some job) :
    Step t { t with jobs := t.jobs.set i { job with cancelled := true } }
  /-- An operation takes a step. -/
  | advance {t : Chronicle C} {i : ℕ} {job : Job C} {c : Commons C} {effect : Option Change}
      {course : Course C job.operation.Result} (h : t.jobs[i]? = some job)
      (hadvance : Advance job.cancelled t.commons job.course effect c course) :
    Step t ⟨⟨c, t.jobs.set i { job with course }⟩, (effect.map (i, ·)).toList ++ t.made⟩

/-- The states that can be reached from an empty store. -/
def Reachable (t : Chronicle C) : Prop :=
  ∃ now, Relation.ReflTransGen Step ⟨.start now, []⟩ t

variable {t t' : Chronicle C} {x : String}

lemma Step.workload (h : Step t t') :
    Workload.Step (fun _ => True) t.toWorkload t'.toWorkload := by
  cases h with
  | begin o => exact .begin o trivial
  | tick now => exact .tick now
  | purge => exact .purge
  | cancel h => exact .cancel h
  | advance h hadvance => exact .progress h (exists_advance_iff.1 ⟨_, hadvance⟩)

lemma exists_step {w : Workload C} (h : Workload.Step (fun _ => True) t.toWorkload w) :
    ∃ made, Step t ⟨w, made⟩ := by
  cases h with
  | begin o => exact ⟨t.made, .begin o⟩
  | tick now => exact ⟨t.made, .tick now⟩
  | purge => exact ⟨t.made, .purge⟩
  | cancel h => exact ⟨t.made, .cancel h⟩
  | progress h hprogress =>
    obtain ⟨effect, hadvance⟩ := exists_advance_iff.2 hprogress
    exact ⟨_, .advance h hadvance⟩

/-- The states that can be reached are those that can be reached without a record. -/
theorem exists_reachable_iff {w : Workload C} :
    (∃ made, Reachable ⟨w, made⟩) ↔ w.Reachable fun _ => True := by
  constructor
  · rintro ⟨made, now, h⟩
    refine ⟨now, ?_⟩
    exact h.lift (fun t : Chronicle C => t.toWorkload) fun _ _ hstep => hstep.workload
  · rintro ⟨now, h⟩
    induction h with
    | refl => exact ⟨[], now, .refl⟩
    | tail _ hstep ih =>
      obtain ⟨made, now', hmade⟩ := ih
      obtain ⟨made', hstep'⟩ := exists_step (t := ⟨_, made⟩) hstep
      exact ⟨made', now', hmade.tail hstep'⟩

/-- The change of a key that took effect last, with the number of its operation. -/
def latest (t : Chronicle C) (x : String) : Option (ℕ × Change) := t.made.find? (·.2.key == x)

/-- The operation with a number. -/
def operation? (t : Chronicle C) (i : ℕ) : Option (Operation C) :=
  t.jobs[i]?.map Job.operation

/-- Every operation does what it may, every change on record was made by such an operation, and
each key holds what was written there last. -/
structure Sound (t : Chronicle C) : Prop where
  follows : ∀ job ∈ t.jobs, job.operation.Follows job.course
  made : ∀ m ∈ t.made, ∃ o, t.operation? m.1 = some o ∧ o.Makes m.2
  holds : ∀ x e, t.commons.memory.get? x = some e → ∃ i l, t.latest x = some (i, .put x e.value l)

namespace Sound

/-- Whatever lies under a key was written there last, by a write under that key. -/
lemma exists_store (h : t.Sound) {e : Held} (he : t.commons.memory.get? x = some e) :
    ∃ i k value keys l, t.operation? i = some (.store k value keys l) ∧
      t.latest x = some (i, .put x e.value l) ∧ x ∈ Key.texts keys ∧
      Bundle.encode (C.codec k) ⟨value, Key.texts keys⟩ = .ok e.value := by
  obtain ⟨i, l, hlatest⟩ := h.holds x e he
  obtain ⟨o, ho, hmakes⟩ := h.made _ (List.mem_of_find?_eq_some hlatest)
  cases o with
  | store k value keys l' =>
    obtain ⟨rfl, hx, htext⟩ := hmakes
    exact ⟨i, k, value, keys, l, ho, hlatest, hx, htext⟩
  | find k key => exact hmakes.elim
  | remove key => exact hmakes.elim

lemma exists_lists (h : t.Sound) (x : String) (e : Held)
    (he : t.commons.memory.get? x = some e) : ∃ listed, Lists C x listed e.value := by
  obtain ⟨i, k, value, keys, l, -, -, hx, htext⟩ := h.exists_store he
  exact ⟨Key.texts keys, ⟨k, value, htext⟩, hx, Key.nodup_texts keys⟩

/-- What is left of the store is what was written last. -/
lemma holds_of_carries (h : t.Sound) {m : Memory} {effect : Option Change} {i : ℕ}
    (hm : Carries t.commons.memory effect m) {e : Held} (he : m.get? x = some e) :
    ∃ j l, ((effect.map (i, ·)).toList ++ t.made).find? (·.2.key == x) =
      some (j, .put x e.value l) := by
  rcases hm x e he with ⟨e', he', hvalue, hother⟩ | ⟨l, rfl⟩
  · obtain ⟨j, l, hlatest⟩ := h.holds x e' he'
    rw [hvalue] at hlatest
    refine ⟨j, l, ?_⟩
    cases effect with
    | none => exact hlatest
    | some c =>
      -- a change of another key does not matter here
      have hne : ¬ ((i, c).2.key == x) = true := by simpa using hother c rfl
      exact (List.find?_cons_of_neg (p := fun m : ℕ × Change => m.2.key == x) hne).trans hlatest
  · exact ⟨i, l, List.find?_cons_of_pos (beq_self_eq_true x)⟩

/-- The operations keep their numbers. -/
lemma exists_operation_of_set (h : t.Sound) {i : ℕ} {job : Job C} (hi : t.jobs[i]? = some job)
    (job' : Job C) (hjob : job'.operation = job.operation) {m : ℕ × Change} (hm : m ∈ t.made) :
    ∃ o, (t.jobs.set i job')[m.1]?.map Job.operation = some o ∧ o.Makes m.2 := by
  obtain ⟨o, ho, hmakes⟩ := h.made m hm
  refine ⟨o, ?_, hmakes⟩
  rw [← ho, operation?]
  by_cases hmi : i = m.1
  · subst hmi
    rw [List.getElem?_set_self (List.getElem?_eq_some_iff.1 hi).1, hi]
    exact congrArg some hjob
  · rw [List.getElem?_set_ne hmi]

/-- One step. -/
theorem step (h : t.Sound) (hstep : Step t t') : t'.Sound := by
  cases hstep with
  | begin o =>
    refine ⟨?_, ?_, h.holds⟩
    · intro job hjob
      rcases List.mem_append.1 hjob with hmem | hlast
      · exact h.follows job hmem
      · rw [List.mem_singleton.1 hlast]
        exact o.follows_start
    · intro m hm
      obtain ⟨o', ho', hmakes⟩ := h.made m hm
      obtain ⟨job, hjob, rfl⟩ := Option.map_eq_some_iff.1 ho'
      refine ⟨job.operation, ?_, hmakes⟩
      have hlt := (List.getElem?_eq_some_iff.1 hjob).1
      rw [operation?, List.getElem?_append_left hlt, hjob]
      rfl
  | tick now => exact ⟨h.follows, h.made, h.holds⟩
  | purge =>
    refine ⟨h.follows, h.made, fun x e he => ?_⟩
    rw [Memory.get?_purge] at he
    exact h.holds x e (Memory.live?_eq_some_iff.1 he).1
  | @cancel i job hi =>
    refine ⟨?_, fun m hm => h.exists_operation_of_set hi { job with cancelled := true } rfl hm,
      h.holds⟩
    intro other hother
    rcases List.mem_or_eq_of_mem_set hother with hmem | rfl
    · exact h.follows other hmem
    · exact h.follows job (List.mem_of_getElem? hi)
  | @advance i job c effect course hi hadvance =>
    obtain ⟨hfollows, hmakes⟩ :=
      (h.follows job (List.mem_of_getElem? hi)).advance h.exists_lists hadvance
    refine ⟨?_, ?_, fun x e he => h.holds_of_carries hadvance.carries he⟩
    · intro other hother
      rcases List.mem_or_eq_of_mem_set hother with hmem | rfl
      · exact h.follows other hmem
      · exact hfollows
    · intro m hm
      rcases List.mem_append.1 hm with hnew | hold
      · -- what takes effect now is made by the operation whose step it is
        obtain ⟨made, hmade, rfl⟩ := Option.map_eq_some_iff.1 (Option.mem_toList.1 hnew)
        refine ⟨job.operation, ?_, hmakes made hmade⟩
        rw [operation?, List.getElem?_set_self (List.getElem?_eq_some_iff.1 hi).1]
        rfl
      · exact h.exists_operation_of_set hi { job with course } rfl hold

end Sound

/-- Every state that can be reached is sound. -/
theorem Reachable.sound (ht : t.Reachable) : t.Sound := by
  obtain ⟨now, hsteps⟩ := ht
  induction hsteps with
  | refl =>
    refine ⟨?_, ?_, ?_⟩
    · rintro job ⟨⟩
    · rintro m ⟨⟩
    · rintro x e ⟨⟩
  | tail _ hstep ih => exact ih.step hstep

/-- In every state that can be reached from an empty store:

* What lies under a key is, as it is, the text of the write under that key that took effect last.
  Its keys are those of the write, each once, and the key is among them.
* Whoever reads it in order to remove it finds keys listed, and removes these and no others.
* A removal that is on its way has not looked yet, or it is over, or it removes distinct keys that
  some text lists, its own among them, each of them once.  It does nothing else, so it never tells
  of a text that it cannot read. -/
theorem Reachable.own_keys (ht : t.Reachable) :
    (∀ x e, t.commons.memory.get? x = some e → ∃ i k value keys l,
      t.operation? i = some (.store k value keys l) ∧
      t.latest x = some (i, .put x e.value l) ∧
      Bundle.encode (C.codec k) ⟨value, Key.texts keys⟩ = .ok e.value ∧
      Bundle.decodeKeys? e.value = some (Key.texts keys) ∧
      x ∈ Key.texts keys ∧ (Key.texts keys).Nodup) ∧
    (∀ (key : Key) e, t.commons.memory.get? key.text = some e → ∃ listed,
      isBlank e.value = false ∧ Bundle.decodeKeys? e.value = some listed ∧
      Entry.doomed key listed = listed ∧ listed.Nodup ∧
      Entry.removeContent (W := handlings C) key (some e.value) =
        Entry.changeAll "remove" .delete listed) ∧
    ∀ key cancelled (course : Course C (Except CacheFault Unit)),
      ⟨.remove key, cancelled, course⟩ ∈ t.jobs →
      course = .running (.ask (.read key.text) (Entry.removeFound key)) ∨
      (∃ outcome, course = .running (.done outcome)) ∨
      ∃ listed text, Lists C key.text listed text ∧ Bundle.decodeKeys? text = some listed ∧
        (course = .running (.ask (.apply (listed.map .delete)) (Entry.conclude "remove" listed)) ∨
        ∃ flights, flights.map Flight.change = listed.map .delete ∧
          course = .changing flights (Entry.conclude "remove" listed)) := by
  have hsound := ht.sound
  refine ⟨?_, ?_, ?_⟩
  · intro x e he
    obtain ⟨i, k, value, keys, l, ho, hlatest, hx, htext⟩ := hsound.exists_store he
    exact ⟨i, k, value, keys, l, ho, hlatest, htext, Bundle.decodeKeys?_encode htext, hx,
      Key.nodup_texts keys⟩
  · intro key e he
    obtain ⟨listed, hlists⟩ := hsound.exists_lists key.text e he
    obtain ⟨hblank, hdecode, hremove⟩ := hlists.removeContent_eq (W := handlings C)
    exact ⟨listed, hblank, hdecode, by simp [Entry.doomed, hlists.mem], hlists.nodup, hremove⟩
  · intro key cancelled course hjob
    have hfollows : (Operation.remove (C := C) key).Follows course := hsound.follows _ hjob
    rcases hfollows with rfl | hdone | ⟨listed, text, hlists, hfans⟩
    · exact .inl (congrArg Course.running (Entry.remove_eq key))
    · exact .inr (.inl hdone)
    · obtain ⟨-, hdecode, -⟩ := hlists.removeContent_eq (W := handlings C)
      cases hfans with
      | waiting =>
        refine .inr (.inr ⟨listed, text, hlists, hdecode, .inl ?_⟩)
        rw [Entry.changeAll_eq]
      | changing h => exact .inr (.inr ⟨listed, text, hlists, hdecode, .inr ⟨_, h, rfl⟩⟩)
      | ended outcome => exact .inr (.inl ⟨outcome, rfl⟩)

end Chronicle

namespace Demo

/-- What is written for a greeting under some keys. -/
def writtenGreeting (keys : List Key) (greeting : String) : String :=
  (Bundle.members (.members [("text", .text greeting)]) (Key.texts keys)).render

/-- A greeting may begin to be written at any time. -/
lemma exists_recorded {t : Chronicle catalogue} (ht : t.Reachable) (keys : List Key)
    (hkeys : keys ≠ []) (greeting : String) :
    ∃ next, Chronicle.Reachable { t with
      jobs := t.jobs ++ [⟨.store Kind.greeting greeting keys {}, false,
        .changing (((Key.texts keys).map (.put · (writtenGreeting keys greeting) {})).map .begun)
          next⟩] } := by
  obtain ⟨now, hsteps⟩ := ht
  have htext : Bundle.encode (catalogue.codec Kind.greeting) ⟨greeting, Key.texts keys⟩ =
      .ok (writtenGreeting keys greeting) := Bundle.encode_eq_ok_iff.2 ⟨_, rfl, rfl⟩
  obtain ⟨next, haction⟩ : ∃ next,
      (Operation.store (C := catalogue) Kind.greeting greeting keys {}).action =
        .ask (I := effects (handlings catalogue))
          (.apply ((Key.texts keys).map (.put · (writtenGreeting keys greeting) {}))) next :=
    ⟨_, Entry.store_of_encode hkeys htext⟩
  have hbegin : Advance false t.commons
      (.running (Operation.store (C := catalogue) Kind.greeting greeting keys {}).action) none
      t.commons (.changing (((Key.texts keys).map
        (.put · (writtenGreeting keys greeting) {})).map .begun) next) := haction ▸ .begin
  have hstep := Chronicle.Step.advance (t := { t with
      jobs := t.jobs ++ [⟨.store (C := catalogue) Kind.greeting greeting keys {}, false,
        .running (Operation.store (C := catalogue) Kind.greeting greeting keys {}).action⟩] })
    List.getElem?_concat_length hbegin
  rw [List.set_append_right _ _ (Nat.le_refl _), Nat.sub_self, List.set_cons_zero] at hstep
  exact ⟨next, now, (hsteps.tail (.begin _)).tail hstep⟩

/-- A second greeting overlaps with the first one in one key and is half written. -/
theorem overlapping_greetings :
    ∃ t : Chronicle catalogue, t.Reachable ∧
      (t.commons.memory.get? "one").map Held.value =
        some (writtenGreeting [⟨"one"⟩, ⟨"two"⟩] "first") ∧
      (t.commons.memory.get? "two").map Held.value =
        some (writtenGreeting [⟨"two"⟩, ⟨"three"⟩] "second") ∧
      (∃ l, t.latest "two" =
        some (1, .put "two" (writtenGreeting [⟨"two"⟩, ⟨"three"⟩] "second") l)) ∧
      ∃ listed, Bundle.decodeKeys? (writtenGreeting [⟨"two"⟩, ⟨"three"⟩] "second") = some listed ∧
        Entry.doomed ⟨"two"⟩ listed = listed ∧ listed.Nodup := by
  have hstart : Chronicle.Reachable (C := catalogue) ⟨.start .epoch, []⟩ := ⟨.epoch, .refl⟩
  obtain ⟨next, now, hfirst⟩ :=
    exists_recorded hstart [⟨"one"⟩, ⟨"two"⟩] (List.cons_ne_nil _ _) "first"
  have hone := hfirst.tail (.advance (i := 0) rfl (.land (j := 0) rfl))
  have htwo := hone.tail (.advance (i := 0) rfl (.land (j := 1) rfl))
  obtain ⟨next', now', hsecond⟩ :=
    exists_recorded ⟨now, htwo⟩ [⟨"two"⟩, ⟨"three"⟩] (List.cons_ne_nil _ _) "second"
  have hover := hsecond.tail (.advance (i := 1) rfl (.land (j := 0) rfl))
  have ht : Chronicle.Reachable _ := ⟨now', hover⟩
  obtain ⟨hwritten, hremoved, -⟩ := ht.own_keys
  obtain ⟨i, k, value, keys, l, -, hlatest, -⟩ := hwritten "two" _ rfl
  obtain ⟨listed, -, hdecode, hdoomed, hnodup, -⟩ := hremoved ⟨"two"⟩ _ rfl
  refine ⟨_, ht, rfl, rfl, ?_, listed, hdecode, hdoomed, hnodup⟩
  cases hlatest
  exact ⟨_, rfl⟩

end Demo

end RequestCache
