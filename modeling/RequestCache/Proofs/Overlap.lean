/-
# A write and a removal at the same time

An entry is written under its keys while a removal through one of them is on its way.  Each works
on all keys at once and neither waits for the other, so at every key the write may come before the
removal or after it, and from key to key it may be different.  Once both have succeeded a key can
be read exactly if it was written last, and then it holds the new text: nothing older is left
(`Overlap.Reaches.settled`).  So the entry is there as a whole or not at all exactly if the order
is the same at all keys, and a removal that found nothing leaves all of it.

If the orders differ, one half of the entry is left (`Demo.overlap_parted`).  No one is to blame:
that operations on one entry do not wait for one another is what was wanted.

The steps are those of operations that nobody cancels over a store that does not fail (`Move`),
each with the change that it makes.
-/
import RequestCache.Proofs.Expiry
import RequestCache.Proofs.Groups

namespace RequestCache

variable {C : Catalogue} {α : Type}

/-! ## Steps -/

/-- An answer that is no failure. -/
def Effect.Succeeds {W : Interface} : (e : Effect W) → e.Answer → Prop
  | .read _, x => ∃ found, x = some (.ok found)
  | _, _ => True

/-- A step of an operation that nobody cancels, over a store that does not fail, and the change
that it makes, if it makes one. -/
inductive Move : Commons C → Course C α → Option Change → Commons C → Course C α → Prop
  /-- An effect that is no change is answered. -/
  | ask {c : Commons C} {e : Effect (handlings C)} {x : e.Answer} {m : Memory}
      {next : e.Answer → Action (handlings C) α} (h : Answers false c e x m) (hx : e.Succeeds x) :
    Move c (.running (.ask e next)) none { c with memory := m } (.running (next x))
  /-- Changes begin, all of them at once. -/
  | begin {c : Commons C} {cs : List Change}
      {next : Option (List ChangeOutcome) → Action (handlings C) α} :
    Move c (.running (.ask (.apply cs) next)) none c (.changing (cs.map .begun) next)
  /-- One of the changes is made. -/
  | land {c : Commons C} {flights : List Flight} {j : ℕ} {change : Change}
      {next : Option (List ChangeOutcome) → Action (handlings C) α}
      (h : flights[j]? = some (.begun change)) :
    Move c (.changing flights next) (some change)
      { c with memory := (c.memory.change c.clock change).2 }
      (.changing (flights.set j ⟨change, some (c.memory.change c.clock change).1⟩) next)
  /-- All changes have an outcome. -/
  | finish {c : Commons C} {flights : List Flight} {outcomes : List ChangeOutcome}
      {next : Option (List ChangeOutcome) → Action (handlings C) α}
      (h : flights.map Flight.outcome = outcomes.map some) :
    Move c (.changing flights next) none c (.running (next (some outcomes)))

/-- Such a step is one that an operation may take. -/
lemma Move.progress {c c' : Commons C} {course course' : Course C α} {change : Option Change}
    (h : Move c course change c' course') : Progress false c course c' course' := by
  cases h with
  | ask h _ => exact .ask h
  | begin => exact .begin
  | land h => exact .land h
  | finish h => exact .finish h

/-- A read is answered with what the key holds. -/
lemma Move.read {c : Commons C} {key : String} {found : Option String}
    {next : Option ReadOutcome → Action (handlings C) α} {p : Action (handlings C) α}
    (hfound : (c.memory.read c.clock key).1 = found) (hp : next (some (.ok found)) = p) :
    Move c (.running (.ask (.read key) next)) none
      { c with memory := (c.memory.read c.clock key).2 } (.running p) := by
  subst hfound hp
  exact .ask (.read key) ⟨_, rfl⟩

/-- A write and a removal on their way over one store. -/
structure Overlap (C : Catalogue) where
  commons : Commons C
  writing : Course C (Except CacheFault Unit)
  removing : Course C (Except CacheFault Unit)
  /-- The changes that were made, the latest first. -/
  made : List Change

namespace Overlap

/-- One of the two takes a step, or time passes. -/
inductive Step : Overlap C → Overlap C → Prop
  | write {t : Overlap C} {change : Option Change} {c : Commons C}
      {course : Course C (Except CacheFault Unit)}
      (h : Move t.commons t.writing change c course) :
    Step t ⟨c, course, t.removing, change.toList ++ t.made⟩
  | remove {t : Overlap C} {change : Option Change} {c : Commons C}
      {course : Course C (Except CacheFault Unit)}
      (h : Move t.commons t.removing change c course) :
    Step t ⟨c, t.writing, course, change.toList ++ t.made⟩
  | tick {t : Overlap C} (now : Instant) :
    Step t { t with commons := { t.commons with clock := now } }

/-- Neither has begun. -/
def start (c : Commons C) (write : Action (handlings C) (Except CacheFault Unit)) (key : Key) :
    Overlap C := ⟨c, .running write, .running (Entry.remove key), []⟩

/-- The states that come after others. -/
def Reaches (s t : Overlap C) : Prop := Relation.ReflTransGen Step s t

/-- Both have succeeded. -/
structure Succeeded (t : Overlap C) : Prop where
  writing : t.writing = .running (.done (.ok ()))
  removing : t.removing = .running (.done (.ok ()))

/-- The latest change of a key. -/
def latest (t : Overlap C) (x : String) : Option Change := t.made.find? (·.key == x)

/-- Was the key written, and not removed since? -/
def WroteLast (t : Overlap C) (x : String) : Prop := ∃ text l, t.latest x = some (.put x text l)

end Overlap

/-! ## Changes of several keys on their way -/

/-- What is made of the outcomes of several changes. -/
def Entry.conclude {W : Interface} (operation : String) (keys : List String) :
    Option (List ChangeOutcome) → Action W (Except CacheFault Unit)
  | none => .done (.error .cancelled)
  | some outcomes => .done (collect operation keys outcomes)

lemma Entry.changeAll_eq {W : Interface} (operation : String) (change : String → Change)
    (keys : List String) :
    changeAll (W := W) operation change keys =
      .ask (I := effects W) (.apply (keys.map change)) (conclude operation keys) := by
  rw [changeAll]
  refine congrArg (Program.ask (I := effects W) (.apply (keys.map change))) (funext fun x => ?_)
  cases x <;> rfl

/-- How far changes of several keys have come, given what was made. -/
inductive Fanning (operation : String) (change : String → Change) (keys : List String)
    (made : List Change) : Course C (Except CacheFault Unit) → Prop
  | waiting : Fanning operation change keys made
      (.running (Entry.changeAll operation change keys))
  | making {flights : List Flight} (hchanges : flights.map Flight.change = keys.map change)
      (hmade : ∀ f ∈ flights, ∀ outcome, f.outcome = some outcome →
        outcome = .ok () ∧ f.change ∈ made) :
    Fanning operation change keys made (.changing flights (Entry.conclude operation keys))
  | made (h : ∀ x ∈ keys, change x ∈ made) :
    Fanning operation change keys made (.running (.done (.ok ())))

namespace Fanning

variable {operation : String} {change : String → Change} {keys : List String}
  {made made' : List Change} {c c' : Commons C} {course course' : Course C (Except CacheFault Unit)}
  {new : Option Change}

lemma mono (h : Fanning operation change keys made course) (hsub : made ⊆ made') :
    Fanning operation change keys made' course := by
  cases h with
  | waiting => exact .waiting
  | making hchanges hmade =>
    refine .making hchanges fun f hf outcome houtcome => ?_
    obtain ⟨hok, hmem⟩ := hmade f hf outcome houtcome
    exact ⟨hok, hsub hmem⟩
  | made h => exact .made fun x hx => hsub (h x hx)

/-- A step makes no change or one of the changes, and once all were made there is nothing to
report. -/
theorem move (h : Fanning operation change keys made course)
    (hok : ∀ x ∈ keys, ∀ (m : Memory) now, (m.change now (change x)).1 = .ok ())
    (hmove : Move c course new c' course') :
    Fanning operation change keys (new.toList ++ made) course' ∧
      (new = none ∧ c' = c ∨ ∃ x ∈ keys, new = some (change x) ∧
        c' = { c with memory := (c.memory.change c.clock (change x)).2 }) := by
  cases h with
  | waiting =>
    rw [Entry.changeAll_eq] at hmove
    cases hmove with
    | ask h _ => cases h
    | begin =>
      -- all changes begin, and none has an outcome yet
      refine ⟨.making (by simp [Flight.begun, Function.comp_def]) ?_, .inl ⟨rfl, rfl⟩⟩
      intro f hf outcome houtcome
      obtain ⟨begun, -, rfl⟩ := List.mem_map.1 hf
      cases houtcome
  | @making flights hchanges hmade =>
    cases hmove with
    | @land _ j begun _ hj =>
      -- one change is made: it is the change of one of the keys, and it succeeds
      have hsame : (flights.map Flight.change)[j]? = some begun := by
        rw [List.getElem?_map, hj]
        rfl
      obtain ⟨x, hx, rfl⟩ : ∃ x ∈ keys, change x = begun := by
        rw [hchanges] at hsame
        exact List.mem_map.1 (List.mem_of_getElem? hsame)
      refine ⟨.making ?_ ?_, .inr ⟨x, hx, rfl, rfl⟩⟩
      · obtain ⟨hlt, hget⟩ := List.getElem?_eq_some_iff.1 hsame
        have hset := List.set_getElem_self hlt
        rw [hget] at hset
        rw [List.map_set, hset, hchanges]
      · intro f hf outcome houtcome
        rcases List.mem_or_eq_of_mem_set hf with hold | rfl
        · obtain ⟨hsucceeds, hmem⟩ := hmade f hold outcome houtcome
          exact ⟨hsucceeds, List.mem_cons_of_mem _ hmem⟩
        · cases houtcome
          exact ⟨hok x hx _ _, List.mem_cons_self⟩
    | @finish _ outcomes _ houtcomes =>
      -- every change has an outcome, so each of them was made, and there is no failure to collect
      have hall : ∀ f ∈ flights, ∃ outcome ∈ outcomes, f.outcome = some outcome := by
        intro f hf
        have hmem : f.outcome ∈ outcomes.map some := houtcomes ▸ List.mem_map_of_mem hf
        obtain ⟨outcome, houtcome, heq⟩ := List.mem_map.1 hmem
        exact ⟨outcome, houtcome, heq.symm⟩
      have hsucceed : ∀ outcome ∈ outcomes, outcome = .ok () := by
        intro outcome houtcome
        have hmem : some outcome ∈ flights.map Flight.outcome :=
          houtcomes ▸ List.mem_map_of_mem houtcome
        obtain ⟨f, hf, heq⟩ := List.mem_map.1 hmem
        exact (hmade f hf outcome heq).1
      rw [Entry.conclude, Scene.collect_of_ok operation keys hsucceed]
      refine ⟨.made fun x hx => ?_, .inl ⟨rfl, rfl⟩⟩
      obtain ⟨f, hf, heq⟩ : ∃ f ∈ flights, f.change = change x := by
        have hmem : change x ∈ flights.map Flight.change := hchanges ▸ List.mem_map_of_mem hx
        exact List.mem_map.1 hmem
      obtain ⟨outcome, -, houtcome⟩ := hall f hf
      rw [← heq]
      exact (hmade f hf outcome houtcome).2
  | made h => cases hmove

end Fanning

/-! ## A removal on its way -/

/-- The text lists the keys and no others. -/
def ListsExactly (keys : List String) (text : String) : Prop :=
  ∃ listed, Bundle.decodeKeys? text = some listed ∧ ∀ x, x ∈ listed ↔ x ∈ keys

/-- How a removal goes on with the text that it has found. -/
def Entry.removeContent {W : Interface} (key : Key) :
    Option String → Action W (Except CacheFault Unit)
  | none => .done (.ok ())
  | some text =>
    match Bundle.decodeKeys? text with
    | some listed => changeAll "remove" .delete (doomed key listed)
    | none => do
      Action.log (.undecodableRemoved key.text)
      changeAll "remove" .delete [key.text]

lemma Entry.exists_remove_eq {W : Interface} (key : Key) :
    ∃ next, remove (W := W) key = .ask (I := effects W) (.read key.text) next ∧
      (∀ found : Option String,
        next (some (.ok found)) = removeContent key (found.filter fun s => !isBlank s)) ∧
      ∀ source, next (some (.error source)) = .done (.error (.store source)) := by
  refine ⟨_, rfl, fun found => ?_, fun source => rfl⟩
  cases hfound : found.filter fun s => !isBlank s with
  | none => simp [Program.bind, hfound, removeContent]
  | some text =>
    cases hlisted : Bundle.decodeKeys? text <;>
      simp [Program.bind, hfound, hlisted, removeContent]

/-- How far a removal has come, given what was made: it has not looked yet, it has found nothing,
or it deletes the keys that it has found listed. -/
inductive Removing (keys : List String) (key : Key) (made : List Change) :
    Course C (Except CacheFault Unit) → Prop
  | waiting (hnone : ∀ x, .delete x ∉ made) :
    Removing keys key made (.running (Entry.remove key))
  | idle (hnone : ∀ x, .delete x ∉ made) : Removing keys key made (.running (.done (.ok ())))
  | deleting {course : Course C (Except CacheFault Unit)} {listed : List String}
      (hlisted : ∀ x, x ∈ listed ↔ x ∈ keys)
      (h : Fanning "remove" .delete listed made course) : Removing keys key made course

namespace Removing

variable {keys : List String} {key : Key} {made made' : List Change} {c c' : Commons C}
  {course course' : Course C (Except CacheFault Unit)} {new : Option Change}

/-- What else is made is no removal. -/
lemma mono (h : Removing keys key made course) (hnew : ∀ x, new ≠ some (.delete x)) :
    Removing keys key (new.toList ++ made) course := by
  have hnone : (∀ x, .delete x ∉ made) → ∀ x, .delete x ∉ new.toList ++ made := by
    intro hnone x hmem
    rcases List.mem_append.1 hmem with hx | hx
    · exact hnew x (Option.mem_toList.1 hx)
    · exact hnone x hx
  cases h with
  | waiting h => exact .waiting (hnone h)
  | idle h => exact .idle (hnone h)
  | deleting hlisted h => exact .deleting hlisted (h.mono (List.subset_append_right _ _))

/-- A step makes no change, or removes one of the keys, if what the removal looks at lists the
keys. -/
theorem move (h : Removing keys key made course) (hkey : key.text ∈ keys)
    (hlists : ∀ e, c.memory.get? key.text = some e → ListsExactly keys e.value)
    (hmove : Move c course new c' course') :
    Removing keys key (new.toList ++ made) course' ∧
      (new = none ∧ (c' = c ∨
          c' = { c with memory := (c.memory.read c.clock key.text).2 }) ∨
        ∃ x ∈ keys, new = some (.delete x) ∧
          c' = { c with memory := (c.memory.change c.clock (.delete x)).2 }) := by
  cases h with
  | waiting hnone =>
    obtain ⟨next, hremove, hnext, -⟩ := Entry.exists_remove_eq (W := handlings C) key
    rw [hremove] at hmove
    cases hmove with
    | ask h hx =>
      obtain ⟨found, rfl⟩ := hx
      cases h with
      | read =>
        -- what lies under the key lists the keys, if anything does
        refine ⟨?_, .inl ⟨rfl, .inr rfl⟩⟩
        rw [hnext, Memory.read_value]
        cases hlive : c.memory.live? c.clock key.text with
        | none => exact .idle hnone
        | some e =>
          obtain ⟨listed, hlisted, hmem⟩ := hlists e (Memory.live?_eq_some_iff.1 hlive).1
          have hdoomed : Entry.doomed key listed = listed := by
            simp [Entry.doomed, (hmem key.text).2 hkey]
          cases hblank : isBlank e.value with
          | true =>
            rw [Option.map_some, Option.filter_some_neg (by simp [hblank])]
            exact .idle hnone
          | false =>
            rw [Option.map_some, Option.filter_some_pos (by simp [hblank]), Entry.removeContent,
              hlisted]
            dsimp only
            rw [hdoomed]
            exact .deleting hmem .waiting
  | idle hnone => cases hmove
  | deleting hlisted h =>
    obtain ⟨hfanning, hmade⟩ := h.move (fun _ _ _ _ => rfl) hmove
    refine ⟨.deleting hlisted hfanning, ?_⟩
    rcases hmade with ⟨hnew, hc⟩ | ⟨x, hx, hnew, hc⟩
    · exact .inl ⟨hnew, .inl hc⟩
    · exact .inr ⟨x, (hlisted x).1 hx, hnew, hc⟩

end Removing

/-! ## What the keys hold -/

/-- What a key holds after its latest change: the entry that was written, which does not end,
nothing, or, if there was no change, something that lists the keys. -/
def HoldsAfter (keys : List String) : Option Change → Option Held → Prop
  | some (.put _ text _), held => ∃ written, held = some ⟨text, none, none, written⟩
  | some (.delete _), held => held = none
  | none, held => ∀ e, held = some e → ListsExactly keys e.value

namespace HoldsAfter

variable {keys : List String} {latest : Option Change} {m : Memory} {now : Instant} {x : String}

/-- A read makes no difference, apart from what has ended. -/
lemma read (h : HoldsAfter keys latest (m.get? x)) (key : String) :
    HoldsAfter keys latest ((m.read now key).2.get? x) := by
  rw [Memory.get?_read]
  split_ifs with hkey
  · subst hkey
    match latest, h with
    | some (.put _ text _), ⟨written, hget⟩ =>
      have hlive : m.live? now x = some ⟨text, none, none, written⟩ :=
        Memory.live?_eq_some_iff.2 ⟨hget, rfl⟩
      rw [hlive]
      exact ⟨written, rfl⟩
    | some (.delete _), h =>
      have hget : m.get? x = none := h
      simp [HoldsAfter, Memory.live?, hget]
    | none, h =>
      intro e he
      obtain ⟨e', hlive, rfl⟩ := Option.map_eq_some_iff.1 he
      rw [Held.value_touch]
      exact h e' (Memory.live?_eq_some_iff.1 hlive).1
  · exact h

/-- After a change its key holds what the change has left, and the others what they held. -/
lemma change {made : List Change} {c : Change}
    (h : HoldsAfter keys (made.find? (·.key == x)) (m.get? x)) (now : Instant)
    (hc : ∀ key text l, c = .put key text l → l.isEndless = true) :
    HoldsAfter keys ((c :: made).find? (·.key == x)) ((m.change now c).2.get? x) := by
  by_cases hx : x = c.key
  · subst hx
    rw [List.find?_cons_of_pos (by simp)]
    cases c with
    | put key text l =>
      have hl := hc key text l rfl
      refine ⟨now, ?_⟩
      change (m.write now key text l).2.get? key = _
      rw [Memory.get?_write (Lifetime.check_of_isEndless hl), if_pos rfl,
        Held.fresh?_of_isEndless hl]
    | delete key =>
      change (m.erase key).get? key = none
      rw [Table.get?_erase, if_pos rfl]
  · rw [List.find?_cons_of_neg (by simpa using Ne.symm hx), Memory.get?_change_of_ne hx]
    exact h

/-- Every key that was written or never changed lists the keys. -/
lemma listsExactly (h : HoldsAfter keys latest (m.get? x))
    (hlatest : ∀ key text l, latest = some (.put key text l) → ListsExactly keys text) {e : Held}
    (he : m.get? x = some e) : ListsExactly keys e.value := by
  match latest, h with
  | some (.put key text l), ⟨written, hget⟩ =>
    rw [he] at hget
    cases hget
    exact hlatest key text l rfl
  | some (.delete _), h =>
    cases he.symm.trans h
  | none, h => exact h e he

end HoldsAfter

/-! ## Both together -/

namespace Overlap

variable {keys : List String} {text : String} {l : Lifetime} {key : Key} {c : Commons C}
  {write : Action (handlings C) (Except CacheFault Unit)} {s t t' : Overlap C}

/-- What is known of a write of a text under some keys and a removal through one of them, however
far they have come. -/
structure Sound (keys : List String) (text : String) (l : Lifetime) (key : Key) (t : Overlap C) :
    Prop where
  writing : Fanning "set" (.put · text l) keys t.made t.writing
  removing : Removing keys key t.made t.removing
  made : ∀ c ∈ t.made, ∃ x ∈ keys, c = .put x text l ∨ c = .delete x
  holds : ∀ x ∈ keys, HoldsAfter keys (t.latest x) (t.commons.memory.get? x)

lemma Sound.latest_cases (h : t.Sound keys text l key) {x : String} {c : Change}
    (hc : t.latest x = some c) : c = .put x text l ∨ c = .delete x := by
  obtain ⟨y, -, hy⟩ := h.made c (List.mem_of_find?_eq_some hc)
  have hkey : c.key = x := by simpa using List.find?_some hc
  rcases hy with rfl | rfl
  · exact .inl (congrArg (Change.put · text l) hkey)
  · exact .inr (congrArg Change.delete hkey)

/-- What the removal may find lists the keys. -/
lemma Sound.listsExactly (h : t.Sound keys text l key) (htext : ListsExactly keys text)
    {x : String} (hx : x ∈ keys) :
    ∀ e, t.commons.memory.get? x = some e → ListsExactly keys e.value := by
  intro e he
  refine (h.holds x hx).listsExactly ?_ he
  intro key' text' l' hlatest
  rcases h.latest_cases hlatest with hput | hdelete
  · cases hput
    exact htext
  · cases hdelete

/-- One step. -/
theorem Sound.step (h : t.Sound keys text l key) (hl : l.isEndless = true)
    (htext : ListsExactly keys text) (hkey : key.text ∈ keys) (hstep : Step t t') :
    t'.Sound keys text l key := by
  cases hstep with
  | write hmove =>
    have hok : ∀ x ∈ keys, ∀ (m : Memory) now, (m.change now (.put x text l)).1 = .ok () :=
      fun x _ m now => Memory.write_of_check (Lifetime.check_of_isEndless hl) x text
    obtain ⟨hwriting, hmade⟩ := h.writing.move hok hmove
    -- the other one has not moved, and a write is no removal
    rcases hmade with ⟨rfl, rfl⟩ | ⟨x, hx, rfl, rfl⟩
    · exact ⟨hwriting, h.removing, h.made, h.holds⟩
    · refine ⟨hwriting, h.removing.mono (by simp), ?_, fun y hy => (h.holds y hy).change _ ?_⟩
      · rintro c hc
        rcases List.mem_cons.1 hc with rfl | hc
        · exact ⟨x, hx, .inl rfl⟩
        · exact h.made c hc
      · rintro _ _ _ ⟨⟩
        exact hl
  | remove hmove =>
    obtain ⟨hremoving, hmade⟩ := h.removing.move hkey (h.listsExactly htext hkey) hmove
    rcases hmade with ⟨rfl, rfl | rfl⟩ | ⟨x, hx, rfl, rfl⟩
    · exact ⟨h.writing, hremoving, h.made, h.holds⟩
    · exact ⟨h.writing, hremoving, h.made, fun y hy => (h.holds y hy).read key.text⟩
    · refine ⟨h.writing.mono (List.subset_append_right _ _), hremoving, ?_,
        fun y hy => (h.holds y hy).change t.commons.clock ?_⟩
      · rintro c hc
        rcases List.mem_cons.1 hc with rfl | hc
        · exact ⟨x, hx, .inr rfl⟩
        · exact h.made c hc
      · rintro _ _ _ ⟨⟩
  | tick now => exact ⟨h.writing, h.removing, h.made, h.holds⟩

lemma Sound.reaches (h : s.Sound keys text l key) (hl : l.isEndless = true)
    (htext : ListsExactly keys text) (hkey : key.text ∈ keys) (ht : s.Reaches t) :
    t.Sound keys text l key := by
  induction ht with
  | refl => exact h
  | tail _ hstep ih => exact ih.step hl htext hkey hstep

/-- A write that has ended before it began has nothing to do. -/
lemma Reaches.writing_eq {outcome : Except CacheFault Unit}
    (hs : s.writing = .running (.done outcome)) (ht : s.Reaches t) :
    t.writing = .running (.done outcome) := by
  induction ht with
  | refl => exact hs
  | tail _ hstep ih =>
    cases hstep with
    | write hmove =>
      rw [ih] at hmove
      cases hmove
    | remove hmove => exact ih
    | tick now => exact ih

/-- A key that was written was written last, or else removed last. -/
lemma Sound.latest_of_written (h : t.Sound keys text l key) {x : String}
    (hwritten : .put x text l ∈ t.made) :
    t.latest x = some (.put x text l) ∨ t.latest x = some (.delete x) := by
  obtain ⟨c, hc⟩ : ∃ c, t.latest x = some c := by
    refine Option.isSome_iff_exists.1 (List.find?_isSome.2 ⟨_, hwritten, ?_⟩)
    exact beq_self_eq_true x
  rcases h.latest_cases hc with rfl | rfl
  · exact .inl hc
  · exact .inr hc

/-- A key can be read exactly if it was written last. -/
lemma Sound.contains_iff (h : t.Sound keys text l key) {x : String} (hx : x ∈ keys)
    (hwritten : .put x text l ∈ t.made) (now : Instant) :
    (t.commons.memory.contains now x = true ↔ t.WroteLast x) ∧
      ∀ e, t.commons.memory.get? x = some e → e.value = text := by
  have hholds := h.holds x hx
  rcases h.latest_of_written hwritten with hc | hc
  · rw [hc] at hholds
    obtain ⟨written, hget⟩ := hholds
    refine ⟨iff_of_true ?_ ⟨text, l, hc⟩, ?_⟩
    · exact Memory.contains_eq_true_iff.2 ⟨_, hget, rfl⟩
    · intro e he
      rw [hget] at he
      cases he
      rfl
  · rw [hc] at hholds
    have hget : t.commons.memory.get? x = none := hholds
    refine ⟨iff_of_false ?_ ?_, ?_⟩
    · simp [Memory.contains_of_get?_eq_none hget]
    · rintro ⟨text', l', hput⟩
      cases hput.symm.trans hc
    · intro e he
      cases he.symm.trans hget

/-- A write under some keys and a removal through one of them are on their way at the same time,
and each of the keys holds nothing, or an entry of the same keys.  Once both have succeeded, every
key was written, and either every key was removed as well or none was.  A key can be read exactly
if it was written last, and holds the new text then.  So either all keys can be read or none can,
exactly if all of them were written last or none was; and if nothing was removed, all can be
read. -/
theorem Reaches.settled {k : C.Kind} {value : C.Response k} {keys : List Key} {l : Lifetime}
    (hl : l.isEndless = true) {key : Key} (hkey : key ∈ keys) {c : Commons C}
    (hc : ∀ x ∈ Key.texts keys, ∀ e, c.memory.get? x = some e →
      ListsExactly (Key.texts keys) e.value)
    {t : Overlap C} (ht : (start c (Entry.store (C.codec k) value keys l) key).Reaches t)
    (hsucceeded : t.Succeeded) :
    ∃ text, Bundle.encode (C.codec k) ⟨value, Key.texts keys⟩ = .ok text ∧
      (∀ x ∈ Key.texts keys, .put x text l ∈ t.made) ∧
      ((∀ x, .delete x ∉ t.made) ∨ ∀ x ∈ Key.texts keys, .delete x ∈ t.made) ∧
      ∀ now,
        (∀ x ∈ Key.texts keys, (t.commons.memory.contains now x = true ↔ t.WroteLast x) ∧
          ∀ e, t.commons.memory.get? x = some e → e.value = text) ∧
        ((∀ x ∈ Key.texts keys, t.commons.memory.contains now x = true) ∨
            (∀ x ∈ Key.texts keys, t.commons.memory.contains now x = false) ↔
          (∀ x ∈ Key.texts keys, t.WroteLast x) ∨ ∀ x ∈ Key.texts keys, ¬ t.WroteLast x) ∧
        ((∀ x, .delete x ∉ t.made) →
          ∀ x ∈ Key.texts keys, t.commons.memory.contains now x = true) := by
  have hne : keys ≠ [] := List.ne_nil_of_mem hkey
  rcases Entry.store_cases (W := handlings C) (C.codec k) value keys l with
    ⟨outcome, hstore, hempty⟩ | ⟨text, htext, hstore⟩
  · -- a write that is refused at once never succeeds
    rw [hstore] at ht
    have hwriting := ht.writing_eq rfl
    rw [hsucceeded.writing] at hwriting
    cases hwriting
    exact absurd (hempty rfl) hne
  · rw [hstore] at ht
    have hlists : ListsExactly (Key.texts keys) text :=
      ⟨_, Bundle.decodeKeys?_encode htext, fun _ => Iff.rfl⟩
    have hstart : (start c (Entry.changeAll "set" (.put · text l) (Key.texts keys)) key).Sound
        (Key.texts keys) text l key :=
      ⟨.waiting, .waiting (by simp [start]), by simp [start], hc⟩
    have hsound := hstart.reaches hl hlists (Key.text_mem_texts.2 hkey) ht
    have hwritten : ∀ x ∈ Key.texts keys, .put x text l ∈ t.made := by
      have hwriting := hsound.writing
      rw [hsucceeded.writing] at hwriting
      cases hwriting with
      | made h => exact h
    have hremoved : (∀ x, .delete x ∉ t.made) ∨ ∀ x ∈ Key.texts keys, .delete x ∈ t.made := by
      have hremoving := hsound.removing
      rw [hsucceeded.removing] at hremoving
      cases hremoving with
      | idle hnone => exact .inl hnone
      | deleting hlisted h =>
        cases h with
        | made h => exact .inr fun x hx => h x ((hlisted x).2 hx)
    refine ⟨text, htext, hwritten, hremoved, fun now => ?_⟩
    have hcontains := fun x hx => hsound.contains_iff hx (hwritten x hx) now
    refine ⟨hcontains, ?_, ?_⟩
    · refine or_congr (forall₂_congr fun x hx => (hcontains x hx).1)
        (forall₂_congr fun x hx => ?_)
      rw [← (hcontains x hx).1, Bool.not_eq_true]
    · intro hnone x hx
      refine (hcontains x hx).1.2 ?_
      rcases hsound.latest_of_written (hwritten x hx) with hput | hdelete
      · exact ⟨text, l, hput⟩
      · exact absurd (List.mem_of_find?_eq_some hdelete) (hnone x)

end Overlap

namespace Demo

/-- A greeting is written under two keys, where nothing lies, and removed through the first. -/
def greetAndRemove : Overlap catalogue :=
  .start ⟨.epoch, ∅, []⟩
    (Entry.store (catalogue.codec Kind.greeting) "hello" twinKeys {}) ⟨"one"⟩

/-- The removal comes between the two writes: it finds the key that is written already, removes
both, and then the other one is written. -/
lemma exists_parted : ∃ t : Overlap catalogue, greetAndRemove.Reaches t ∧ t.Succeeded ∧
    t.made = [.put "two" (twinText "hello") {}, .delete "two", .delete "one",
      .put "one" (twinText "hello") {}] ∧
    t.commons.memory.contains .epoch "one" = false ∧
    t.commons.memory.contains .epoch "two" = true := by
  have htext : Bundle.encode (catalogue.codec Kind.greeting) ⟨"hello", Key.texts twinKeys⟩ =
      .ok (twinText "hello") := Bundle.encode_eq_ok_iff.2 ⟨_, rfl, rfl⟩
  obtain ⟨next, hremove, hnext, -⟩ := Entry.exists_remove_eq (W := handlings catalogue) ⟨"one"⟩
  have hfound : next (some (.ok (some (twinText "hello")))) =
      .ask (I := effects (handlings catalogue)) (.apply [.delete "one", .delete "two"])
        (Entry.conclude "remove" ["one", "two"]) := by
    have hdoomed : Entry.doomed ⟨"one"⟩ (Key.texts twinKeys) = ["one", "two"] := by decide
    rw [hnext, Option.filter_some_pos (by simp [Bundle.isBlank_encode htext]),
      Entry.removeContent, Bundle.decodeKeys?_encode htext]
    dsimp only
    rw [hdoomed, Entry.changeAll_eq]
    rfl
  have hstore : Entry.store (catalogue.codec Kind.greeting) "hello" twinKeys {} =
      .ask (I := effects (handlings catalogue))
        (.apply [.put "one" (twinText "hello") {}, .put "two" (twinText "hello") {}])
        (Entry.conclude "set" ["one", "two"]) := by
    have hkeys : twinKeys ≠ [] := List.cons_ne_nil _ _
    have htexts : Key.texts twinKeys = ["one", "two"] := by decide
    rw [Entry.store_of_encode hkeys htext, htexts, Entry.changeAll_eq]
    rfl
  have hstart : greetAndRemove = ⟨⟨.epoch, ∅, []⟩,
      .running (.ask (I := effects (handlings catalogue))
        (.apply [.put "one" (twinText "hello") {}, .put "two" (twinText "hello") {}])
        (Entry.conclude "set" ["one", "two"])),
      .running (.ask (I := effects (handlings catalogue)) (.read "one") next), []⟩ := by
    rw [greetAndRemove, Overlap.start, hstore, hremove]
  have hrun : greetAndRemove.Reaches greetAndRemove := .refl
  rw [hstart] at hrun ⊢
  have hbegun := hrun.tail (.write .begin)
  have hone := hbegun.tail (.write (.land (j := 0) rfl))
  have hread := hone.tail (.remove (.read rfl hfound))
  have hbegun' := hread.tail (.remove .begin)
  have hone' := hbegun'.tail (.remove (.land (j := 0) rfl))
  have htwo' := hone'.tail (.remove (.land (j := 1) rfl))
  have hremoved := htwo'.tail (.remove (.finish (show _ = [.ok (), .ok ()].map some from rfl)))
  have htwo := hremoved.tail (.write (.land (j := 1) rfl))
  have hwritten := htwo.tail (.write (.finish (show _ = [.ok (), .ok ()].map some from rfl)))
  exact ⟨_, hwritten, ⟨rfl, rfl⟩, rfl, rfl, rfl⟩

/-- What can be read is what was written last, and it is the greeting. -/
theorem settled_greeting :
    ∃ t : Overlap catalogue, greetAndRemove.Reaches t ∧ t.Succeeded ∧
      ¬ t.WroteLast "one" ∧ t.commons.memory.contains (minute 5) "one" = false ∧
      t.WroteLast "two" ∧ t.commons.memory.contains (minute 5) "two" = true ∧
      ∀ e, t.commons.memory.get? "two" = some e → e.value = twinText "hello" := by
  obtain ⟨t, ht, hsucceeded, hmade, -, -⟩ := exists_parted
  have hkey : (⟨"one"⟩ : Key) ∈ twinKeys := List.mem_cons_self
  have hnothing : ∀ x ∈ Key.texts twinKeys, ∀ e, (∅ : Memory).get? x = some e →
      ListsExactly (Key.texts twinKeys) e.value := by
    rintro x - e ⟨⟩
  have hrun : (Overlap.start ⟨.epoch, ∅, []⟩
      (Entry.store (catalogue.codec Kind.greeting) "hello" twinKeys {}) ⟨"one"⟩).Reaches t := ht
  obtain ⟨text, htext, -, -, hnow⟩ := hrun.settled rfl hkey hnothing hsucceeded
  obtain ⟨hcontains, -, -⟩ := hnow (minute 5)
  obtain ⟨hone, -⟩ := hcontains "one" (by decide)
  obtain ⟨htwo, hvalue⟩ := hcontains "two" (by decide)
  have hlatest : t.latest "one" = some (.delete "one") := by
    rw [Overlap.latest, hmade]
    rfl
  have hremoved : ¬ t.WroteLast "one" := by
    rintro ⟨text', l, hput⟩
    cases hlatest.symm.trans hput
  have hwritten : t.WroteLast "two" := by
    refine ⟨twinText "hello", {}, ?_⟩
    rw [Overlap.latest, hmade]
    rfl
  have heq : text = twinText "hello" := by
    obtain ⟨v, hv, rfl⟩ := Bundle.encode_eq_ok_iff.1 htext
    cases hv
    rfl
  refine ⟨t, ht, hsucceeded, hremoved, ?_, hwritten, htwo.2 hwritten, heq ▸ hvalue⟩
  rw [← Bool.not_eq_true, hone]
  exact hremoved

/-- Both have succeeded, and one of the two keys can be read. -/
theorem overlap_parted :
    ∃ t : Overlap catalogue, greetAndRemove.Reaches t ∧ t.Succeeded ∧
      ¬ ((∀ x ∈ Key.texts twinKeys, t.commons.memory.contains .epoch x = true) ∨
        ∀ x ∈ Key.texts twinKeys, t.commons.memory.contains .epoch x = false) := by
  obtain ⟨t, ht, hsucceeded, -, hone, htwo⟩ := exists_parted
  refine ⟨t, ht, hsucceeded, ?_⟩
  rintro (hall | hnone)
  · have hread := hall "one" (by decide)
    rw [hone] at hread
    cases hread
  · have hgone := hnone "two" (by decide)
    rw [htwo] at hgone
    cases hgone

end Demo

end RequestCache
