/-
# Keys in groups

Keys come in groups, and whatever is written is written under one whole group.  Then a key never
holds anything else than a text that lists exactly its group, however operations are interleaved,
whatever fails and whoever is cancelled: a removal deletes keys that it read earlier, perhaps from
a text that is long gone, but every text that its key may have held lists the same keys.  So no
operation ever touches another group, and what half-done operations leave behind can be removed
as a whole (`Workload.Reachable.groups_intact`).
-/
import Mathlib.Data.Setoid.Basic
import RequestCache.Proofs.Cascade
import RequestCache.Proofs.Operations

namespace RequestCache

variable {C : Catalogue} {G : Setoid String}

/-- The text of an entry lists each key of a key's group once, and no other. -/
def ListsGroup (G : Setoid String) (C : Catalogue) (key text : String) : Prop :=
  ∃ (k : C.Kind) (value : C.Response k) (listed : List String),
    Bundle.encode (C.codec k) ⟨value, listed⟩ = .ok text ∧ listed.Nodup ∧
      ∀ x, x ∈ listed ↔ G.r key x

/-- Every text lists the group of its key. -/
def groupLaw (G : Setoid String) (C : Catalogue) : Law C where
  Allows _ := ListsGroup G C
  mono _ h := h

namespace Operation

/-- The keys that an operation is about. -/
def group (G : Setoid String) : Operation C → String → Prop
  | store _ _ keys _, x => x ∈ Key.texts keys
  | find _ key, x => G.r key.text x
  | remove key, x => G.r key.text x

/-- What the operation writes it writes under one whole group. -/
def Fills (G : Setoid String) : Operation C → Prop
  | store _ _ keys _ => ∀ x ∈ Key.texts keys, ∀ y, y ∈ Key.texts keys ↔ G.r x y
  | find _ _ => True
  | remove _ => True

end Operation

namespace Key

lemma nodup_distinct (keys : List Key) : (distinct keys).Nodup := by
  unfold distinct
  -- the rest is searched without the first key, so it is shorter but no part of the list
  induction hn : keys.length using Nat.strong_induction_on generalizing keys with
  | _ n ih =>
    cases keys with
    | nil => exact List.nodup_nil
    | cons key keys =>
      rw [List.eraseDups_cons, List.nodup_cons]
      constructor
      · simp
      · refine ih _ ?_ _ rfl
        have hless := List.length_filter_le (fun other => !other == key) keys
        rw [List.length_cons] at hn
        omega

lemma nodup_texts (keys : List Key) : (texts keys).Nodup :=
  (nodup_distinct keys).map fun _ _ => text_injective

end Key

/-- An operation that writes under whole groups is confined to its group. -/
theorem Operation.Fills.confines {o : Operation C} (ho : o.Fills G) :
    (groupLaw G C).Confines [] (o.group G) (fun _ => True) o.action := by
  cases o with
  | store k value keys l =>
    refine Law.confines_store ?_
    intro text htext x hx
    exact ⟨⟨k, value, Key.texts keys, htext, Key.nodup_texts keys, ho x hx⟩, hx⟩
  | find k key => exact Law.confines_find (G.refl key.text)
  | remove key =>
    refine Law.confines_remove (G.refl key.text) ?_
    rintro text listed ⟨k, value, keys, htext, -, hgroup⟩ hlisted x hx
    rw [Bundle.decodeKeys?_encode htext] at hlisted
    cases hlisted
    exact (hgroup x).1 hx

/-- A removal through a key that can be read leaves nothing of the group, if each text lists the
group of its key. -/
lemma Scene.get?_remove_of_group {s : Scene C}
    (hlists : ∀ key e, s.memory.get? key = some e → ListsGroup G C key e.value) {key : Key}
    (hcontains : s.memory.contains s.clock key.text = true) {x : String} (hx : G.r key.text x) :
    (s.remove key).memory.get? x = none := by
  obtain ⟨e, hget, -⟩ := Memory.contains_eq_true_iff.1 hcontains
  obtain ⟨k, value, listed, htext, -, hgroup⟩ := hlists key.text e hget
  have hkey : key.text ∈ listed := (hgroup key.text).2 (G.refl key.text)
  have hvalue : ∀ e', s.memory.get? key.text = some e' → e'.value = e.value := by
    intro e' he'
    rw [hget] at he'
    cases he'
    rfl
  have hdoomed := Scene.doomed_of_contains htext hkey hvalue hcontains
  rw [Scene.get?_remove, hdoomed, if_pos ((hgroup x).2 hx)]

namespace Workload

/-- If everything that is written is written under whole groups, then in every state that can be
reached each key that is there holds a text that lists exactly its group; the changes of an
operation concern keys of its group only, and no step of it is seen under another key; and a
removal that runs alone, through any key that can be read, leaves nothing of its group. -/
theorem Reachable.groups_intact {t : Workload C} (ht : t.Reachable (Operation.Fills G)) :
    (∀ key e, t.commons.memory.get? key = some e → ListsGroup G C key e.value ∧
      ∃ listed, Bundle.decodeKeys? e.value = some listed ∧ listed.Nodup ∧
        ∀ x, x ∈ listed ↔ G.r key x) ∧
    (∀ (i : ℕ) (job : Job C), t.jobs[i]? = some job →
      (∀ flights next, job.course = .changing flights next →
        ∀ f ∈ flights, job.operation.group G f.change.key) ∧
      ∀ c course, Progress job.cancelled t.commons job.course c course →
        ∀ x, ¬ job.operation.group G x → c.memory.get? x = t.commons.memory.get? x) ∧
    ∀ (script : Script C) (key : Key),
      t.commons.memory.contains t.commons.clock key.text = true →
        (Scene.run script (Entry.remove key) t.commons.scene).1 = .ok () ∧
        ∀ x, G.r key.text x →
          (Scene.run script (Entry.remove key) t.commons.scene).2.memory.get? x = none := by
  have horderly : t.Orderly (groupLaw G C) (Operation.group G) :=
    ht.orderly fun o ho => ho.confines
  refine ⟨?_, ?_, ?_⟩
  · intro key e he
    obtain ⟨k, value, listed, htext, hnodup, hgroup⟩ := horderly.keeps key e he
    exact ⟨⟨k, value, listed, htext, hnodup, hgroup⟩, listed, Bundle.decodeKeys?_encode htext,
      hnodup, hgroup⟩
  · intro i job hi
    have hjob : job ∈ t.jobs := List.mem_of_getElem? hi
    constructor
    · intro flights next hcourse f hf
      have hconfined := horderly.confined job hjob
      rw [hcourse] at hconfined
      exact (hconfined.1 f hf).2
    · intro c course hprogress x hx
      exact horderly.get?_progress hjob hprogress hx
  · intro script key hcontains
    rw [Scene.run_remove]
    refine ⟨rfl, ?_⟩
    intro x hx
    exact Scene.get?_remove_of_group (s := t.commons.scene) horderly.keeps hcontains hx

end Workload

namespace Demo

/-- One and two are in one group, any other key is alone. -/
def twins : Setoid String := Setoid.ker fun x => if x = "two" then "one" else x

def twinKeys : List Key := [⟨"one"⟩, ⟨"two"⟩]

/-- A greeting is written under both keys. -/
def twin (greeting : String) : Operation catalogue := .store Kind.greeting greeting twinKeys {}

/-- What is written for a greeting. -/
def twinText (greeting : String) : String :=
  (Bundle.members (.members [("text", .text greeting)]) (Key.texts twinKeys)).render

/-- How both changes of a greeting begin. -/
def twinFlights (greeting : String) : List Flight :=
  ((Key.texts twinKeys).map (.put · (twinText greeting) {})).map .begun

lemma fills_twin (greeting : String) : (twin greeting).Fills twins := by
  have htexts : Key.texts twinKeys = ["one", "two"] := by decide
  intro x hx y
  change y ∈ Key.texts twinKeys ↔
    (if x = "two" then "one" else x) = if y = "two" then "one" else y
  rw [htexts, List.mem_pair] at *
  rcases hx with rfl | rfl
  · by_cases hy : y = "two" <;> simp [hy, eq_comm]
  · by_cases hy : y = "two" <;> simp [hy, eq_comm]

/-- A greeting may begin to be written at any time. -/
lemma exists_begun {t : Workload catalogue} (ht : t.Reachable (Operation.Fills twins))
    (greeting : String) :
    ∃ next, Workload.Reachable (Operation.Fills twins)
      { t with
        jobs := t.jobs ++ [⟨twin greeting, false, .changing (twinFlights greeting) next⟩] } := by
  obtain ⟨now, hsteps⟩ := ht
  have htext : Bundle.encode (catalogue.codec Kind.greeting) ⟨greeting, Key.texts twinKeys⟩ =
      .ok (twinText greeting) := Bundle.encode_eq_ok_iff.2 ⟨_, rfl, rfl⟩
  have hkeys : twinKeys ≠ [] := List.cons_ne_nil _ _
  obtain ⟨next, haction⟩ : ∃ next, (twin greeting).action =
      .ask (I := effects (handlings catalogue))
        (.apply ((Key.texts twinKeys).map (.put · (twinText greeting) {}))) next :=
    ⟨_, Entry.store_of_encode hkeys htext⟩
  have hbegin : Progress false t.commons (.running (twin greeting).action) t.commons
      (.changing (twinFlights greeting) next) := haction ▸ .begin
  have hstep : Workload.Step (Operation.Fills twins)
      { t with jobs := t.jobs ++ [⟨twin greeting, false, .running (twin greeting).action⟩] } _ :=
    .progress List.getElem?_concat_length hbegin
  rw [List.set_append_right _ _ (Nat.le_refl _), Nat.sub_self, List.set_cons_zero] at hstep
  exact ⟨next, now, (hsteps.tail (.begin (twin greeting) (fills_twin greeting))).tail hstep⟩

/-- Two greetings are half written, each under another key of the group.  A removal through the
first key takes both. -/
theorem groups_intact_twins :
    ∃ t : Workload catalogue, t.Reachable (Operation.Fills twins) ∧
      (t.commons.memory.get? "one").map Held.value = some (twinText "first") ∧
      (t.commons.memory.get? "two").map Held.value = some (twinText "second") ∧
      (Scene.run greetings (Entry.remove ⟨"one"⟩) t.commons.scene).1 = .ok () ∧
      ∀ x ∈ ["one", "two"],
        (Scene.run greetings (Entry.remove ⟨"one"⟩) t.commons.scene).2.memory.get? x = none := by
  have hstart : Workload.Reachable (C := catalogue) (Operation.Fills twins) (.start .epoch) :=
    ⟨.epoch, .refl⟩
  obtain ⟨next, hfirst⟩ := exists_begun hstart "first"
  obtain ⟨now, hsteps⟩ := hfirst
  have hone := hsteps.tail (.progress (i := 0) rfl (.land (j := 0) rfl))
  obtain ⟨next', now', hsteps'⟩ := exists_begun ⟨now, hone⟩ "second"
  have htwo := hsteps'.tail (.progress (i := 1) rfl (.land (j := 1) rfl))
  have ht : Workload.Reachable (Operation.Fills twins) _ := ⟨now', htwo⟩
  obtain ⟨-, -, hremove⟩ := ht.groups_intact
  obtain ⟨hok, hgone⟩ := hremove greetings ⟨"one"⟩ rfl
  refine ⟨_, ht, rfl, rfl, hok, ?_⟩
  intro x hx
  refine hgone x ?_
  rcases List.mem_pair.1 hx with rfl | rfl <;> rfl

end Demo

end RequestCache
