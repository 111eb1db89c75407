/-
# Trying a removal again

The removals of the keys of an entry do not wait for one another, so when some of them fail, or
the operation is cancelled while they are on their way, any set of them may have taken effect
(`Trouble`).  The error says that it might help to try again.  It does help if the entry can
still be read under the key that the removal is tried through, because it is read first, and there
the other keys are learned from.  If the removal of that very key is among those that took effect,
the second attempt finds nothing and reports success, and the other keys stay as they are
(`retry_completes_iff`).
-/
import RequestCache.Proofs.Cascade

namespace RequestCache

variable {C : Catalogue} {script : Script C} {α β : Type}

/-- How the changes of an operation that goes wrong fare. -/
structure Trouble where
  /-- The keys whose changes take effect. -/
  lands : String → Bool
  /-- What the other changes are answered with; nothing is answered if the operation is cancelled
  while its changes are on their way. -/
  fault : Option (String → StoreFault)

namespace Scene

/-- Answers an effect at once, changes in trouble. -/
def answerIn (t : Trouble) (script : Script C) :
    (e : Effect (handlings C)) → Scene C → e.Answer × Scene C
  | .apply cs, s =>
    (t.fault.map fun fault => cs.map fun c =>
        if t.lands c.key then .ok () else .error (fault c.key),
      s.change (cs.filter fun c => t.lands c.key))
  | e, s => answer script e s

/-- Runs an action on a scene, its changes in trouble. -/
def runIn (t : Trouble) (script : Script C) (p : Action (handlings C) α) (s : Scene C) :
    α × Scene C :=
  Program.run (answerIn t script) p s

section

variable (t : Trouble) (script : Script C) (s : Scene C)

lemma runIn_bind (p : Action (handlings C) α) (f : α → Action (handlings C) β) :
    runIn t script (p >>= f) s =
      runIn t script (f (runIn t script p s).1) (runIn t script p s).2 :=
  Program.run_bind _ p f s

lemma runIn_content (key : Key) :
    runIn t script (Entry.content key) s = (.ok (s.content key), s.read key) :=
  run_content script s key

lemma runIn_changeAll (operation : String) (change : String → Change) (keys : List String) :
    (runIn t script (Entry.changeAll operation change keys) s).2 =
      s.change ((keys.map change).filter fun c => t.lands c.key) := by
  rw [Entry.changeAll, runIn_bind]
  rcases t with ⟨lands, fault⟩
  cases fault <;> rfl

/-- A removal in trouble through a key whose entry lists some keys removes those of them that
its trouble lets it. -/
lemma runIn_remove {c : Json.Codec α} {value : α} {keys : List String} {text : String}
    (htext : Bundle.encode c ⟨value, keys⟩ = .ok text) {key : Key} (hkey : key.text ∈ keys)
    (hvalue : ∀ e, s.memory.get? key.text = some e → e.value = text)
    (hcontains : s.memory.contains s.clock key.text = true) :
    (runIn t script (Entry.remove key) s).2 =
      (s.read key).change ((keys.filter t.lands).map .delete) := by
  have hdoomed := doomed_of_contains htext hkey hvalue hcontains
  obtain ⟨e, hget, hended⟩ := Memory.contains_eq_true_iff.1 hcontains
  have hbundle := hvalue e hget ▸ htext
  have hcontent := content_of_live (Memory.live?_eq_some_iff.2 ⟨hget, hended⟩) hbundle
  have hrun : (runIn t script (Entry.remove key) s).2 =
      (s.read key).change ((keys.map .delete).filter fun c => t.lands c.key) := by
    rw [Entry.remove, runIn_bind, runIn_content, hcontent]
    simp only [doomed, hcontent, Bundle.decodeKeys?_encode hbundle] at hdoomed ⊢
    rw [hdoomed]
    exact runIn_changeAll t script _ _ _ _
  rw [hrun, List.filter_map]
  rfl

end

/-- After a scene nothing was written under some keys; anything else may have happened. -/
inductive Unwritten (keys : List String) (start : Scene C) : Scene C → Prop
  | start : Unwritten keys start start
  /-- The clock is moved. -/
  | wait {s : Scene C} {now : Instant} (h : Unwritten keys start s) (hnow : s.clock ≤ now) :
      Unwritten keys start (s.atTime now)
  /-- A key is read. -/
  | read {s : Scene C} (h : Unwritten keys start s) (key : Key) :
      Unwritten keys start (s.read key)
  /-- A change is made, which writes under none of the keys. -/
  | change {s : Scene C} (h : Unwritten keys start s) (c : Change)
      (hc : ∀ x text l, c = .put x text l → x ∉ keys) : Unwritten keys start (s.change [c])
  /-- What has ended is cleared away. -/
  | purge {s : Scene C} (h : Unwritten keys start s) :
      Unwritten keys start (s.withMemory (s.memory.purge s.clock).2)
  /-- A request is handled. -/
  | handle {s : Scene C} (h : Unwritten keys start s) (handling : Handling C) :
      Unwritten keys start (s.handle handling)

variable {keys : List String} {start s : Scene C}

/-- What lies under the keys was there before. -/
lemma Unwritten.exists_get? (h : Unwritten keys start s) {x : String} (hx : x ∈ keys) {e : Held}
    (he : s.memory.get? x = some e) :
    ∃ e', start.memory.get? x = some e' ∧ e'.value = e.value := by
  induction h generalizing e with
  | start => exact ⟨e, he, rfl⟩
  | wait _ _ ih => exact ih he
  | read _ key ih =>
    obtain ⟨e', he', hvalue⟩ := Memory.exists_get?_of_get?_read he
    obtain ⟨e'', he'', hvalue'⟩ := ih he'
    exact ⟨e'', he'', hvalue'.trans hvalue⟩
  | change _ c hc ih =>
    rcases Memory.exists_get?_of_get?_change he with hget | ⟨l, rfl⟩
    · exact ih hget
    · exact absurd hx (hc x e.value l rfl)
  | purge _ ih =>
    exact ih (Memory.live?_eq_some_iff.1 ((Memory.get?_purge x).symm.trans he)).1
  | handle _ _ ih => exact ih he

/-- A key that can be read held something all the time. -/
lemma Unwritten.get?_ne_none (h : Unwritten keys start s) {x : String} (hx : x ∈ keys)
    (hcontains : s.memory.contains s.clock x = true) : start.memory.get? x ≠ none := by
  obtain ⟨e, hget, -⟩ := Memory.contains_eq_true_iff.1 hcontains
  obtain ⟨e', hget', -⟩ := h.exists_get? hx hget
  simp [hget']

/-- When a removal that went wrong is tried again without trouble, it reports success.  No key of
the entry can be read after that exactly when the key that it was tried through could be read
when the second attempt began, or none could.  What can be read after the first attempt is what
could be read before and was not removed, and nothing comes back until the second one. -/
theorem retry_completes_iff {t : Trouble} {c : Json.Codec α} {value : α} {keys : List Key}
    {l : Lifetime} {key : Key} {start written before after again : Scene C}
    (hkey : key ∈ keys)
    (hstore : run script (Entry.store c value keys l) start = (.ok (), written))
    (hbefore : Unwritten (Key.texts keys) written before)
    (hreadable : before.memory.contains before.clock key.text = true)
    (hafter : (runIn t script (Entry.remove key) before).2 = after)
    (hagain : Unwritten (Key.texts keys) after again) :
    (run script (Entry.remove key) again).1 = .ok () ∧
      ((∀ x ∈ keys, (run script (Entry.remove key) again).2.memory.contains again.clock x.text =
          false) ↔
        again.memory.contains again.clock key.text = true ∨
          ∀ x ∈ keys, again.memory.contains again.clock x.text = false) ∧
      ∀ x ∈ keys,
        (after.memory.contains after.clock x.text = true ↔
          before.memory.contains before.clock x.text = true ∧ t.lands x.text = false) ∧
        (again.memory.contains again.clock x.text = true → t.lands x.text = false) := by
  obtain ⟨hl, text, htext, rfl⟩ := of_run_store_eq_ok script start
    (List.ne_nil_of_mem hkey) hstore
  have hkey' := Key.text_mem_texts.2 hkey
  have hput : ∀ x ∈ Key.texts keys, ∀ e,
      (start.put (Key.texts keys) text l).memory.get? x = some e → e.value = text := by
    intro x hx e he
    rw [get?_put start hl, if_pos hx] at he
    exact Held.value_of_fresh? he
  have htexts : ∀ x ∈ Key.texts keys, ∀ e, before.memory.get? x = some e → e.value = text := by
    intro x hx e he
    obtain ⟨e', he', hvalue⟩ := hbefore.exists_get? hx he
    exact hvalue.symm.trans (hput x hx e' he')
  rw [runIn_remove t script before htext hkey' (htexts _ hkey') hreadable] at hafter
  have hleft : ∀ x, after.memory.get? x =
      if x ∈ Key.texts keys ∧ t.lands x = true then none else (before.read key).memory.get? x := by
    intro x
    rw [← hafter, get?_delete]
    simp [List.mem_filter]
  have hclock : after.clock = before.clock := by
    rw [← hafter]
    rfl
  have htextAgain : ∀ e, again.memory.get? key.text = some e → e.value = text := by
    intro e he
    obtain ⟨e', he', hvalue⟩ := hagain.exists_get? hkey' he
    rw [hleft] at he'
    split_ifs at he'
    obtain ⟨e'', he'', hvalue'⟩ := Memory.exists_get?_of_get?_read he'
    rw [← hvalue, ← hvalue']
    exact htexts _ hkey' e'' he''
  refine ⟨by rw [run_remove], ?_, ?_⟩
  · rw [run_remove]
    cases hcontains : again.memory.contains again.clock key.text with
    | true =>
      have hdoomed := doomed_of_contains htext hkey' htextAgain hcontains
      have hgone : ∀ x ∈ keys, (again.remove key).memory.contains again.clock x.text = false := by
        intro x hx
        refine Memory.contains_of_get?_eq_none ?_
        rw [get?_remove, hdoomed, if_pos (Key.text_mem_texts.2 hx)]
      simpa using hgone
    | false =>
      have hsame : ∀ x, (again.remove key).memory.contains again.clock x =
          again.memory.contains again.clock x := by
        intro x
        rw [remove, doomed_of_not_contains hcontains]
        exact contains_read key x
      simp [hsame]
  · intro x hx
    have hx' := Key.text_mem_texts.2 hx
    constructor
    · rw [hclock]
      cases hlands : t.lands x.text with
      | true =>
        have hnone : after.memory.get? x.text = none := (hleft x.text).trans (if_pos ⟨hx', hlands⟩)
        simp [Memory.contains_of_get?_eq_none hnone]
      | false =>
        have hsame : after.memory.get? x.text = (before.read key).memory.get? x.text :=
          (hleft x.text).trans (if_neg (by simp [hlands]))
        have hcontains := contains_read (s := before) key x.text
        rw [← Memory.contains_congr hsame] at hcontains
        simp [hcontains]
    · intro hcontains
      have hne := hagain.get?_ne_none hx' hcontains
      rw [hleft] at hne
      by_contra hlands
      rw [Bool.not_eq_false] at hlands
      exact hne (if_pos ⟨hx', hlands⟩)

end Scene

namespace Demo

/-- A greeting under two keys. -/
def greetingKeys : List Key := [⟨"one"⟩, ⟨"hello"⟩]

/-- The scene after a greeting was written under both keys. -/
def greeted : Scene catalogue :=
  (Scene.run greetings (Entry.store .text "hello" greetingKeys {}) ⟨.epoch, ∅, []⟩).2

/-- The removal of the first key takes effect, the store is out of reach for the other one. -/
def halfWay : Trouble where
  lands key := key == "one"
  fault := some fun _ => .unavailable "out of reach"

/-- The scene after a removal through a key went wrong half way. -/
def halfRemoved (key : Key) : Scene catalogue :=
  (Scene.runIn halfWay greetings (Entry.remove key) greeted).2

lemma run_store_greeting :
    Scene.run greetings (Entry.store .text "hello" greetingKeys {})
      (⟨.epoch, ∅, []⟩ : Scene catalogue) = (.ok (), greeted) :=
  Scene.run_store greetings _ rfl (by decide) rfl

/-- Tried again through the key that is left, the removal is completed. -/
theorem retry_through_what_is_left :
    (Scene.run greetings (Entry.remove ⟨"hello"⟩) (halfRemoved ⟨"hello"⟩)).1 = .ok () ∧
      ∀ x ∈ greetingKeys, (Scene.run greetings (Entry.remove ⟨"hello"⟩)
        (halfRemoved ⟨"hello"⟩)).2.memory.contains .epoch x.text = false := by
  have hkey : (⟨"hello"⟩ : Key) ∈ greetingKeys := by decide
  obtain ⟨hok, hcomplete, -⟩ := Scene.retry_completes_iff (t := halfWay) hkey run_store_greeting
    .start (by decide +kernel) rfl .start
  exact ⟨hok, hcomplete.2 (.inl (by decide +kernel))⟩

/-- Tried again through the key that is gone, the removal reports success and does nothing, though
the first attempt said that it might help to try again. -/
theorem retry_through_what_is_gone :
    (Scene.run greetings (Entry.store .text "hello" greetingKeys {})
        (⟨.epoch, ∅, []⟩ : Scene catalogue)).1 = .ok () ∧
      (∃ e, (Scene.runIn halfWay greetings (Entry.remove ⟨"one"⟩) greeted).1 = .error e ∧
        e.isTemporary = true) ∧
      (Scene.run greetings (Entry.remove ⟨"one"⟩) (halfRemoved ⟨"one"⟩)).1 = .ok () ∧
      (Scene.run greetings (Entry.remove ⟨"one"⟩) (halfRemoved ⟨"one"⟩)).2.memory.contains .epoch
        "hello" = true := by
  refine ⟨by rw [run_store_greeting], ?_, by rw [Scene.run_remove], by decide +kernel⟩
  have hfails : (match (Scene.runIn halfWay greetings (Entry.remove ⟨"one"⟩) greeted).1 with
      | .error e => e.isTemporary
      | .ok () => false) = true := by
    decide +kernel
  split at hfails
  case h_1 e he => exact ⟨e, he, hfails⟩
  case h_2 => cases hfails

end Demo

end RequestCache
