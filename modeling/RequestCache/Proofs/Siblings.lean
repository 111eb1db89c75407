/-
# Keys of one entry

An entry is one text under several keys, and the text lists them all, so each key of it tells
where the same text lies.  As long as operations succeed one after the other and nothing that is
written ever ends, a removal keeps it so: it takes the whole list, and a key of the list can be on
no other one.  A write keeps it so exactly if it covers what it writes over, that is if every
entry that loses one key to it loses all of them (`Scene.siblings_throughout_iff`).

A write that covers an entry in part leaves keys behind that still list the key they lost.
Whoever removes through them takes that key too, and whoever removes through that key leaves them
where they are (`Demo.siblings_parted`).
-/
import RequestCache.Proofs.Expiry
import RequestCache.Proofs.Groups

namespace RequestCache

variable {C : Catalogue} {script : Script C} {s : Scene C}

/-- An entry that never ends, under one of the keys that it lists. -/
structure Held.Rests (C : Catalogue) (x : String) (e : Held) : Prop where
  deadline : e.deadline = none
  window : e.window = none
  lists : ∃ (k : C.Kind) (value : C.Response k) (listed : List String),
    Bundle.encode (C.codec k) ⟨value, listed⟩ = .ok e.value ∧ x ∈ listed

namespace Operation

/-- The operation succeeds on the scene, and what it writes never ends. -/
def Succeeds (script : Script C) (s : Scene C) : Operation C → Prop
  | store k value keys l =>
    l.isEndless = true ∧ (Scene.run script (Entry.store (C.codec k) value keys l) s).1 = .ok ()
  | find k key => ∃ found, (Scene.run script (Entry.find (C.codec k) key) s).1 = .ok found
  | remove key => (Scene.run script (Entry.remove key) s).1 = .ok ()

/-- Every entry that the operation writes over is written over under all of its keys. -/
def Covers (s : Scene C) : Operation C → Prop
  | store _ _ keys _ => ∀ key ∈ keys, ∀ text listed, s.content key = some text →
    Bundle.decodeKeys? text = some listed → ∀ x ∈ listed, x ∈ Key.texts keys
  | find _ _ => True
  | remove _ => True

end Operation

namespace Scene

/-- Nothing is stored and nothing was handled. -/
def start (now : Instant) : Scene C := ⟨now, ∅, []⟩

/-- The scene after an operation. -/
def afterOne (script : Script C) (s : Scene C) (o : Instant × Operation C) : Scene C :=
  (run script o.2.action (s.atTime o.1)).2

/-- The scene after operations, one after the other, each at its own instant. -/
def after (script : Script C) (s : Scene C) (ops : List (Instant × Operation C)) : Scene C :=
  ops.foldl (afterOne script) s

/-- All of the operations succeed, and what they write never ends. -/
def AllSucceed (script : Script C) (s : Scene C) (ops : List (Instant × Operation C)) : Prop :=
  ∀ before o, before ++ [o] <+: ops → o.2.Succeeds script ((s.after script before).atTime o.1)

/-- Each key that a text lists holds the same text. -/
def Siblings (s : Scene C) : Prop :=
  ∀ key text listed, s.content key = some text → Bundle.decodeKeys? text = some listed →
    ∀ x ∈ listed, s.content ⟨x⟩ = some text

/-- All entries never end and list the key they lie under. -/
def AtRest (s : Scene C) : Prop := ∀ x e, s.memory.get? x = some e → e.Rests C x

lemma after_concat (ops : List (Instant × Operation C)) (o : Instant × Operation C) :
    s.after script (ops ++ [o]) = (s.after script ops).afterOne script o := by
  rw [after, List.foldl_append]
  rfl

/-! ## Entries that never end -/

lemma AtRest.atTime (h : s.AtRest) (now : Instant) : (s.atTime now).AtRest := h

lemma AtRest.live?_eq (h : s.AtRest) (x : String) :
    s.memory.live? s.clock x = s.memory.get? x := by
  cases hget : s.memory.get? x with
  | none => simp [Memory.live?, hget]
  | some e =>
    obtain ⟨hdeadline, hwindow, -⟩ := h x e hget
    exact Memory.live?_eq_some_iff.2 ⟨hget, by simp [Held.hasEnded, hdeadline, hwindow]⟩

lemma AtRest.content_eq (h : s.AtRest) (key : Key) :
    s.content key = (s.memory.get? key.text).map Held.value := by
  cases hget : s.memory.get? key.text with
  | none => exact content_of_not_live ((h.live?_eq key.text).trans hget)
  | some e =>
    obtain ⟨-, -, k, value, listed, htext, -⟩ := h key.text e hget
    exact content_of_live ((h.live?_eq key.text).trans hget) htext

/-- The time makes no difference to entries that never end. -/
lemma AtRest.content_atTime (h : s.AtRest) (now : Instant) (key : Key) :
    (s.atTime now).content key = s.content key := by
  rw [(h.atTime now).content_eq, h.content_eq]
  rfl

/-- Neither does a read. -/
lemma AtRest.get?_read (h : s.AtRest) (key : Key) (x : String) :
    (s.read key).memory.get? x = s.memory.get? x := by
  rw [Scene.get?_read, h.live?_eq]
  split_ifs with hx
  · subst hx
    cases hget : s.memory.get? key.text with
    | none => rfl
    | some e => simp [Held.touch, (h _ e hget).window]
  · rfl

lemma AtRest.read (h : s.AtRest) (key : Key) : (s.read key).AtRest := by
  intro x e he
  rw [h.get?_read] at he
  exact h x e he

lemma AtRest.content_read (h : s.AtRest) (key other : Key) :
    (s.read key).content other = s.content other := by
  rw [(h.read key).content_eq, h.content_eq, h.get?_read]

/-- What can be read under a key lists the key. -/
lemma AtRest.exists_listed (h : s.AtRest) {key : Key} {text : String}
    (htext : s.content key = some text) :
    ∃ listed, Bundle.decodeKeys? text = some listed ∧ key.text ∈ listed := by
  rw [h.content_eq] at htext
  obtain ⟨e, hget, rfl⟩ := Option.map_eq_some_iff.1 htext
  obtain ⟨-, -, k, value, listed, hencode, hkey⟩ := h key.text e hget
  exact ⟨listed, Bundle.decodeKeys?_encode hencode, hkey⟩

lemma AtRest.mem_listed (h : s.AtRest) {key : Key} {text : String} {listed : List String}
    (htext : s.content key = some text) (hlisted : Bundle.decodeKeys? text = some listed) :
    key.text ∈ listed := by
  obtain ⟨listed', hlisted', hmem⟩ := h.exists_listed htext
  rw [hlisted] at hlisted'
  cases hlisted'
  exact hmem

/-! ## What an operation leaves -/

section

variable {k : C.Kind} {value : C.Response k} {keys : List Key} {l : Lifetime} {text : String}

lemma get?_put_of_isEndless (hl : l.isEndless = true) (x : String) :
    (s.put (Key.texts keys) text l).memory.get? x =
      if x ∈ Key.texts keys then some ⟨text, none, none, s.clock⟩ else s.memory.get? x := by
  rw [get?_put s (Lifetime.check_of_isEndless hl), Held.fresh?_of_isEndless hl]

lemma AtRest.put (h : s.AtRest) (hl : l.isEndless = true)
    (htext : Bundle.encode (C.codec k) ⟨value, Key.texts keys⟩ = .ok text) :
    (s.put (Key.texts keys) text l).AtRest := by
  intro x e he
  rw [get?_put_of_isEndless hl] at he
  split_ifs at he with hx
  · cases he
    exact ⟨rfl, rfl, k, value, Key.texts keys, htext, hx⟩
  · exact h x e he

lemma AtRest.content_put (h : s.AtRest) (hl : l.isEndless = true)
    (htext : Bundle.encode (C.codec k) ⟨value, Key.texts keys⟩ = .ok text) (key : Key) :
    (s.put (Key.texts keys) text l).content key =
      if key ∈ keys then some text else s.content key := by
  rw [(h.put hl htext).content_eq, h.content_eq, get?_put_of_isEndless hl]
  simp only [Key.text_mem_texts]
  split_ifs <;> rfl

end

lemma AtRest.remove (h : s.AtRest) (key : Key) : (s.remove key).AtRest := by
  intro x e he
  rw [get?_remove] at he
  split_ifs at he
  exact h.read key x e he

lemma AtRest.content_remove (h : s.AtRest) (key other : Key) :
    (s.remove key).content other =
      if other.text ∈ s.doomed key then none else s.content other := by
  rw [(h.remove key).content_eq, h.content_eq, get?_remove, h.get?_read]
  split_ifs <;> rfl

/-- A removal takes the keys that are listed where it looks. -/
lemma AtRest.doomed_eq (h : s.AtRest) {key : Key} {text : String} {listed : List String}
    (htext : s.content key = some text) (hlisted : Bundle.decodeKeys? text = some listed) :
    s.doomed key = listed := by
  have hkey := h.mem_listed htext hlisted
  simp [doomed, htext, hlisted, Entry.doomed, hkey]

lemma doomed_of_content_eq_none {key : Key} (h : s.content key = none) : s.doomed key = [] := by
  rw [doomed, h]

/-- The two ways a write can succeed: there is no key to write under, or the text of the value is
written under all of them. -/
lemma run_store_of_succeeds {k : C.Kind} {value : C.Response k} {keys : List Key} {l : Lifetime}
    (h : (Operation.store k value keys l).Succeeds script s) :
    (keys = [] ∧ (run script (Operation.store k value keys l).action s).2 = s) ∨
      ∃ text, Bundle.encode (C.codec k) ⟨value, Key.texts keys⟩ = .ok text ∧
        (run script (Operation.store k value keys l).action s).2 =
          s.put (Key.texts keys) text l := by
  by_cases hkeys : keys = []
  · subst hkeys
    exact .inl ⟨rfl, rfl⟩
  · right
    obtain ⟨-, text, htext, hput⟩ := of_run_store_eq_ok script s hkeys (Prod.ext h.2 rfl)
    exact ⟨text, htext, hput⟩

lemma run_action_find (k : C.Kind) (key : Key) :
    (run script (Operation.find k key).action s).2 = s.read key :=
  congrArg Prod.snd (run_find script s (C.codec k) key)

lemma run_action_remove (key : Key) :
    (run script (Operation.remove (C := C) key).action s).2 = s.remove key :=
  congrArg Prod.snd (run_remove script s key)

lemma AtRest.run_action (h : s.AtRest) {o : Operation C} (ho : o.Succeeds script s) :
    (run script o.action s).2.AtRest := by
  cases o with
  | store k value keys l =>
    rcases run_store_of_succeeds ho with ⟨-, hsame⟩ | ⟨text, htext, hput⟩
    · rw [hsame]
      exact h
    · rw [hput]
      exact h.put ho.1 htext
  | find k key =>
    rw [run_action_find]
    exact h.read key
  | remove key =>
    rw [run_action_remove]
    exact h.remove key

/-! ## One operation -/

/-- A removal keeps siblings together: a key on its list is on no other one. -/
lemma Siblings.remove (hs : s.Siblings) (h : s.AtRest) (key : Key) : (s.remove key).Siblings := by
  intro other text listed htext hlisted x hx
  rw [h.content_remove] at htext ⊢
  split_ifs at htext with hother
  have hsame : s.content ⟨x⟩ = some text := hs other text listed htext hlisted x hx
  rw [if_neg, hsame]
  intro hdoomed
  cases hfound : s.content key with
  | none =>
    rw [doomed_of_content_eq_none hfound] at hdoomed
    cases hdoomed
  | some removed =>
    obtain ⟨gone, hgone, -⟩ := h.exists_listed hfound
    rw [h.doomed_eq hfound hgone] at hdoomed hother
    -- the key would hold both texts, so they are the same, and the other key would have gone too
    have hboth : some removed = some text :=
      (hs key removed gone hfound hgone x hdoomed).symm.trans hsame
    cases hboth
    exact hother (h.mem_listed htext hgone)

section

variable {k : C.Kind} {value : C.Response k} {keys : List Key} {l : Lifetime} {text : String}

lemma Siblings.put (hs : s.Siblings) (h : s.AtRest) (hl : l.isEndless = true)
    (htext : Bundle.encode (C.codec k) ⟨value, Key.texts keys⟩ = .ok text)
    (hcovers : (Operation.store k value keys l).Covers s) :
    (s.put (Key.texts keys) text l).Siblings := by
  intro key found listed hfound hlisted x hx
  rw [h.content_put hl htext] at hfound ⊢
  split_ifs at hfound with hkey
  · cases hfound
    rw [Bundle.decodeKeys?_encode htext] at hlisted
    cases hlisted
    exact if_pos (Key.text_mem_texts.1 hx)
  · have hsame := hs key found listed hfound hlisted x hx
    rw [if_neg, hsame]
    intro hmem
    -- an entry that loses one key loses all of them, but this one has kept a key
    have hin := hcovers ⟨x⟩ hmem found listed hsame hlisted key.text (h.mem_listed hfound hlisted)
    exact hkey (Key.text_mem_texts.1 hin)

lemma covers_of_siblings_put (hs : s.Siblings) (h : s.AtRest) (hl : l.isEndless = true)
    (htext : Bundle.encode (C.codec k) ⟨value, Key.texts keys⟩ = .ok text)
    (hput : (s.put (Key.texts keys) text l).Siblings) :
    (Operation.store k value keys l).Covers s := by
  intro key hkey found listed hfound hlisted x hx
  by_contra hout
  have hnotMem : (⟨x⟩ : Key) ∉ keys := fun hmem => hout (Key.text_mem_texts.2 hmem)
  -- the key that is left still lists the one that was written over
  have hleft : (s.put (Key.texts keys) text l).content ⟨x⟩ = some found := by
    rw [h.content_put hl htext, if_neg hnotMem]
    exact hs key found listed hfound hlisted x hx
  have hback := hput ⟨x⟩ found listed hleft hlisted key.text (h.mem_listed hfound hlisted)
  rw [h.content_put hl htext, if_pos hkey] at hback
  cases hback
  rw [Bundle.decodeKeys?_encode htext] at hlisted
  cases hlisted
  exact hout hx

end

/-- One step: siblings stay together exactly if the operation covers what it writes over. -/
theorem Siblings.run_action_iff (hs : s.Siblings) (h : s.AtRest) {o : Operation C}
    (ho : o.Succeeds script s) : (run script o.action s).2.Siblings ↔ o.Covers s := by
  cases o with
  | store k value keys l =>
    rcases run_store_of_succeeds ho with ⟨rfl, hsame⟩ | ⟨text, htext, hput⟩
    · rw [hsame]
      exact iff_of_true hs nofun
    · rw [hput]
      exact ⟨covers_of_siblings_put hs h ho.1 htext, hs.put h ho.1 htext⟩
  | find k key =>
    rw [run_action_find]
    refine iff_of_true ?_ trivial
    intro other text listed htext hlisted x hx
    rw [h.content_read] at htext ⊢
    exact hs other text listed htext hlisted x hx
  | remove key =>
    rw [run_action_remove]
    exact iff_of_true (hs.remove h key) trivial

/-! ## All operations -/

lemma atRest_after {ops : List (Instant × Operation C)} (h : s.AtRest)
    (hops : s.AllSucceed script ops) : (s.after script ops).AtRest := by
  induction ops using List.reverseRecOn with
  | nil => exact h
  | append_singleton ops o ih =>
    rw [after_concat]
    have hbefore := ih fun before o' hbegins => hops before o' (hbegins.trans ⟨[o], rfl⟩)
    exact (hbefore.atTime o.1).run_action (hops ops o (List.prefix_refl _))

lemma AtRest.siblings_atTime_iff (h : s.AtRest) (now : Instant) :
    (s.atTime now).Siblings ↔ s.Siblings := by
  simp only [Siblings, h.content_atTime]

lemma AtRest.covers_atTime_iff (h : s.AtRest) (now : Instant) (o : Operation C) :
    o.Covers (s.atTime now) ↔ o.Covers s := by
  cases o <;> simp only [Operation.Covers, h.content_atTime]

/-- If nothing that is written ever ends and operations succeed one after the other, beginning
with an empty store, then each key that a text lists holds the same text in every state on the
way, exactly if no write on the way covers an entry in part. -/
theorem siblings_throughout_iff (script : Script C) (now : Instant)
    {ops : List (Instant × Operation C)} (hops : (start now).AllSucceed script ops) :
    (∀ before, before <+: ops → ((start now).after script before).Siblings) ↔
      ∀ before o, before ++ [o] <+: ops → o.2.Covers ((start now).after script before) := by
  have hrest : ∀ before, before <+: ops → ((start now).after script before).AtRest := by
    intro before hbefore
    refine atRest_after ?_ fun before' o hbegins => hops before' o (hbegins.trans hbefore)
    rintro x e he
    cases he
  have hstep : ∀ before o, before ++ [o] <+: ops →
      ((start now).after script before).Siblings →
      (((start now).after script (before ++ [o])).Siblings ↔
        o.2.Covers ((start now).after script before)) := by
    intro before o hbegins hs
    have hbefore := hrest before ((List.prefix_append before [o]).trans hbegins)
    have hs' := (hbefore.siblings_atTime_iff o.1).2 hs
    rw [after_concat, afterOne, hs'.run_action_iff (hbefore.atTime o.1) (hops before o hbegins)]
    exact hbefore.covers_atTime_iff o.1 o.2
  -- both directions go from state to state: the invariant carries over as long as writes cover
  constructor
  · intro hall before o hbegins
    have hs := hall before ((List.prefix_append before [o]).trans hbegins)
    exact (hstep before o hbegins hs).1 (hall (before ++ [o]) hbegins)
  · intro hcovers before
    induction before using List.reverseRecOn with
    | nil =>
      intro _ key text listed htext
      cases htext
    | append_singleton before o ih =>
      intro hbegins
      have hs := ih ((List.prefix_append before [o]).trans hbegins)
      exact (hstep before o hbegins hs).2 (hcovers before o hbegins)

end Scene

namespace Demo

/-- A greeting is written under some keys, until it is removed. -/
def greetUnder (names : List String) (greeting : String) : Operation catalogue :=
  .store Kind.greeting greeting (names.map Key.mk) {}

/-- What is written for a greeting under some keys. -/
def greetingUnder (names : List String) (greeting : String) : String :=
  (Bundle.members (.members [("text", .text greeting)]) (Key.texts (names.map Key.mk))).render

lemma encode_greetingUnder (names : List String) (greeting : String) :
    Bundle.encode (catalogue.codec Kind.greeting) ⟨greeting, Key.texts (names.map Key.mk)⟩ =
      .ok (greetingUnder names greeting) := Bundle.encode_eq_ok_iff.2 ⟨_, rfl, rfl⟩

lemma decodeKeys?_greetingUnder (names : List String) (greeting : String) :
    Bundle.decodeKeys? (greetingUnder names greeting) = some (Key.texts (names.map Key.mk)) :=
  Bundle.decodeKeys?_encode (encode_greetingUnder names greeting)

section

variable {s : Scene catalogue} {names : List String} {greeting : String}

lemma run_greetUnder (hnames : names ≠ []) (greeting : String) (s : Scene catalogue) :
    Scene.run greetings (greetUnder names greeting).action s =
      (.ok (), s.put (Key.texts (names.map Key.mk)) (greetingUnder names greeting) {}) := by
  have hkeys : names.map Key.mk ≠ [] := by simpa using hnames
  exact Scene.run_store greetings s rfl hkeys (encode_greetingUnder names greeting)

lemma succeeds_greetUnder (hnames : names ≠ []) (greeting : String) (s : Scene catalogue) :
    (greetUnder names greeting).Succeeds greetings s :=
  ⟨rfl, congrArg Prod.fst (run_greetUnder hnames greeting s)⟩

lemma atRest_greetUnder (h : s.AtRest) (hnames : names ≠ []) (now : Instant) :
    (s.afterOne greetings (now, greetUnder names greeting)).AtRest :=
  (h.atTime now).run_action (succeeds_greetUnder hnames greeting _)

lemma content_greetUnder (h : s.AtRest) (hnames : names ≠ []) (now : Instant) (x : String) :
    (s.afterOne greetings (now, greetUnder names greeting)).content ⟨x⟩ =
      if x ∈ names then some (greetingUnder names greeting) else s.content ⟨x⟩ := by
  have hput : (s.afterOne greetings (now, greetUnder names greeting)) =
      (s.atTime now).put (Key.texts (names.map Key.mk)) (greetingUnder names greeting) {} :=
    congrArg Prod.snd (run_greetUnder hnames greeting (s.atTime now))
  rw [hput, (h.atTime now).content_put rfl (encode_greetingUnder names greeting),
    h.content_atTime]
  simp

end

lemma atRest_start (now : Instant) : (Scene.start now : Scene catalogue).AtRest := by
  rintro x e he
  cases he

/-- The second greeting takes all keys of the first one and a third key. -/
def widened : List (Instant × Operation catalogue) :=
  [(.epoch, greetUnder ["one", "two"] "first"),
    (minute 5, greetUnder ["one", "two", "three"] "second")]

lemma allSucceed_widened : (Scene.start .epoch).AllSucceed greetings widened := by
  rintro before o ⟨rest, hrest⟩
  have ho : o ∈ widened := hrest ▸ by simp
  rcases List.mem_pair.1 ho with rfl | rfl
  · exact succeeds_greetUnder (List.cons_ne_nil _ _) "first" _
  · exact succeeds_greetUnder (List.cons_ne_nil _ _) "second" _

/-- Both times each key that is listed holds the same text. -/
theorem siblings_widened :
    (Scene.start .epoch).AllSucceed greetings widened ∧
      ∀ before, before <+: widened →
        ((Scene.start .epoch).after greetings before).Siblings := by
  refine ⟨allSucceed_widened,
    (Scene.siblings_throughout_iff greetings .epoch allSucceed_widened).2 ?_⟩
  rintro before o ⟨rest, hrest⟩
  -- the first greeting meets no entry, and the second one has all keys of the first
  match before, hrest with
  | [], hrest =>
    cases hrest
    rintro key - text listed ⟨⟩
  | [_], hrest =>
    cases hrest
    intro key hkey text listed htext hlisted x hx
    rw [Scene.after, List.foldl_cons, List.foldl_nil,
      content_greetUnder (atRest_start _) (List.cons_ne_nil _ _)] at htext
    split_ifs at htext
    · cases htext
      rw [decodeKeys?_greetingUnder] at hlisted
      cases hlisted
      revert x
      decide
    · cases htext
  | _ :: _ :: _, hrest =>
    have hlength := congrArg List.length hrest
    simp [widened] at hlength

/-- The second greeting takes one of the two keys of the first one and a third key. -/
def parted : List (Instant × Operation catalogue) :=
  [(.epoch, greetUnder ["one", "two"] "first"),
    (minute 5, greetUnder ["two", "three"] "second")]

/-- Both writes succeed, and then the first key holds a text that lists the second one, where
another text lies. -/
theorem siblings_parted :
    (Scene.start .epoch).AllSucceed greetings parted ∧
      ((Scene.start .epoch).after greetings parted).content ⟨"one"⟩ =
        some (greetingUnder ["one", "two"] "first") ∧
      ((Scene.start .epoch).after greetings parted).content ⟨"two"⟩ =
        some (greetingUnder ["two", "three"] "second") ∧
      ¬ ((Scene.start .epoch).after greetings parted).Siblings := by
  have hfirst : ((Scene.start .epoch).afterOne greetings
      (.epoch, greetUnder ["one", "two"] "first")).AtRest :=
    atRest_greetUnder (atRest_start .epoch) (List.cons_ne_nil _ _) .epoch
  have hone : ((Scene.start .epoch).after greetings parted).content ⟨"one"⟩ =
      some (greetingUnder ["one", "two"] "first") := by
    rw [Scene.after, parted, List.foldl_cons, List.foldl_cons, List.foldl_nil,
      content_greetUnder hfirst (List.cons_ne_nil _ _), if_neg (by decide),
      content_greetUnder (atRest_start _) (List.cons_ne_nil _ _), if_pos (by decide)]
  have htwo : ((Scene.start .epoch).after greetings parted).content ⟨"two"⟩ =
      some (greetingUnder ["two", "three"] "second") := by
    rw [Scene.after, parted, List.foldl_cons, List.foldl_cons, List.foldl_nil,
      content_greetUnder hfirst (List.cons_ne_nil _ _), if_pos (by decide)]
  refine ⟨?_, hone, htwo, ?_⟩
  · rintro before o ⟨rest, hrest⟩
    have ho : o ∈ parted := hrest ▸ by simp
    rcases List.mem_pair.1 ho with rfl | rfl
    · exact succeeds_greetUnder (List.cons_ne_nil _ _) "first" _
    · exact succeeds_greetUnder (List.cons_ne_nil _ _) "second" _
  · intro hs
    have hsame := hs ⟨"one"⟩ _ _ hone (decodeKeys?_greetingUnder _ _) "two" (by decide)
    rw [htwo] at hsame
    -- the texts differ, for they list different keys
    have hlisted := congrArg Bundle.decodeKeys? (Option.some.inj hsame)
    rw [decodeKeys?_greetingUnder, decodeKeys?_greetingUnder] at hlisted
    exact absurd hlisted (by decide)

end Demo

end RequestCache
