/-
# Bundles are read back

The text of a bundle always gives back its keys (`decodeKeys?_encode`), whatever its value is
and however deep it nests: reading the keys passes over the value.  The value itself comes back
as its codec makes it from the text of the value one bracket further in (`decode?_encode`), so
how much is known about it depends on the codec alone (`Codec.Restores`, `Codec.IsHonest`).

To store a response is to write its bundle under all keys, if there are any and it has a text, and
otherwise to fail at once (`Plan.store_of_encode` and the lemmas around it).
-/
import RequestCache.Cache.Plan
import RequestCache.Proofs.Json.Reading

namespace RequestCache

open Json

variable {α : Type}

namespace Json

lemma Codec.write_texts (keys : List String) :
    (Codec.list Codec.text).write keys = .ok (.items (keys.map .text)) := by
  have hall : keys.mapM Codec.text.write = .ok (keys.map .text) := by
    induction keys with
    | nil => rfl
    | cons key keys ih =>
      rw [List.mapM_cons, ih]
      rfl
  change (keys.mapM Codec.text.write).map Value.items = _
  rw [hall]
  rfl

lemma Codec.read_texts (depth : ℕ) (keys : List String) :
    (Codec.list Codec.text).read (depth + 1) (Value.items (keys.map .text)).tree =
      some keys := by
  have hall : (Value.trees (keys.map .text)).mapM (Codec.text.read depth) = some keys := by
    induction keys with
    | nil => rfl
    | cons key keys ih =>
      rw [List.map_cons, Value.trees, List.mapM_cons, ih]
      rfl
  exact hall

/-- What a value is read back as where it stands in a bundle, one bracket further in than where
it stands alone. -/
def Codec.reread (c : Codec α) (a : α) : Option α :=
  match c.render a with
  | .ok text => (Tree.parse? text).bind (c.read (maxDepth - 1))
  | .error _ => none

lemma Codec.reread_of_write {c : Codec α} {a : α} {v : Value} (h : c.write a = .ok v) :
    c.reread a = c.read (maxDepth - 1) v.tree := by
  rw [reread, render, h]
  simp [Except.map, parse?_render]

/-- A value comes back from its text. -/
def Codec.Restores (c : Codec α) (a : α) : Prop := c.reread a = some a

/-- A text that is read at all is read as the value that was written. -/
def Codec.IsHonest (c : Codec α) : Prop := ∀ a b, c.reread a = some b → b = a

end Json

namespace Bundle

/-- The members that a bundle is written as. -/
def members (v : Value) (keys : List String) : Value :=
  .members [("value", v), ("keys", .items (keys.map .text))]

lemma write_codec (c : Codec α) (b : Bundle α) :
    (codec c).write b = (c.write b.value).map fun v => members v b.keys := by
  cases hv : c.write b.value with
  | error message =>
    simp only [codec, Codec.record₂, hv]
    rfl
  | ok v =>
    simp only [codec, Codec.record₂, hv, Codec.write_texts]
    rfl

lemma encode_eq_ok_iff {c : Codec α} {b : Bundle α} {text : String} :
    encode c b = .ok text ↔ ∃ v, c.write b.value = .ok v ∧ (members v b.keys).render = text := by
  rw [encode, Codec.render, write_codec]
  cases c.write b.value <;> simp [Except.map]

lemma fields?_members (v : Value) (keys : List String) :
    (members v keys).tree.fields? ["value", "keys"] =
      some [some v.tree, some (Value.items (keys.map .text)).tree] := by
  simp [members, Value.tree, Value.memberTrees, Tree.fields?, membersNamed?]

lemma fields?_members_keys (v : Value) (keys : List String) :
    (members v keys).tree.fields? ["keys"] =
      some [some (Value.items (keys.map .text)).tree] := by
  simp [members, Value.tree, Value.memberTrees, Tree.fields?, membersNamed?]

/-- The keys of a bundle come back from its text, whatever the value is. -/
theorem decodeKeys?_encode {c : Codec α} {b : Bundle α} {text : String}
    (h : encode c b = .ok text) : decodeKeys? text = some b.keys := by
  obtain ⟨v, -, rfl⟩ := encode_eq_ok_iff.1 h
  rw [decodeKeys?, Codec.parse?, parse?_render]
  change keysCodec.read (126 + 1) (members v b.keys).tree = some b.keys
  simp only [keysCodec, Codec.record₁, fields?_members_keys]
  exact Codec.read_texts 125 b.keys

/-- The value of a bundle comes back as its codec reads it one bracket further in. -/
theorem decode?_encode {c : Codec α} {b : Bundle α} {text : String}
    (h : encode c b = .ok text) : decode? c text = (c.reread b.value).map (⟨·, b.keys⟩) := by
  obtain ⟨v, hv, rfl⟩ := encode_eq_ok_iff.1 h
  have hreread : c.reread b.value = c.read 126 v.tree := Codec.reread_of_write hv
  rw [decode?, Codec.parse?, parse?_render, hreread]
  change (codec c).read (126 + 1) (members v b.keys).tree = _
  have hkeys := Codec.read_texts 125 b.keys
  simp only [codec, Codec.record₂, fields?_members, Codec.readField, hkeys]
  cases c.read 126 v.tree <;> rfl

/-- A value that comes back from its text can be stored, and comes back from there. -/
theorem exists_encode_of_restores {c : Codec α} {a : α} (h : c.Restores a) (keys : List String) :
    ∃ text, Bundle.encode c ⟨a, keys⟩ = .ok text ∧ decode? c text = some ⟨a, keys⟩ := by
  cases hv : c.write a with
  | error message => simp [Codec.Restores, Codec.reread, Codec.render, hv, Except.map] at h
  | ok v =>
    have htext : Bundle.encode c ⟨a, keys⟩ = .ok (members v keys).render :=
      encode_eq_ok_iff.2 ⟨v, hv, rfl⟩
    refine ⟨_, htext, ?_⟩
    rw [decode?_encode htext, h]
    rfl

/-- No text of a bundle is blank. -/
theorem isBlank_encode {c : Codec α} {b : Bundle α} {text : String} (h : encode c b = .ok text) :
    isBlank text = false := by
  obtain ⟨v, -, rfl⟩ := encode_eq_ok_iff.1 h
  simp only [members, Value.render, Value.write, isBlank, String.toList_ofList, List.all_cons]
  rfl

end Bundle

/-! ## What is written for an entry -/

namespace Key

lemma text_injective {key other : Key} (h : key.text = other.text) : key = other := by
  cases key
  cases other
  exact congrArg Key.mk h

/-- The keys of a list, each once, as the store knows them. -/
def texts (keys : List Key) : List String := (distinct keys).map text

lemma mem_texts {keys : List Key} {x : String} :
    x ∈ texts keys ↔ ∃ key ∈ keys, key.text = x := by
  simp [texts, distinct]

lemma text_mem_texts {keys : List Key} {key : Key} : key.text ∈ texts keys ↔ key ∈ keys := by
  rw [mem_texts]
  constructor
  · rintro ⟨other, hother, htext⟩
    rwa [← text_injective htext]
  · intro hkey
    exact ⟨key, hkey, rfl⟩

lemma texts_ne_nil {keys : List Key} (h : keys ≠ []) : texts keys ≠ [] := by
  obtain ⟨key, hkey⟩ := List.exists_mem_of_ne_nil keys h
  exact List.ne_nil_of_mem (text_mem_texts.2 hkey)

lemma not_isEmpty_texts {keys : List Key} (h : keys ≠ []) : ¬(texts keys).isEmpty = true :=
  fun hempty => texts_ne_nil h (List.isEmpty_iff.1 hempty)

end Key

namespace Entry

variable {W : Interface} {c : Codec α} {value : α} {keys : List Key} {l : Lifetime}

/-- An entry is its text under each of its keys. -/
lemma store_of_encode (hkeys : keys ≠ []) {text : String}
    (htext : Bundle.encode c ⟨value, Key.texts keys⟩ = .ok text) :
    store (W := W) c value keys l = changeAll "set" (.put · text l) (Key.texts keys) := by
  have hempty := Key.not_isEmpty_texts hkeys
  unfold Key.texts at hempty htext ⊢
  rw [store, if_neg hempty, htext]

/-- Without a written form there is no entry, and nothing is asked for. -/
lemma store_of_not_encode (hkeys : keys ≠ []) {message : String}
    (htext : Bundle.encode c ⟨value, Key.texts keys⟩ = .error message) :
    store (W := W) c value keys l = .done (.error (.unwritable message)) := by
  have hempty := Key.not_isEmpty_texts hkeys
  unfold Key.texts at hempty htext
  rw [store, if_neg hempty, htext]
  rfl

/-- What is not written under any key is refused at once, or there is nothing to write. -/
lemma store_cases (c : Codec α) (value : α) (keys : List Key) (l : Lifetime) :
    (∃ outcome, store (W := W) c value keys l = .done outcome ∧
        (outcome = .ok () → keys = [])) ∨
      ∃ text, Bundle.encode c ⟨value, Key.texts keys⟩ = .ok text ∧
        store (W := W) c value keys l = changeAll "set" (.put · text l) (Key.texts keys) := by
  by_cases hkeys : keys = []
  · subst hkeys
    exact .inl ⟨.ok (), rfl, fun _ => rfl⟩
  · cases htext : Bundle.encode c ⟨value, Key.texts keys⟩ with
    | ok text => exact .inr ⟨text, rfl, store_of_encode hkeys htext⟩
    | error message =>
      refine .inl ⟨.error (.unwritable message), store_of_not_encode hkeys htext, ?_⟩
      rintro h
      cases h

end Entry

namespace Plan

variable {C : Catalogue} {W : Interface} {k : C.Kind} {p : Plan C k} {request : C.Request k}
  {response : C.Response k}

/-- Without keys a plan stores nothing, and says so before it asks for anything. -/
lemma store_of_no_keys (h : p.entryKeys request response = []) :
    p.store (W := W) request response = .done (.error (.noKeys (C.name k))) := by
  rw [store, h]
  rfl

/-- With keys it is left to the entry to be stored under them. -/
lemma store_of_keys (h : p.entryKeys request response ≠ []) :
    p.store (W := W) request response =
      Entry.store (C.codec k) response (p.entryKeys request response) p.expiration.lifetime :=
  if_neg fun hempty => h (List.isEmpty_iff.1 hempty)

lemma store_of_encode (hkeys : p.entryKeys request response ≠ []) {text : String}
    (htext : Bundle.encode (C.codec k) ⟨response, Key.texts (p.entryKeys request response)⟩ =
      .ok text) :
    p.store (W := W) request response =
      Entry.changeAll "set" (.put · text p.expiration.lifetime)
        (Key.texts (p.entryKeys request response)) :=
  (store_of_keys hkeys).trans (Entry.store_of_encode hkeys htext)

lemma store_of_not_encode (hkeys : p.entryKeys request response ≠ []) {message : String}
    (htext : Bundle.encode (C.codec k) ⟨response, Key.texts (p.entryKeys request response)⟩ =
      .error message) :
    p.store (W := W) request response = .done (.error (.unwritable message)) :=
  (store_of_keys hkeys).trans (Entry.store_of_not_encode hkeys htext)

end Plan

end RequestCache
