/-
# Two readers of one text

What lies under a key is read whole by one who wants the value, and for its keys alone by one who
wants to remove it.  Both accept an object, whatever else stands in it: the second passes over
everything but the list of keys, the value included, so it accepts whatever the first does and
finds the same keys (`Bundle.decodeKeys?_of_isObject`).

A record may also be read from a list of its fields in order.  Then the two disagree, because
they do not have the same fields: a list of a value and keys is a whole bundle, and it is no list
of keys (`Bundle.decodeKeys?_of_not_isObject`).  Such a text is served, and its removal takes it
for one that says nothing, and leaves the other keys where they are (`Entry.remove_agrees_iff`).
-/
import RequestCache.Proofs.Overlap

namespace RequestCache

open Json

variable {α : Type}

/-! ## What both read -/

namespace Bundle

/-- The text is an object. -/
def IsObject (text : String) : Prop := ∃ ms, Tree.parse? text = some (.members ms)

/-- Fewer members are found where more of them are. -/
lemma membersNamed?_of_cons {name : String} {names : List String}
    {ms : List (Option String × Tree)} {field : Option Tree} {fields : List (Option Tree)}
    (h : membersNamed? (name :: names) ms = some (field :: fields)) :
    membersNamed? names ms = some fields := by
  unfold membersNamed? at h ⊢
  split_ifs at h ⊢ with hbroken
  simp only [List.mapM_cons, Option.bind_eq_bind, Option.bind_eq_some_iff, Option.pure_def,
    Option.some.injEq, List.cons.injEq] at h
  obtain ⟨_, -, rest, hrest, -, rfl⟩ := h
  exact hrest

/-- A bundle is an object with a value and keys, or a list of the two. -/
lemma exists_fields_of_decode? {c : Codec α} {text : String} {b : Bundle α}
    (h : decode? c text = some b) :
    ∃ t value keys, Tree.parse? text = some t ∧ t.fields? ["value", "keys"] = some [value, keys] ∧
      (Codec.list .text).readField 126 keys = some b.keys := by
  obtain ⟨t, ht, hread⟩ := Option.bind_eq_some_iff.1 h
  change ((Codec.record₂ "value" c "keys" (.list .text)).read (126 + 1) t).map _ = some b at hread
  obtain ⟨⟨value, keys⟩, hrecord, rfl⟩ := Option.map_eq_some_iff.1 hread
  unfold Codec.record₂ at hrecord
  dsimp only at hrecord
  split at hrecord
  · rename_i value? keys? hfields
    simp only [Option.bind_eq_bind, Option.bind_eq_some_iff, Option.pure_def, Option.some.injEq,
      Prod.mk.injEq] at hrecord
    obtain ⟨_, -, _, hkeys, -, rfl⟩ := hrecord
    exact ⟨t, value?, keys?, ht, hfields, hkeys⟩
  · cases hrecord

/-- Whatever is read as a bundle from an object is read for its keys as well. -/
theorem decodeKeys?_of_isObject {c : Codec α} {text : String} {b : Bundle α}
    (h : decode? c text = some b) (hobject : IsObject text) : decodeKeys? text = some b.keys := by
  obtain ⟨t, value, keys, ht, hfields, hkeys⟩ := exists_fields_of_decode? h
  obtain ⟨ms, hms⟩ := hobject
  cases ht.symm.trans hms
  have hfields' : (Tree.members ms).fields? ["keys"] = some [keys] := membersNamed?_of_cons hfields
  rw [decodeKeys?, Codec.parse?, hms, Option.bind_some]
  change keysCodec.read (126 + 1) (.members ms) = some b.keys
  simp only [keysCodec, Codec.record₁, hfields', hkeys]

/-- A bundle that is no object is no list of keys. -/
theorem decodeKeys?_of_not_isObject {c : Codec α} {text : String} {b : Bundle α}
    (h : decode? c text = some b) (hobject : ¬ IsObject text) : decodeKeys? text = none := by
  obtain ⟨t, value, keys, ht, hfields, -⟩ := exists_fields_of_decode? h
  rw [decodeKeys?, Codec.parse?, ht, Option.bind_some]
  change keysCodec.read (126 + 1) t = none
  cases t with
  | members ms => exact absurd ⟨ms, ht⟩ hobject
  | items ts =>
    -- the list has two items, and the keys alone would be a list of one
    have htwo : ts.length = 2 := by
      rw [Tree.fields?] at hfields
      split_ifs at hfields with hlength
      exact hlength
    have hnone : (Tree.items ts).fields? ["keys"] = none := by
      rw [Tree.fields?, htwo]
      rfl
    simp only [keysCodec, Codec.record₁, hnone]
  | null => cases hfields
  | bool b => cases hfields
  | number l => cases hfields
  | text s => cases hfields

end Bundle

/-! ## What a removal makes of it -/

/-- What is left of an action when the text that it asks for is there. -/
def Action.given {W : Interface} {β : Type} (text : String) : Action W β → Action W β
  | .ask (.read _) next => next (some (.ok (some text)))
  | p => p

namespace Entry

variable {W : Interface} {c : Codec α} {key : Key} {text : String} {value : α}

/-- How a look-up goes on with the text that it has found. -/
def findContent (c : Codec α) (key : Key) : Option String → Action W (Except CacheFault (Option α))
  | none => .done (.ok none)
  | some text =>
    match Bundle.decode? c text with
    | some b => .done (.ok (some b.value))
    | none => do
      Action.log (.undecodableIgnored key.text)
      return .ok none

lemma given_find : (find (W := W) c key).given text =
    findContent c key ((some text).filter fun s => !isBlank s) := by
  have hgiven : ∃ next, find (W := W) c key = .ask (I := effects W) (.read key.text) next ∧
      next (some (.ok (some text))) =
        findContent c key ((some text).filter fun s => !isBlank s) := by
    refine ⟨_, rfl, ?_⟩
    cases hfound : (some text).filter fun s => !isBlank s with
    | none => simp [Program.bind, hfound, findContent]
    | some text' =>
      cases hdecode : Bundle.decode? c text' <;>
        simp [Program.bind, hfound, hdecode, findContent]
  obtain ⟨next, hfind, hnext⟩ := hgiven
  rw [hfind]
  exact hnext

/-- A value is found in the text of a bundle. -/
lemma given_find_eq_iff :
    (find (W := W) c key).given text = .done (.ok (some value)) ↔
      isBlank text = false ∧ ∃ b, Bundle.decode? c text = some b ∧ b.value = value := by
  rw [given_find]
  cases hblank : isBlank text with
  | true => simp [Option.filter, hblank, findContent]
  | false =>
    rw [Option.filter_some_pos (by simp [hblank]), findContent]
    cases hdecode : Bundle.decode? c text with
    | none =>
      refine iff_of_false (fun h => ?_) (by simp)
      cases h
    | some b => simp

lemma given_remove (hblank : isBlank text = false) :
    (remove (W := W) key).given text = removeContent key (some text) := by
  obtain ⟨next, hremove, hnext, -⟩ := exists_remove_eq (W := W) key
  rw [hremove]
  change next (some (.ok (some text))) = _
  rw [hnext, Option.filter_some_pos (by simp [hblank])]

/-- A text in which a value is found holds a bundle, and a removal goes for the keys of this bundle
exactly if the text is an object.  Of another text it tells that it cannot be read, and goes for
the one key. -/
theorem remove_agrees_iff (h : (find (W := W) c key).given text = .done (.ok (some value))) :
    ∃ b, Bundle.decode? c text = some b ∧ b.value = value ∧
      ((remove (W := W) key).given text = changeAll "remove" .delete (doomed key b.keys) ↔
        Bundle.IsObject text) ∧
      (¬ Bundle.IsObject text → (remove (W := W) key).given text = do
        Action.log (.undecodableRemoved key.text)
        changeAll "remove" .delete [key.text]) := by
  obtain ⟨hblank, b, hdecode, hvalue⟩ := given_find_eq_iff.1 h
  rw [given_remove hblank, removeContent]
  refine ⟨b, hdecode, hvalue, ⟨fun hsame => ?_, fun hobject => ?_⟩, fun hobject => ?_⟩
  · by_contra hobject
    rw [Bundle.decodeKeys?_of_not_isObject hdecode hobject, changeAll_eq] at hsame
    cases hsame
  · rw [Bundle.decodeKeys?_of_isObject hdecode hobject]
  · rw [Bundle.decodeKeys?_of_not_isObject hdecode hobject]

end Entry

namespace Demo

/-- An object of another order, with a member that no one knows and without its own key. -/
def objectText : String := "\x7b\"keys\":[\"two\"],\"more\":[1],\"value\":\"hello\"\x7d"

/-- The fields of a bundle in a list. -/
def listText : String := "[\"hello\",[\"one\",\"two\"]]"

lemma find_eq {text : String} {b : Bundle String} (hblank : isBlank text = false)
    (h : Bundle.decode? .text text = some b) :
    (Entry.find (W := handlings catalogue) .text ⟨"one"⟩).given text = .done (.ok (some b.value)) :=
  Entry.given_find_eq_iff.2 ⟨hblank, b, h, rfl⟩

/-- Of the object both keys go. -/
theorem remove_objectText :
    (Entry.remove (W := handlings catalogue) ⟨"one"⟩).given objectText =
      Entry.changeAll "remove" .delete ["two", "one"] := by
  have hdecode : Bundle.decode? Codec.text objectText = some ⟨"hello", ["two"]⟩ := by
    decide +kernel
  obtain ⟨b, hb, -, hiff, -⟩ := Entry.remove_agrees_iff (find_eq (by decide +kernel) hdecode)
  cases hdecode.symm.trans hb
  exact hiff.2 ⟨_, rfl⟩

/-- The list is served, and its removal does not go for the keys that it lists. -/
theorem served_not_removed :
    Bundle.decode? Codec.text listText = some ⟨"hello", ["one", "two"]⟩ ∧
      (Entry.find (W := handlings catalogue) .text ⟨"one"⟩).given listText =
        .done (.ok (some "hello")) ∧
      ¬ (Entry.remove (W := handlings catalogue) ⟨"one"⟩).given listText =
        Entry.changeAll "remove" .delete (Entry.doomed ⟨"one"⟩ ["one", "two"]) := by
  have hdecode : Bundle.decode? Codec.text listText = some ⟨"hello", ["one", "two"]⟩ := by
    decide +kernel
  have hblank : isBlank listText = false := by decide +kernel
  have hnone : Bundle.decodeKeys? listText = none := by decide +kernel
  refine ⟨hdecode, find_eq hblank hdecode, fun hsame => ?_⟩
  rw [Entry.given_remove hblank, Entry.removeContent, hnone, Entry.changeAll_eq] at hsame
  cases hsame

end Demo

end RequestCache
