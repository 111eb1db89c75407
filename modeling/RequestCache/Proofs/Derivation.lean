/-
# From identifiers to keys

A plan derives identifiers from a request and its response, in some order and perhaps some of them
twice.  Each identifier becomes a key: the name of the kind, a colon, and the identifier.  Two
identifiers of a kind never share a key, so a key is left out only where its identifier has stood
before (`firsts`).

The keys of the plan, the keys that each text lists and the keys that the text is written under are
the same ones, in the order of the identifiers (`Plan.keys_derived`), and one write for each of them
is all that is asked of the store (`Plan.asked_store`).  That keys are made distinct twice, by the
plan and when the entry is stored, does not show.  Without identifiers there are no keys.  To store
an entry under no key would be to do nothing at all, and the plan refuses that.
-/
import RequestCache.Proofs.Calls

namespace RequestCache

/-! ## First occurrences -/

section Firsts

variable {α β : Type} [DecidableEq α] [DecidableEq β]

/-- The items of a list that have not stood in it before. -/
def firsts (xs : List α) : List α :=
  (xs.zipIdx.filter fun x => x.1 ∉ xs.take x.2).map Prod.fst

lemma firsts_concat (xs : List α) (a : α) :
    firsts (xs ++ [a]) = if a ∈ xs then firsts xs else firsts xs ++ [a] := by
  have hearlier : xs.zipIdx.filter (fun x => x.1 ∉ (xs ++ [a]).take x.2) =
      xs.zipIdx.filter fun x => x.1 ∉ xs.take x.2 := by
    refine List.filter_congr fun x hx => ?_
    have hlt : x.2 < xs.length + 0 := List.snd_lt_of_mem_zipIdx hx
    rw [List.take_append_of_le_length (Nat.le_of_lt hlt)]
  have hlast : ([a].zipIdx xs.length).filter (fun x => x.1 ∉ (xs ++ [a]).take x.2) =
      if a ∈ xs then [] else [(a, xs.length)] := by
    by_cases ha : a ∈ xs <;> simp [ha]
  unfold firsts
  rw [List.zipIdx_append, List.filter_append, Nat.zero_add, hearlier, hlast]
  split_ifs <;> simp

/-- To go through a list and drop what was met before is to keep the first occurrences. -/
lemma eraseDups_eq_firsts (xs : List α) : xs.eraseDups = firsts xs := by
  induction xs using List.reverseRecOn with
  | nil => rfl
  | append_singleton xs a ih =>
    rw [List.eraseDups_append, ih, firsts_concat]
    by_cases ha : a ∈ xs <;> simp [ha, List.removeAll, List.eraseDups_cons]

/-- First occurrences stay first occurrences as long as nothing is confused. -/
lemma firsts_map {f : α → β} (hf : Function.Injective f) (xs : List α) :
    firsts (xs.map f) = (firsts xs).map f := by
  induction xs using List.reverseRecOn with
  | nil => rfl
  | append_singleton xs a ih =>
    rw [List.map_append, List.map_singleton, firsts_concat, firsts_concat, ih]
    by_cases ha : a ∈ xs
    · rw [if_pos ha, if_pos (List.mem_map_of_mem ha)]
    · rw [if_neg ha, if_neg fun h => ha ((List.mem_map_of_injective hf).1 h), List.map_append,
        List.map_singleton]

lemma firsts_eq_nil_iff {xs : List α} : firsts xs = [] ↔ xs = [] := by
  constructor
  · intro h
    rw [← eraseDups_eq_firsts] at h
    refine List.eq_nil_iff_forall_not_mem.2 fun a ha => ?_
    have hmem : a ∈ xs.eraseDups := List.mem_eraseDups.2 ha
    rw [h] at hmem
    cases hmem
  · rintro rfl
    rfl

end Firsts

/-! ## Keys of a plan -/

variable {C : Catalogue} {W : Interface} {k : C.Kind} {σ : Type}

namespace Plan

variable {p : Plan C k} {request : C.Request k} {response : C.Response k}

lemma key_injective (p : Plan C k) : Function.Injective p.key :=
  fun _ _ h => Key.ofParts_injective h

lemma entryKeys_eq (p : Plan C k) (request : C.Request k) (response : C.Response k) :
    p.entryKeys request response = (firsts (p.entryIds request response)).map p.key := by
  rw [entryKeys, Key.distinct, eraseDups_eq_firsts, firsts_map p.key_injective]

lemma mem_entryKeys_iff {identifier : String} :
    p.key identifier ∈ p.entryKeys request response ↔
      identifier ∈ p.entryIds request response := by
  rw [entryKeys, Key.distinct, List.mem_eraseDups, List.mem_map_of_injective p.key_injective]

lemma entryKeys_eq_nil_iff :
    p.entryKeys request response = [] ↔ p.entryIds request response = [] := by
  rw [entryKeys_eq, List.map_eq_nil_iff, firsts_eq_nil_iff]

/-- The keys under which a plan stores a response are derived from the identifiers.

* They are the keys of the first occurrences of the identifiers, in order, each with the name of the
  kind and a colon in front.  None stands there twice, none is left out, and no two identifiers of
  the kind share a key.
* To make them distinct once more changes nothing.  So these are the keys that the entry lists, and
  the ones that its text is written under, all at once and in this order, unless the response has no
  written form and nothing is asked for.
* There are no keys if and only if there are no identifiers.  Then the plan reports that there are
  none and asks for nothing, while an entry under no key would have been stored without a word. -/
theorem keys_derived (p : Plan C k) (request : C.Request k) (response : C.Response k) :
    ((p.entryKeys request response).map Key.text =
        (firsts (p.entryIds request response)).map (C.name k ++ ":" ++ ·) ∧
      ((p.entryKeys request response).map Key.text).Nodup ∧
      (∀ identifier, p.key identifier ∈ p.entryKeys request response ↔
        identifier ∈ p.entryIds request response) ∧
      Function.Injective p.key) ∧
    (Key.distinct (p.entryKeys request response) = p.entryKeys request response ∧
      (p.entryIds request response ≠ [] →
        (∃ message, Bundle.encode (C.codec k)
            ⟨response, (p.entryKeys request response).map Key.text⟩ = .error message ∧
          p.store (W := W) request response = .done (.error (.unwritable message))) ∨
        ∃ text, Bundle.encode (C.codec k)
            ⟨response, (p.entryKeys request response).map Key.text⟩ = .ok text ∧
          Bundle.decodeKeys? text = some ((p.entryKeys request response).map Key.text) ∧
          p.store (W := W) request response =
            Entry.changeAll "set" (.put · text p.expiration.lifetime)
              ((p.entryKeys request response).map Key.text))) ∧
    (p.entryKeys request response = [] ↔ p.entryIds request response = []) ∧
    (p.entryIds request response = [] →
      p.store (W := W) request response = .done (.error (.noKeys (C.name k))) ∧
      Entry.store (W := W) (C.codec k) response (p.entryKeys request response)
        p.expiration.lifetime = .done (.ok ())) := by
  have hdistinct : Key.distinct (p.entryKeys request response) = p.entryKeys request response :=
    Key.distinct_of_nodup (Key.nodup_distinct _)
  refine ⟨⟨?_, ?_, fun _ => mem_entryKeys_iff, p.key_injective⟩, ⟨hdistinct, fun hids => ?_⟩,
    entryKeys_eq_nil_iff, fun hids => ⟨store_of_no_keys (entryKeys_eq_nil_iff.2 hids), ?_⟩⟩
  · rw [entryKeys_eq, List.map_map]
    rfl
  · rw [← texts_entryKeys]
    exact Key.nodup_texts _
  · have hkeys : p.entryKeys request response ≠ [] := mt entryKeys_eq_nil_iff.1 hids
    rw [← texts_entryKeys]
    cases htext : Bundle.encode (C.codec k)
        ⟨response, Key.texts (p.entryKeys request response)⟩ with
    | error message => exact .inl ⟨message, rfl, store_of_not_encode hkeys htext⟩
    | ok text =>
      exact .inr ⟨text, rfl, Bundle.decodeKeys?_encode htext, store_of_encode hkeys htext⟩
  · rw [entryKeys_eq_nil_iff.2 hids]
    rfl

/-- All that is asked for to store a response with a written form, whatever is answered: its text is
put under each of the keys, at once and in the order of the identifiers. -/
theorem asked_store (answer : (e : Effect W) → σ → e.Answer × σ) (s : σ)
    (hids : p.entryIds request response ≠ []) {text : String}
    (htext : Bundle.encode (C.codec k)
      ⟨response, (p.entryKeys request response).map Key.text⟩ = .ok text) :
    (p.store request response).asked answer s =
      [Effect.apply (((p.entryKeys request response).map Key.text).map
        (.put · text p.expiration.lifetime))] := by
  have hkeys : p.entryKeys request response ≠ [] := mt entryKeys_eq_nil_iff.1 hids
  rw [← texts_entryKeys] at htext ⊢
  rw [store_of_encode hkeys htext]
  exact (Entry.ran_changeAll_of_answer rfl).asked

end Plan

namespace Demo

/-- A plan that names two of the three identifiers twice, or nothing at all. -/
def repeatingPlan : Plan catalogue Kind.greeting where
  lookupId (number : ℕ) := toString number
  chosenIds := some fun (number : ℕ) (text : String) =>
    if number = 0 then [] else [toString number, text, toString number, ":", text]

/-- Each identifier counts once, at its first place.  A greeting without identifiers is not
stored. -/
theorem greeting_keys_derived :
    (repeatingPlan.entryKeys (1 : ℕ) "hello").map Key.text =
        ["demo.GetGreeting:1", "demo.GetGreeting:hello", "demo.GetGreeting::"] ∧
      repeatingPlan.entryIds (1 : ℕ) "hello" ≠ [] ∧
      (∃ text, repeatingPlan.store (W := counting) (1 : ℕ) "hello" =
        Entry.changeAll "set" (.put · text {})
          ["demo.GetGreeting:1", "demo.GetGreeting:hello", "demo.GetGreeting::"]) ∧
      repeatingPlan.entryIds (0 : ℕ) "hello" = [] ∧
      repeatingPlan.store (W := counting) (0 : ℕ) "hello" =
        .done (.error (.noKeys "demo.GetGreeting")) := by
  have hkeys : (repeatingPlan.entryKeys (1 : ℕ) "hello").map Key.text =
      ["demo.GetGreeting:1", "demo.GetGreeting:hello", "demo.GetGreeting::"] := by decide
  obtain ⟨-, ⟨-, hstore⟩, -, -⟩ :=
    repeatingPlan.keys_derived (W := counting) (1 : ℕ) "hello"
  obtain ⟨-, -, -, hnone⟩ := repeatingPlan.keys_derived (W := counting) (0 : ℕ) "hello"
  have hids : repeatingPlan.entryIds (1 : ℕ) "hello" ≠ [] := by decide
  refine ⟨hkeys, hids, ?_, rfl, (hnone rfl).1⟩
  obtain ⟨message, hmessage, -⟩ | ⟨text, -, -, htext⟩ := hstore hids
  · cases hmessage
  · rw [hkeys] at htext
    exact ⟨text, htext⟩

end Demo

end RequestCache
