/-
# Key spaces

The keys of a kind of request are its name, a colon, and an identifier, which may be any text.  A
name may have colons of its own, so a key does not tell where its name ends: if one name goes on
after another with a colon, each key of the longer name is a key of the shorter one as well
(`Key.ofParts_eq_iff`).  Apart from that kinds of different names have no key in common, so
their keys are apart exactly if neither name extends the other (`keys_apart_iff`), and a setup
keeps its kinds apart if that is so for any two of them (`keepsKindsApart_of_names`).
-/
import RequestCache.Proofs.Provenance

namespace RequestCache

namespace Key

/-- The other name goes on after this one with a colon. -/
def Extends (space other : String) : Prop := ∃ rest, other = space ++ ":" ++ rest

variable {space other identifier identifier' : String}

lemma extends_iff : Extends space other ↔ (space.toList ++ [':']) <+: other.toList := by
  constructor
  · rintro ⟨rest, rfl⟩
    exact ⟨rest.toList, by simp⟩
  · rintro ⟨rest, hrest⟩
    refine ⟨String.ofList rest, ?_⟩
    rw [← String.toList_inj, ← hrest]
    simp

instance (space other : String) : Decidable (Extends space other) :=
  decidable_of_iff _ extends_iff.symm

/-- What follows the shorter name in one key follows the colon in the other. -/
lemma eq_or_extends_of_append {cs : List Char} (hspace : other.toList = space.toList ++ cs)
    (hrest : ':' :: identifier.toList = cs ++ ':' :: identifier'.toList) :
    space = other ∧ identifier = identifier' ∨
      ∃ rest, other = space ++ ":" ++ rest ∧ identifier = rest ++ ":" ++ identifier' := by
  cases cs with
  | nil =>
    refine .inl ⟨String.toList_inj.1 ?_, String.toList_inj.1 ?_⟩
    · simpa using hspace.symm
    · simpa using hrest
  | cons c cs =>
    obtain ⟨rfl, hidentifier⟩ := List.cons.inj hrest
    refine .inr ⟨String.ofList cs, String.toList_inj.1 ?_, String.toList_inj.1 ?_⟩
    · simpa using hspace
    · simpa using hidentifier

/-- Two keys are the same if name and identifier are, or if one name is longer than the other by
what the identifier of the other begins with. -/
theorem ofParts_eq_iff :
    ofParts space identifier = ofParts other identifier' ↔
      space = other ∧ identifier = identifier' ∨
      (∃ rest, other = space ++ ":" ++ rest ∧ identifier = rest ++ ":" ++ identifier') ∨
      ∃ rest, space = other ++ ":" ++ rest ∧ identifier' = rest ++ ":" ++ identifier := by
  constructor
  · intro h
    have htext : (space ++ ":" ++ identifier).toList = (other ++ ":" ++ identifier').toList :=
      congrArg (fun key => key.text.toList) h
    have hlist : space.toList ++ ':' :: identifier.toList =
        other.toList ++ ':' :: identifier'.toList := by simpa using htext
    rcases List.append_eq_append_iff.1 hlist with ⟨cs, hspace, hrest⟩ | ⟨cs, hspace, hrest⟩
    · rcases eq_or_extends_of_append hspace hrest with heq | hextends
      · exact .inl heq
      · exact .inr (.inl hextends)
    · rcases eq_or_extends_of_append hspace hrest with ⟨rfl, rfl⟩ | hextends
      · exact .inl ⟨rfl, rfl⟩
      · exact .inr (.inr hextends)
  · rintro (⟨rfl, rfl⟩ | ⟨rest, rfl, rfl⟩ | ⟨rest, rfl, rfl⟩)
    · rfl
    · simp [ofParts, String.append_assoc]
    · simp [ofParts, String.append_assoc]

/-- Names that are different share a key exactly if one extends the other. -/
lemma exists_ofParts_eq_iff (hne : space ≠ other) :
    (∃ identifier identifier', ofParts space identifier = ofParts other identifier') ↔
      Extends space other ∨ Extends other space := by
  constructor
  · rintro ⟨identifier, identifier', h⟩
    rcases ofParts_eq_iff.1 h with ⟨heq, -⟩ | ⟨rest, hrest, -⟩ | ⟨rest, hrest, -⟩
    · exact absurd heq hne
    · exact .inl ⟨rest, hrest⟩
    · exact .inr ⟨rest, hrest⟩
  · rintro (⟨rest, hrest⟩ | ⟨rest, hrest⟩)
    · exact ⟨rest ++ ":" ++ "", "", ofParts_eq_iff.2 (.inr (.inl ⟨rest, hrest, rfl⟩))⟩
    · exact ⟨"", rest ++ ":" ++ "", ofParts_eq_iff.2 (.inr (.inr ⟨rest, hrest, rfl⟩))⟩

end Key

variable {C : Catalogue} {W : Interface}

lemma Plan.Uses.exists_eq_key {k : C.Kind} {p : Plan C k} {key : Key} (h : p.Uses key) :
    ∃ identifier, key = p.key identifier := by
  rcases h with ⟨request, rfl⟩ | ⟨request, response, hkey⟩
  · exact ⟨p.lookupId request, rfl⟩
  · rw [Plan.entryKeys, Key.distinct, List.mem_eraseDups] at hkey
    obtain ⟨identifier, -, rfl⟩ := List.mem_map.1 hkey
    exact ⟨identifier, rfl⟩

namespace CacheSetup

/-- Two cached kinds of different names have no key in common, whatever their identifiers are,
exactly if neither name extends the other. -/
theorem keys_apart_iff (s : CacheSetup C W) {k k' : C.Kind} {p : Plan C k} {p' : Plan C k'} :
    s.plan k = some p → s.plan k' = some p' → C.name k ≠ C.name k' →
      ((∀ identifier identifier', p.key identifier ≠ p'.key identifier') ↔
        ¬ Key.Extends (C.name k) (C.name k') ∧ ¬ Key.Extends (C.name k') (C.name k)) := by
  intro _ _ hne
  rw [← not_or, ← Key.exists_ofParts_eq_iff hne]
  simp only [not_exists]
  rfl

/-- Kinds whose names are different and do not extend one another use no key in common. -/
theorem keepsKindsApart_of_names {s : CacheSetup C (handlings C)}
    (h : ∀ k k', (s.plan k).isSome → (s.plan k').isSome → k ≠ k' →
      C.name k ≠ C.name k' ∧ ¬ Key.Extends (C.name k) (C.name k')) : s.KeepsKindsApart := by
  intro k k' p p' key hp hp' huses huses'
  by_contra hkind
  have hk : (s.plan k).isSome := Option.isSome_iff_exists.2 ⟨p, hp⟩
  have hk' : (s.plan k').isSome := Option.isSome_iff_exists.2 ⟨p', hp'⟩
  obtain ⟨hne, hnot⟩ := h k k' hk hk' hkind
  obtain ⟨-, hnot'⟩ := h k' k hk' hk (Ne.symm hkind)
  obtain ⟨identifier, hkey⟩ := huses.exists_eq_key
  obtain ⟨identifier', hkey'⟩ := huses'.exists_eq_key
  rcases (Key.exists_ofParts_eq_iff hne).1 ⟨identifier, identifier', hkey.symm.trans hkey'⟩ with
    hextends | hextends
  · exact hnot hextends
  · exact hnot' hextends

end CacheSetup

namespace Demo

/-- How resets would be cached. -/
def resetPlan : Plan catalogue Kind.reset where
  lookupId (number : ℕ) := toString number

/-- Greetings and resets are cached. -/
def bothSetup : CacheSetup catalogue (handlings catalogue) where
  storeName := "memory"
  plan
    | .greeting => some greetingPlan
    | .reset => some resetPlan
  cached := [Kind.greeting, Kind.reset]

/-- Greetings and resets are both cached, and no greeting has the key of a reset. -/
theorem greetings_apart :
    bothSetup.plan Kind.greeting = some greetingPlan ∧ bothSetup.plan Kind.reset = some resetPlan ∧
      ∀ identifier identifier', greetingPlan.key identifier ≠ resetPlan.key identifier' := by
  have hne : catalogue.name Kind.greeting ≠ catalogue.name Kind.reset := by decide
  refine ⟨rfl, rfl, (bothSetup.keys_apart_iff rfl rfl hne).2 ⟨?_, ?_⟩⟩
  · decide
  · decide

/-- Two kinds of request, the name of one of which extends the name of the other. -/
def nested : Catalogue where
  Kind := Bool
  Request _ := String
  Response _ := String
  name inner := if inner then "app::Count" else "app"
  showRequest _ := quoted
  showResponse _ := quoted
  codec _ := .text

/-- Requests of either kind are cached under themselves. -/
def nestedPlan (inner : Bool) : Plan nested inner where
  lookupId (request : String) := request

/-- Both plans are accepted, the names are different, and a request of one kind has the key of a
request of the other. -/
theorem keys_meet :
    ∃ (s s' : CacheSetup nested (handlings nested)) (events events' : List Event),
      CacheSetup.addPlan ⟨"memory", .strict, fun _ => none, [], fun _ => [], []⟩ false
          (nestedPlan false) = .ok (s, events) ∧
        s.addPlan true (nestedPlan true) = .ok (s', events') ∧
        s'.plan false = some (nestedPlan false) ∧ s'.plan true = some (nestedPlan true) ∧
        nested.name false ≠ nested.name true ∧
        (nestedPlan false).lookupKey ":Count:1" = (nestedPlan true).lookupKey "1" := by
  refine ⟨_, _, _, _, rfl, rfl, rfl, rfl, ?_, ?_⟩
  · decide
  · decide

end Demo

end RequestCache
