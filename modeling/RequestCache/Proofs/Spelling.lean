/-
# Spellings of a text

A text may have white space around it, and its letters may be of either case.  What is left without
the white space is the one part of the text that neither begins nor ends with white space and has
nothing else around it (`trimText_eq_iff`).  Only the letters `A` to `Z` have two cases here
(`recased_iff`), and none of them is white space, so each of the two may be changed without regard to
the other (`Recased.trimText`).
-/
import Mathlib.Data.List.DropRight
import Mathlib.Data.List.Forall2
import Mathlib.Tactic.Common
import Mathlib.Tactic.Lemma
import RequestCache.Text.Blank

namespace RequestCache

/-! ## White space around a text -/

/-- A text that neither begins nor ends with white space. -/
def IsTrimmed (s : String) : Prop :=
  (∀ c ∈ s.toList.head?, isBlankChar c = false) ∧ ∀ c ∈ s.toList.getLast?, isBlankChar c = false

/-- The second text is the first one with white space around it, or without any. -/
def IsPadded (s t : String) : Prop :=
  ∃ front back, isBlank front = true ∧ isBlank back = true ∧ t = front ++ s ++ back

lemma trimChars_eq_rdropWhile (cs : List Char) :
    trimChars cs = (cs.dropWhile isBlankChar).rdropWhile isBlankChar := rfl

lemma trimChars_append {front back : List Char} (hfront : ∀ c ∈ front, isBlankChar c = true)
    (hback : ∀ c ∈ back, isBlankChar c = true) (cs : List Char) :
    trimChars (front ++ cs ++ back) = trimChars cs := by
  have hnone : back.dropWhile isBlankChar = [] := List.dropWhile_eq_nil_iff.2 hback
  have hreverse : ∀ c ∈ back.reverse, isBlankChar c = true := by simpa using hback
  rw [trimChars, trimChars, List.append_assoc, List.dropWhile_append_of_pos hfront,
    List.dropWhile_append]
  split_ifs with hempty
  · rw [hnone, List.isEmpty_iff.1 hempty]
  · rw [List.reverse_append, List.dropWhile_append_of_pos hreverse]

lemma trimChars_eq_self {cs : List Char} (hhead : ∀ c ∈ cs.head?, isBlankChar c = false)
    (hlast : ∀ c ∈ cs.getLast?, isBlankChar c = false) : trimChars cs = cs := by
  have hfront : cs.dropWhile isBlankChar = cs := by
    cases cs with
    | nil => rfl
    | cons c cs => exact List.dropWhile_cons_of_neg (by simp [hhead c rfl])
  rw [trimChars_eq_rdropWhile, hfront, List.rdropWhile_eq_self_iff]
  intro hne
  simp [hlast _ (List.getLast?_eq_some_getLast hne)]

lemma head?_trimChars (cs : List Char) : ∀ c ∈ (trimChars cs).head?, isBlankChar c = false := by
  intro c hc
  -- what was dropped at the end leaves the beginning as it is
  obtain ⟨rest, hrest⟩ := List.rdropWhile_prefix isBlankChar (cs.dropWhile isBlankChar)
  have hhead : c ∈ (cs.dropWhile isBlankChar).head? := by
    rw [← hrest, List.head?_append, ← trimChars_eq_rdropWhile, Option.mem_def.1 hc]
    rfl
  have hnot := List.head?_dropWhile_not isBlankChar cs
  rw [Option.mem_def.1 hhead] at hnot
  exact hnot

lemma getLast?_trimChars (cs : List Char) :
    ∀ c ∈ (trimChars cs).getLast?, isBlankChar c = false := by
  intro c hc
  have hne : trimChars cs ≠ [] := by
    rintro heq
    rw [heq] at hc
    cases hc
  have hlast := List.rdropWhile_last_not isBlankChar (cs.dropWhile isBlankChar) hne
  rw [Option.mem_def, List.getLast?_eq_some_getLast hne, Option.some_inj] at hc
  subst hc
  exact Bool.eq_false_iff.2 hlast

lemma exists_trimChars_append (cs : List Char) : ∃ front back : List Char,
    (∀ c ∈ front, isBlankChar c = true) ∧ (∀ c ∈ back, isBlankChar c = true) ∧
      cs = front ++ trimChars cs ++ back := by
  refine ⟨cs.takeWhile isBlankChar, (cs.dropWhile isBlankChar).rtakeWhile isBlankChar, ?_, ?_, ?_⟩
  · exact fun c hc => List.mem_takeWhile_imp hc
  · exact fun c hc => List.mem_rtakeWhile_imp hc
  · rw [trimChars_eq_rdropWhile, List.append_assoc, List.rdropWhile_append_rtakeWhile,
      List.takeWhile_append_dropWhile]

section

variable {s t core : String}

lemma isTrimmed_trimText (s : String) : IsTrimmed (trimText s) := by
  rw [IsTrimmed, trimText, String.toList_ofList]
  exact ⟨head?_trimChars s.toList, getLast?_trimChars s.toList⟩

lemma isPadded_trimText (s : String) : IsPadded (trimText s) s := by
  obtain ⟨front, back, hfront, hback, heq⟩ := exists_trimChars_append s.toList
  refine ⟨.ofList front, .ofList back, ?_, ?_, ?_⟩
  · rwa [isBlank, String.toList_ofList, List.all_eq_true]
  · rwa [isBlank, String.toList_ofList, List.all_eq_true]
  · rw [trimText, ← String.ofList_append, ← String.ofList_append, ← heq, String.ofList_toList]

/-- White space around a text does not matter to what is left without it. -/
lemma IsPadded.trimText_eq (h : IsPadded s t) : trimText t = trimText s := by
  obtain ⟨front, back, hfront, hback, rfl⟩ := h
  rw [trimText, trimText, String.toList_append, String.toList_append,
    trimChars_append (List.all_eq_true.1 hfront) (List.all_eq_true.1 hback)]

lemma IsTrimmed.trimText_eq (h : IsTrimmed s) : trimText s = s := by
  rw [trimText, trimChars_eq_self h.1 h.2, String.ofList_toList]

lemma trimText_eq_iff : trimText s = core ↔ IsTrimmed core ∧ IsPadded core s := by
  constructor
  · rintro rfl
    exact ⟨isTrimmed_trimText s, isPadded_trimText s⟩
  · rintro ⟨htrimmed, hpadded⟩
    rw [hpadded.trimText_eq, htrimmed.trimText_eq]

lemma trimText_eq_empty_iff : trimText s = "" ↔ isBlank s = true := by
  rw [trimText_eq_iff]
  constructor
  · rintro ⟨-, front, back, hfront, hback, rfl⟩
    rw [isBlank] at *
    simp [hfront, hback]
  · intro h
    exact ⟨⟨nofun, nofun⟩, s, "", h, rfl, by simp⟩

end

/-! ## Letters of either case -/

/-- The same character, or the letters `A` to `Z` in their two cases. -/
def SameLetter (c d : Char) : Prop :=
  c = d ∨ c.isUpper = true ∧ d.toNat = c.toNat + 32 ∨ d.isUpper = true ∧ c.toNat = d.toNat + 32

instance (c d : Char) : Decidable (SameLetter c d) := inferInstanceAs (Decidable (_ ∨ _))

/-- Two texts differ at most in the case of the letters `A` to `Z`. -/
def Recased (s t : String) : Prop := List.Forall₂ SameLetter s.toList t.toList

instance (s t : String) : Decidable (Recased s t) :=
  inferInstanceAs (Decidable (List.Forall₂ SameLetter s.toList t.toList))

lemma isUpper_iff_val {c : Char} : c.isUpper = true ↔ 'A'.val ≤ c.val ∧ c.val ≤ 'Z'.val :=
  decide_eq_true_iff

lemma isUpper_iff {c : Char} : c.isUpper = true ↔ 65 ≤ c.toNat ∧ c.toNat ≤ 90 := by
  rw [isUpper_iff_val, UInt32.le_iff_toNat_le, UInt32.le_iff_toNat_le]
  rfl

lemma toNat_toLower (c : Char) :
    c.toLower.toNat = if c.isUpper then c.toNat + 32 else c.toNat := by
  unfold Char.toLower
  split_ifs with h h' h'
  · have hbound := (isUpper_iff.1 h').2
    have hsum : (c.val + ('a'.val - 'A'.val)).toNat = (c.toNat + 32) % 2 ^ 32 :=
      UInt32.toNat_add _ _
    exact hsum.trans (Nat.mod_eq_of_lt (by omega))
  · exact absurd (isUpper_iff_val.2 h) h'
  · exact absurd (isUpper_iff_val.1 h') h
  · rfl

lemma toLower_eq_toLower_iff {c d : Char} : c.toLower = d.toLower ↔ SameLetter c d := by
  rw [← Char.toNat_inj, toNat_toLower, toNat_toLower, SameLetter, ← Char.toNat_inj]
  split_ifs with hc hd hd <;> simp only [isUpper_iff] at hc hd ⊢ <;> omega

/-- No letter is white space. -/
lemma SameLetter.isBlankChar_eq {c d : Char} (h : SameLetter c d) :
    isBlankChar c = isBlankChar d := by
  have hupper : ∀ {c d : Char}, c.isUpper = true → d.toNat = c.toNat + 32 →
      isBlankChar c = false ∧ isBlankChar d = false := by
    intro c d hc hd
    have hbounds := isUpper_iff.1 hc
    simp only [isBlankChar, hd, Bool.or_eq_false_iff, Bool.and_eq_false_iff, decide_eq_false_iff_not,
      beq_eq_false_iff_ne]
    omega
  rcases h with rfl | ⟨hc, hd⟩ | ⟨hd, hc⟩
  · rfl
  · rw [(hupper hc hd).1, (hupper hc hd).2]
  · rw [(hupper hd hc).1, (hupper hd hc).2]

lemma forall₂_dropWhile {cs ds : List Char} (h : List.Forall₂ SameLetter cs ds) :
    List.Forall₂ SameLetter (cs.dropWhile isBlankChar) (ds.dropWhile isBlankChar) := by
  induction h with
  | nil => exact .nil
  | cons hletter hrest ih =>
    rw [List.dropWhile_cons, List.dropWhile_cons, hletter.isBlankChar_eq]
    split_ifs
    · exact ih
    · exact .cons hletter hrest

section

variable {s t u v : String}

lemma Recased.refl (s : String) : Recased s s := List.forall₂_same.2 fun _ _ => .inl rfl

lemma Recased.append (h : Recased s t) (h' : Recased u v) : Recased (s ++ u) (t ++ v) := by
  rw [Recased, String.toList_append, String.toList_append]
  exact List.rel_append h h'

lemma Recased.length_eq (h : Recased s t) : s.length = t.length := by
  rw [← String.length_toList, ← String.length_toList]
  exact List.Forall₂.length_eq h

lemma Recased.trimText (h : Recased s t) : Recased (trimText s) (trimText t) := by
  rw [Recased, RequestCache.trimText, RequestCache.trimText, String.toList_ofList,
    String.toList_ofList]
  exact List.forall₂_reverse_iff.2 (forall₂_dropWhile (List.forall₂_reverse_iff.2
    (forall₂_dropWhile h)))

lemma recased_iff : Recased s t ↔ s.map Char.toLower = t.map Char.toLower := by
  rw [← String.toList_inj, String.toList_map, String.toList_map, ← List.forall₂_eq_eq_eq,
    List.forall₂_map_left_iff, List.forall₂_map_right_iff]
  simp only [toLower_eq_toLower_iff, Recased]

end

end RequestCache
