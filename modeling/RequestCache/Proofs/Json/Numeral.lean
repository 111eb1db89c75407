/-
# Number texts are number literals

The texts that integers and doubles are written as, read as literals.  An integer comes back as
it was (`literal?_toString`); of a double it is only said that its text is a literal at all
(`exists_literal?_scaledText`), since what the digits are worth is settled elsewhere.

Both rest on one fact about the reader: digits that do not begin with a needless zero, in front
of something that is no digit, are read to their end (`takeWhole?_append`).
-/
import Mathlib.Data.List.DropRight
import Mathlib.Tactic.Lemma
import Mathlib.Tactic.Positivity
import RequestCache.Json.Value

namespace RequestCache.Json

/-! ## Rows of digits -/

/-- The characters do not begin with a digit. -/
def EndsDigits (cs : List Char) : Prop := ∀ c ∈ cs.head?, c.isDigit = false

/-- At least one digit, and no needless zero in front. -/
structure IsWhole (cs : List Char) : Prop where
  ne_nil : cs ≠ []
  digits : ∀ c ∈ cs, c.isDigit = true
  head : cs.head? = some '0' → cs = ['0']

lemma digitsValue_eq_ofDigitChars (start : Nat) (cs : List Char) :
    digitsValue start cs = Nat.ofDigitChars 10 cs start := rfl

lemma takeDigits?_append {ds rest : List Char} (hne : ds ≠ [])
    (hds : ∀ c ∈ ds, c.isDigit = true) (hrest : EndsDigits rest) :
    takeDigits? (ds ++ rest) = some (ds, rest) := by
  have htake : rest.takeWhile Char.isDigit = [] := by
    cases rest with
    | nil => rfl
    | cons c r => simp [hrest c (by simp)]
  have hdrop : rest.dropWhile Char.isDigit = rest := by
    cases rest with
    | nil => rfl
    | cons c r => simp [hrest c (by simp)]
  simp [takeDigits?, List.takeWhile_append_of_pos hds, List.dropWhile_append_of_pos hds, htake,
    hdrop, hne]

lemma takeWhole?_append {ds rest : List Char} (hds : IsWhole ds) (hrest : EndsDigits rest) :
    takeWhole? (ds ++ rest) = some (digitsValue 0 ds, rest) := by
  have htake := takeDigits?_append hds.ne_nil hds.digits hrest
  cases ds with
  | nil => exact absurd rfl hds.ne_nil
  | cons c cs =>
    by_cases hc : c = '0'
    · subst hc
      have hcs : cs = [] := by simpa using hds.head rfl
      subst hcs
      rfl
    · simp only [List.cons_append] at htake ⊢
      rw [takeWhole?.eq_2 _ (fun r h => hc (List.cons.inj h).1), htake]
      rfl

lemma head?_toDigits_ne_zero {n : Nat} (hn : 0 < n) :
    (Nat.toDigits 10 n).head? ≠ some '0' := by
  induction n using Nat.strongRecOn with
  | ind n ih =>
    rw [Nat.toDigits_eq_if (by decide)]
    split
    case isTrue hlt =>
      intro h
      have := Nat.toNat_digitChar_of_lt_ten hlt
      simp only [List.head?_cons, Option.some.injEq] at h
      rw [h] at this
      simp at this
      omega
    case isFalse hge =>
      rw [List.head?_append_of_ne_nil _ Nat.toDigits_ne_nil]
      exact ih (n / 10) (by omega) (by omega)

lemma isWhole_toDigits (n : Nat) : IsWhole (Nat.toDigits 10 n) where
  ne_nil := Nat.toDigits_ne_nil
  digits c hc := Nat.isDigit_of_mem_toDigits (by decide) (by decide) hc
  head h := by
    rcases Nat.eq_zero_or_pos n with rfl | hn
    · exact Nat.toDigits_zero 10
    · exact absurd h (head?_toDigits_ne_zero hn)

lemma isLiteralChar_of_isDigit {c : Char} (h : c.isDigit = true) : isLiteralChar c = true := by
  simp [isLiteralChar, h]

/-- A row of digits does not begin with the sign of a literal. -/
lemma IsWhole.literal? {ds rest : List Char} (hds : IsWhole ds) (hrest : EndsDigits rest) :
    literal? (ds ++ rest) = literalTail? false (digitsValue 0 ds) rest := by
  have htake := takeWhole?_append hds hrest
  cases ds with
  | nil => exact absurd rfl hds.ne_nil
  | cons c cs =>
    have hc : c ≠ '-' := by
      rintro rfl
      exact absurd (hds.digits '-' (by simp)) (by decide)
    simp only [List.cons_append] at htake ⊢
    rw [Json.literal?.eq_2 _ (fun r h => hc (List.cons.inj h).1), htake]
    rfl

lemma IsWhole.literal?_minus {ds rest : List Char} (hds : IsWhole ds) (hrest : EndsDigits rest) :
    Json.literal? ('-' :: (ds ++ rest)) = literalTail? true (digitsValue 0 ds) rest := by
  rw [Json.literal?.eq_1, takeWhole?_append hds hrest]
  rfl

lemma isDigit_of_takeWhole? {c : Char} {cs : List Char} {p : Nat × List Char}
    (h : takeWhole? (c :: cs) = some p) : c.isDigit = true := by
  by_cases hc : c = '0'
  · rw [hc]
    rfl
  · rw [takeWhole?.eq_2 _ (fun r h => hc (List.cons.inj h).1)] at h
    by_contra hdigit
    simp [takeDigits?, hdigit] at h

/-- A literal begins with a digit or with a minus. -/
lemma head_of_literal? {cs : List Char} {l : Literal} (h : literal? cs = some l) :
    ∃ c r, cs = c :: r ∧ (c.isDigit = true ∨ c = '-') := by
  cases cs with
  | nil => simp [literal?, takeWhole?, takeDigits?] at h
  | cons c r =>
    refine ⟨c, r, rfl, ?_⟩
    by_cases hc : c = '-'
    · exact .inr hc
    · rw [literal?.eq_2 _ (fun r h => hc (List.cons.inj h).1)] at h
      obtain ⟨p, hp, -⟩ := Option.bind_eq_some_iff.1 h
      exact .inl (isDigit_of_takeWhole? hp)

/-! ## Integers -/

/-- The literal of an integer. -/
def Literal.ofInt (n : Int) : Literal := .whole (decide (n < 0)) n.natAbs

lemma toList_toString_of_nonneg {n : Int} (h : 0 ≤ n) :
    (toString n).toList = Nat.toDigits 10 n.toNat := by
  rw [Int.toString_eq_repr, Int.repr_eq_if, if_pos h, Nat.toList_repr]

lemma toList_toString_of_neg {n : Int} (h : n < 0) :
    (toString n).toList = '-' :: Nat.toDigits 10 (-n).toNat := by
  rw [Int.toString_eq_repr, Int.repr_eq_if, if_neg (by omega)]
  simp

/-- An integer is read back from its text. -/
theorem literal?_toString (n : Int) : literal? (toString n).toList = some (.ofInt n) := by
  have hend : EndsDigits [] := by simp [EndsDigits]
  rcases lt_or_ge n 0 with h | h
  · have hmag : (-n).toNat = n.natAbs := by omega
    have hread := (isWhole_toDigits (-n).toNat).literal?_minus hend
    rw [List.append_nil] at hread
    rw [toList_toString_of_neg h, hread, digitsValue_eq_ofDigitChars,
      Nat.ofDigitChars_ten_toDigits, hmag]
    simp [literalTail?, Literal.ofInt, h]
  · have hmag : n.toNat = n.natAbs := by omega
    have hread := (isWhole_toDigits n.toNat).literal? hend
    rw [List.append_nil] at hread
    rw [toList_toString_of_nonneg h, hread, digitsValue_eq_ofDigitChars,
      Nat.ofDigitChars_ten_toDigits, hmag]
    simp [literalTail?, Literal.ofInt, not_lt.2 h]

lemma isLiteralChar_of_mem_toString {n : Int} {c : Char} (hc : c ∈ (toString n).toList) :
    isLiteralChar c = true := by
  have digit : ∀ m, c ∈ Nat.toDigits 10 m → isLiteralChar c = true := fun m hm =>
    isLiteralChar_of_isDigit ((isWhole_toDigits m).digits c hm)
  rcases lt_or_ge n 0 with h | h
  · rw [toList_toString_of_neg h, List.mem_cons] at hc
    rcases hc with rfl | hc
    · rfl
    · exact digit _ hc
  · rw [toList_toString_of_nonneg h] at hc
    exact digit _ hc

/-! ## Doubles -/

/-- At least one digit, the first of which is not zero. -/
structure IsSignificant (cs : List Char) : Prop where
  ne_nil : cs ≠ []
  digits : ∀ c ∈ cs, c.isDigit = true
  head : cs.head? ≠ some '0'

namespace IsSignificant

variable {ds cs : List Char}

lemma isWhole (h : IsSignificant ds) : IsWhole ds :=
  ⟨h.ne_nil, h.digits, fun hz => absurd hz h.head⟩

lemma of_isPrefix (hcs : IsSignificant cs) (h : ds <+: cs) (hne : ds ≠ []) :
    IsSignificant ds where
  ne_nil := hne
  digits c hc := hcs.digits c (h.subset hc)
  head hz := by
    obtain ⟨t, rfl⟩ := h
    exact hcs.head (by rw [List.head?_append_of_ne_nil _ hne]; exact hz)

lemma append (hds : IsSignificant ds) (hcs : ∀ c ∈ cs, c.isDigit = true) :
    IsSignificant (ds ++ cs) where
  ne_nil := by simp [hds.ne_nil]
  digits c hc := (List.mem_append.1 hc).elim (hds.digits c) (hcs c)
  head hz := hds.head (by rwa [List.head?_append_of_ne_nil _ hds.ne_nil] at hz)

end IsSignificant

lemma isSignificant_ofDigits {n : Nat} (hn : 0 < n) (power : Int) :
    IsSignificant (Decimal.ofDigits n power).digits := by
  have hall : IsSignificant (Nat.toDigits 10 n) :=
    ⟨Nat.toDigits_ne_nil, (isWhole_toDigits n).digits, head?_toDigits_ne_zero hn⟩
  refine hall.of_isPrefix (List.rdropWhile_prefix (· = '0') _) fun h => ?_
  have hzeros := List.rdropWhile_eq_nil_iff.1 h
  cases hds : Nat.toDigits 10 n with
  | nil => exact Nat.toDigits_ne_nil hds
  | cons c cs =>
    have hc : c = '0' := by simpa using hzeros c (by simp [hds])
    exact hall.head (by simp [hds, hc])

end Json

namespace Double

lemma mantissa_pos {d : Double} (hd : d.isZero = false) : 0 < d.mantissa := by
  simp only [isZero, decide_eq_false_iff_not] at hd
  unfold mantissa
  split <;> omega

/-- No digits at all lead back to a double that is not zero. -/
lemma readsBack_zero {d : Double} (hd : d.isZero = false) (power : Int) :
    d.readsBack 0 power = false := by
  have hm := mantissa_pos hd
  have hunit : 0 < 2 ^ d.exponent.toNat := by positivity
  have hscale : 0 < 10 ^ (-power).toNat := by positivity
  have hnum : 2 ^ d.exponent.toNat ≤ d.mantissa * 2 ^ d.exponent.toNat :=
    Nat.le_mul_of_pos_left _ hm
  have hlower : ∀ step ≤ 2 * 2 ^ d.exponent.toNat,
      0 < (4 * (d.mantissa * 2 ^ d.exponent.toNat) - step) * 10 ^ (-power).toNat := fun step h =>
    Nat.mul_pos (by omega) hscale
  unfold readsBack
  by_cases hn : d.isNarrow <;> by_cases he : d.mantissa % 2 = 0 <;>
    simp only [hn, he, ratio, Nat.pow_eq, if_true, if_false, Nat.mul_zero, Nat.zero_mul,
      Bool.and_eq_false_iff, decide_eq_false_iff_not, Bool.false_eq_true, not_le, not_lt]
  · exact .inl (hlower _ (by omega))
  · exact .inl (hlower _ (by omega)).le
  · exact .inl (hlower _ (by omega))
  · exact .inl (hlower _ (by omega)).le

lemma pos_of_onGrid? {d : Double} (hd : d.isZero = false) {tie : Tie} {power : Int} {n : Nat}
    (h : d.onGrid? tie power = some n) : 0 < n := by
  have hlow : ∀ m, d.readsBack m power = true → 0 < m := by
    intro m hm
    rcases Nat.eq_zero_or_pos m with rfl | hpos
    · rw [readsBack_zero hd] at hm; cases hm
    · exact hpos
  simp only [onGrid?] at h
  split at h
  case h_1 => cases h
  case h_2 hr _ => cases h; exact hlow _ hr
  case h_3 => cases h; exact Nat.succ_pos _
  case h_4 hr _ =>
    have hpos := hlow _ hr
    split at h
    · cases h; exact hpos
    split at h
    · cases h; exact Nat.succ_pos _
    cases tie with
    | up => cases h; exact Nat.succ_pos _
    | even =>
      simp only [Option.some.injEq] at h
      subst h
      split
      · exact hpos
      · exact Nat.succ_pos _

theorem isSignificant_shortest {d : Double} (hd : d.isZero = false) (tie : Tie) :
    Json.IsSignificant (d.shortest tie).digits := by
  simp only [shortest]
  cases hf : (List.range 17).findSome? fun i =>
      (d.onGrid? tie (d.scale - (i + 1 : Nat))).map fun digits =>
        Decimal.ofDigits digits (d.scale - (i + 1 : Nat)) with
  | some dec =>
    obtain ⟨i, -, hi⟩ := List.exists_of_findSome?_eq_some hf
    obtain ⟨n, hn, rfl⟩ := Option.map_eq_some_iff.1 hi
    exact Json.isSignificant_ofDigits (pos_of_onGrid? hd hn) _
  | none =>
    refine Json.isSignificant_ofDigits (Nat.div_pos ?_ (by simp [ratio])) _
    have hpow : 2 ^ (-d.exponent).toNat ≤ 10 ^ (-d.exponent).toNat :=
      Nat.pow_le_pow_left (by decide) _
    have hnum : 1 ≤ d.mantissa * 2 ^ d.exponent.toNat :=
      Nat.mul_pos (mantissa_pos hd) (by positivity)
    calc (d.ratio.2 : Nat) ≤ 1 * 10 ^ (-d.exponent).toNat := by simpa [ratio] using hpow
      _ ≤ d.ratio.1 * 10 ^ (-d.exponent).toNat := Nat.mul_le_mul_right _ hnum

end Double

namespace Json

/-- The text of a number without its sign: digits, and then a fraction, or an exponent, or both,
each of which is read to its end. -/
structure IsNumeral (cs : List Char) : Prop where
  shape : ∃ whole rest, cs = whole ++ rest ∧ IsWhole whole ∧ EndsDigits rest ∧
    ∀ negative n, ∃ l, literalTail? negative n rest = some l
  chars : ∀ c ∈ cs, isLiteralChar c = true

theorem IsNumeral.exists_literal? {cs : List Char} (h : IsNumeral cs) (negative : Bool) :
    ∃ l, literal? ((if negative then ['-'] else []) ++ cs) = some l := by
  obtain ⟨whole, rest, rfl, hwhole, hrest, htail⟩ := h.shape
  obtain ⟨l, hl⟩ := htail negative (digitsValue 0 whole)
  refine ⟨l, ?_⟩
  cases negative with
  | true => exact (hwhole.literal?_minus hrest).trans hl
  | false => exact (hwhole.literal? hrest).trans hl

lemma endsDigits_cons {c : Char} {cs : List Char} (h : c.isDigit = false) :
    EndsDigits (c :: cs) := by
  intro d hd
  cases hd
  exact h

lemma endsDigits_nil : EndsDigits [] := by
  intro c hc
  cases hc

/-- An exponent with its sign is read to its end. -/
lemma exists_exponent? {sign : Char} {ds : List Char} (hsign : sign = '+' ∨ sign = '-')
    (hne : ds ≠ []) (hds : ∀ c ∈ ds, c.isDigit = true) : ∃ e, exponent? (sign :: ds) = some e := by
  have htake : takeDigits? ds = some (ds, []) := by
    simpa using takeDigits?_append hne hds endsDigits_nil
  rcases hsign with rfl | rfl <;> simp [exponent?, htake]

lemma exists_literalTail?_exponent {sign : Char} {ds : List Char}
    (hsign : sign = '+' ∨ sign = '-') (hne : ds ≠ []) (hds : ∀ c ∈ ds, c.isDigit = true)
    (negative : Bool) (n : Nat) : ∃ l, literalTail? negative n ('e' :: sign :: ds) = some l := by
  obtain ⟨e, he⟩ := exists_exponent? hsign hne hds
  exact ⟨.scaled negative n 0 e, by simp [literalTail?, he]⟩

/-- A fraction, at the end or in front of an exponent, is read to its end. -/
lemma exists_literalTail?_fraction {fs es : List Char} (hne : fs ≠ [])
    (hfs : ∀ c ∈ fs, c.isDigit = true)
    (hes : es = [] ∨ ∃ sign ds, es = 'e' :: sign :: ds ∧ (sign = '+' ∨ sign = '-') ∧ ds ≠ [] ∧
      ∀ c ∈ ds, c.isDigit = true)
    (negative : Bool) (n : Nat) : ∃ l, literalTail? negative n ('.' :: (fs ++ es)) = some l := by
  rcases hes with rfl | ⟨sign, ds, rfl, hsign, hdne, hds⟩
  · have htake : takeDigits? fs = some (fs, []) := by
      simpa using takeDigits?_append hne hfs endsDigits_nil
    exact ⟨.scaled negative (digitsValue n fs) fs.length 0, by simp [literalTail?, htake]⟩
  · have htake : takeDigits? (fs ++ 'e' :: sign :: ds) = some (fs, 'e' :: sign :: ds) :=
      takeDigits?_append hne hfs (endsDigits_cons (by decide))
    obtain ⟨e, he⟩ := exists_exponent? hsign hdne hds
    exact ⟨.scaled negative (digitsValue n fs) fs.length e, by simp [literalTail?, htake, he]⟩

lemma isDigit_of_mem_zeros {n : Nat} {c : Char} (h : c ∈ Double.zeros n) : c.isDigit = true := by
  rw [(List.mem_replicate.1 h).2]
  rfl

/-- The exponent of a double's text: a sign and at least one digit. -/
lemma exists_exponentText (power : Int) (h : power < 0 ∨ 1 < power) :
    ∃ sign ds, (if 0 < power then ['+'] else []) ++ (toString (power - 1)).toList = sign :: ds ∧
      (sign = '+' ∨ sign = '-') ∧ ds ≠ [] ∧ ∀ c ∈ ds, c.isDigit = true := by
  rcases h with h | h
  · refine ⟨'-', Nat.toDigits 10 (-(power - 1)).toNat, ?_, .inr rfl, Nat.toDigits_ne_nil,
      (isWhole_toDigits _).digits⟩
    rw [if_neg (by omega), toList_toString_of_neg (by omega)]
    rfl
  · refine ⟨'+', Nat.toDigits 10 (power - 1).toNat, ?_, .inl rfl, Nat.toDigits_ne_nil,
      (isWhole_toDigits _).digits⟩
    rw [if_pos (by omega), toList_toString_of_nonneg (by omega)]
    rfl

lemma isNumeral_fraction {whole fs : List Char} (hwhole : IsWhole whole) (hne : fs ≠ [])
    (hfs : ∀ c ∈ fs, c.isDigit = true) : IsNumeral (whole ++ '.' :: fs) where
  shape := by
    refine ⟨whole, '.' :: fs, rfl, hwhole, endsDigits_cons (by decide), ?_⟩
    simpa using exists_literalTail?_fraction hne hfs (.inl rfl)
  chars c hc := by
    simp only [List.mem_append, List.mem_cons] at hc
    rcases hc with hc | rfl | hc
    · exact isLiteralChar_of_isDigit (hwhole.digits c hc)
    · rfl
    · exact isLiteralChar_of_isDigit (hfs c hc)

lemma isNumeral_scaled {whole fs es : List Char} {power : Int} (hwhole : IsWhole whole)
    (hfs : ∀ c ∈ fs, c.isDigit = true)
    (hes : es = 'e' :: ((if 0 < power then ['+'] else []) ++ (toString (power - 1)).toList))
    (hpower : power < 0 ∨ 1 < power) :
    IsNumeral (whole ++ ((if fs = [] then [] else '.' :: fs) ++ es)) := by
  obtain ⟨sign, ds, hsd, hsign, hdne, hds⟩ := exists_exponentText power hpower
  rw [hsd] at hes
  subst hes
  have hesc : ∀ c ∈ 'e' :: sign :: ds, isLiteralChar c = true := by
    intro c hc
    simp only [List.mem_cons] at hc
    rcases hc with rfl | rfl | hc
    · rfl
    · rcases hsign with rfl | rfl <;> rfl
    · exact isLiteralChar_of_isDigit (hds c hc)
  by_cases hf : fs = []
  · refine ⟨⟨whole, 'e' :: sign :: ds, by simp [hf], hwhole, endsDigits_cons (by decide),
      exists_literalTail?_exponent hsign hdne hds⟩, fun c hc => ?_⟩
    simp only [hf, if_true, List.nil_append, List.mem_append] at hc
    exact hc.elim (fun h => isLiteralChar_of_isDigit (hwhole.digits c h)) (hesc c)
  · refine ⟨⟨whole, '.' :: (fs ++ 'e' :: sign :: ds), by simp [hf], hwhole,
      endsDigits_cons (by decide), exists_literalTail?_fraction hf hfs
        (.inr ⟨sign, ds, rfl, hsign, hdne, hds⟩)⟩, fun c hc => ?_⟩
    simp only [hf, if_false, List.cons_append, List.mem_append, List.mem_cons] at hc
    rcases hc with hc | rfl | hc | hc
    · exact isLiteralChar_of_isDigit (hwhole.digits c hc)
    · rfl
    · exact isLiteralChar_of_isDigit (hfs c hc)
    · exact hesc c (by simpa using hc)

/-- The text of a double is its sign and a numeral. -/
theorem exists_isNumeral_scaledText (d : Double) :
    ∃ cs, d.scaledText.toList = (if d.isNegative then ['-'] else []) ++ cs ∧ IsNumeral cs := by
  have hzero : IsWhole ['0'] := by simpa using isWhole_toDigits 0
  unfold Double.scaledText
  cases hd : d.isZero with
  | true =>
    refine ⟨['0'] ++ '.' :: ['0'], by simp [Double.signText], ?_⟩
    exact isNumeral_fraction hzero (by simp) (by simp)
  | false =>
    have hsig := d.isSignificant_shortest hd .even
    cases hshort : d.shortest .even with
    | mk digits power =>
      rw [hshort] at hsig
      simp only [Bool.false_eq_true, if_false, String.toList_ofList, Double.signText]
      refine ⟨_, rfl, ?_⟩
      have htake : 0 < power.toNat → IsWhole (digits.take power.toNat) := fun h =>
        (hsig.of_isPrefix (List.take_prefix _ _) (by simp [hsig.ne_nil]; omega)).isWhole
      split
      case isTrue hsmall =>
        -- the point stands before all digits
        refine isNumeral_fraction hzero (by simp [hsig.ne_nil]) fun c hc => ?_
        exact (List.mem_append.1 hc).elim isDigit_of_mem_zeros (hsig.digits c)
      split
      case isTrue hmiddle =>
        split
        case isTrue hlong =>
          -- the point stands behind all digits
          have hw : IsWhole (digits ++ Double.zeros (power.toNat - digits.length)) :=
            (hsig.append fun c => isDigit_of_mem_zeros).isWhole
          exact isNumeral_fraction hw (by simp) (by simp)
        case isFalse hinside =>
          refine isNumeral_fraction (htake (by omega)) ?_ fun c hc =>
            hsig.digits c (List.mem_of_mem_drop hc)
          intro hnil
          exact hinside (List.drop_eq_nil_iff.1 hnil)
      case isFalse houter =>
        have hpower : power < 0 ∨ 1 < power := by omega
        have hfront : IsWhole (digits.take 1) :=
          (hsig.of_isPrefix (List.take_prefix _ _) (by simp [hsig.ne_nil])).isWhole
        have hback : ∀ c ∈ digits.drop 1, c.isDigit = true := fun c hc =>
          hsig.digits c (List.mem_of_mem_drop hc)
        have hn := isNumeral_scaled hfront hback rfl hpower
        convert hn using 1
        by_cases hlen : digits.length ≤ 1
        · have hd1 : digits.drop 1 = [] := List.drop_eq_nil_iff.2 hlen
          have ht1 : digits.take 1 = digits := List.take_of_length_le hlen
          simp [hlen, hd1, ht1]
        · have hd1 : digits.drop 1 ≠ [] := fun h => hlen (List.drop_eq_nil_iff.1 h)
          simp only [hlen, hd1, if_false]
          simp

/-- The text of a double is a literal. -/
theorem exists_literal?_scaledText (d : Double) : ∃ l, literal? d.scaledText.toList = some l := by
  obtain ⟨cs, hcs, hnum⟩ := exists_isNumeral_scaledText d
  rw [hcs]
  exact hnum.exists_literal? d.isNegative

theorem isLiteralChar_of_mem_scaledText {d : Double} {c : Char}
    (hc : c ∈ d.scaledText.toList) : isLiteralChar c = true := by
  obtain ⟨cs, hcs, hnum⟩ := exists_isNumeral_scaledText d
  rw [hcs, List.mem_append] at hc
  rcases hc with hc | hc
  · split at hc
    · rw [List.mem_singleton.1 hc]; rfl
    · cases hc
  · exact hnum.chars c hc

end Json

end RequestCache
