/-
# Reading what was written

The text of a value, read token by token and built into a tree, is the tree of the value
(`parse?_render`), at any depth and whatever stands in its strings.  What a type makes of the tree
is another matter; a reader who skips a member never asks.

A number ends only where a character follows that cannot belong to it, so the text of a value is
read to its end in front of a delimiter, or of nothing (`Delimited`).  The rest is an induction
over the value: its tokens are appended to those read before (`readOn_write`), and they close
every bracket that they open (`foldlM_tokens`).
-/
import RequestCache.Json.Codec
import RequestCache.Proofs.Json.Numeral

namespace RequestCache.Json

/-! ## The tokens and the tree of a value -/

/-- The literal of a double's text. -/
def Literal.ofDouble (d : Double) : Literal :=
  (literal? d.scaledText.toList).getD (.whole false 0)

theorem literal?_scaledText (d : Double) :
    literal? d.scaledText.toList = some (.ofDouble d) := by
  obtain ⟨l, hl⟩ := exists_literal?_scaledText d
  rw [Literal.ofDouble, hl]
  rfl

namespace Value

mutual

/-- The tree of a value. -/
def tree : Value → Tree
  | .null => .null
  | .bool b => .bool b
  | .int n => .number (.ofInt n)
  | .double d => .number (.ofDouble d)
  | .text s => .text (some s)
  | .items vs => .items (trees vs)
  | .members ms => .members (memberTrees ms)

/-- The trees of the items of a list. -/
def trees : List Value → List Tree
  | [] => []
  | v :: vs => v.tree :: trees vs

/-- The trees of the members of an object. -/
def memberTrees : List (String × Value) → List (Option String × Tree)
  | [] => []
  | (name, v) :: ms => (some name, v.tree) :: memberTrees ms

end

mutual

/-- The tokens that a value is written as. -/
def tokens : Value → List Token
  | .null => [.null]
  | .bool b => [.bool b]
  | .int n => [.number (.ofInt n)]
  | .double d => [.number (.ofDouble d)]
  | .text s => [.text (some s)]
  | .items vs => .openItems :: (itemTokens true vs ++ [.closeItems])
  | .members ms => .openMembers :: (memberTokens true ms ++ [.closeMembers])

/-- The tokens of the items of a list, each but the first after a comma. -/
def itemTokens (first : Bool) : List Value → List Token
  | [] => []
  | v :: vs => (if first then [] else [.comma]) ++ v.tokens ++ itemTokens false vs

/-- The tokens of the members of an object, each but the first after a comma. -/
def memberTokens (first : Bool) : List (String × Value) → List Token
  | [] => []
  | (name, v) :: ms =>
    (if first then [] else [.comma]) ++ .text (some name) :: .colon :: v.tokens ++
      memberTokens false ms

end

end Value

/-! ## Characters to tokens -/

namespace Lexer

/-- The tokens that the reader ends with, from where it stands, the last one first. -/
def readOn (s : Lexer) (cs : List Char) : Option (List Token) := (cs.foldlM step s).bind finish

lemma readOn_cons (s : Lexer) (c : Char) (cs : List Char) :
    s.readOn (c :: cs) = (s.step c).bind fun s => s.readOn cs := by
  simp only [readOn, List.foldlM_cons, Option.bind_eq_bind, Option.bind_assoc]

lemma readOn_cons_of_step {s s' : Lexer} {c : Char} (h : s.step c = some s') (cs : List Char) :
    s.readOn (c :: cs) = s'.readOn cs := by
  rw [readOn_cons, h]
  rfl

/-- The characters cannot go on with a number. -/
def Delimited (cs : List Char) : Prop := ∀ c ∈ cs.head?, isLiteralChar c = false

lemma delimited_nil : Delimited [] := by
  intro c hc
  cases hc

lemma delimited_cons {c : Char} {cs : List Char} (h : isLiteralChar c = false) :
    Delimited (c :: cs) := by
  intro d hd
  cases hd
  exact h

variable {done : List Token}

/-! ### Numbers -/

lemma readOn_number {cs : List Char} (hcs : ∀ c ∈ cs, isLiteralChar c = true)
    (ds rest : List Char) :
    readOn ⟨.number ds, done⟩ (cs ++ rest) = readOn ⟨.number (cs.reverse ++ ds), done⟩ rest := by
  induction cs generalizing ds with
  | nil => rfl
  | cons c cs ih =>
    have hstep : step ⟨.number ds, done⟩ c = some ⟨.number (c :: ds), done⟩ := by
      simp [step, hcs c (by simp)]
    rw [List.cons_append, readOn_cons_of_step hstep, ih fun d hd => hcs d (by simp [hd])]
    simp

/-- In front of a delimiter a number is finished. -/
lemma readOn_number_delimited {ds rest : List Char} {l : Literal}
    (hl : literal? ds.reverse = some l) (hrest : Delimited rest) :
    readOn ⟨.number ds, done⟩ rest = readOn ⟨.free, .number l :: done⟩ rest := by
  cases rest with
  | nil => simp [readOn, finish, hl]
  | cons c cs =>
    have hc : isLiteralChar c = false := hrest c (by simp)
    rw [readOn_cons, readOn_cons]
    simp [step, hc, hl]

lemma readOn_literal {cs rest : List Char} {l : Literal} (hl : literal? cs = some l)
    (hcs : ∀ c ∈ cs, isLiteralChar c = true) (hrest : Delimited rest) :
    readOn ⟨.free, done⟩ (cs ++ rest) = readOn ⟨.free, .number l :: done⟩ rest := by
  obtain ⟨c, ds, rfl, hc⟩ := head_of_literal? hl
  have hstart : step ⟨.free, done⟩ c = some ⟨.number [c], done⟩ := by
    have hspace : isSpace c = false := by
      rcases hc with hc | rfl
      · simp only [isSpace, Bool.or_eq_false_iff, beq_eq_false_iff_ne]
        refine ⟨⟨⟨?_, ?_⟩, ?_⟩, ?_⟩ <;> rintro rfl <;> exact absurd hc (by decide)
      · rfl
    have hsign : (c.isDigit || c == '-') = true := by
      rcases hc with hc | rfl
      · simp [hc]
      · rfl
    simp [step, start, hspace, hsign]
  rw [List.cons_append, readOn_cons_of_step hstart,
    readOn_number fun d hd => hcs d (by simp [hd])]
  exact readOn_number_delimited (by simpa using hl) hrest

/-! ### Strings -/

/-- The piece that a character of a string is read back as. -/
def pieceOf (c : Char) : Piece :=
  if (escapedChar c).length = 6 then .unit c.toNat else .char c

/-- The digits of a character below the space are its two halves. -/
lemma hexValue?_hexDigit {n : Nat} (h : n < 16) : hexValue? (hexDigit n) = some n := by
  have hall : ∀ m : Fin 16, hexValue? (hexDigit m) = some m.val := by decide
  exact hall ⟨n, h⟩

lemma readOn_unit {ps : List Piece} {n : Nat} (h : n < 0x20) (rest : List Char) :
    readOn ⟨.string ps, done⟩
        (['\\', 'u', '0', '0', hexDigit (n / 16), hexDigit (n % 16)] ++ rest) =
      readOn ⟨.string (.unit n :: ps), done⟩ rest := by
  have hhigh := hexValue?_hexDigit (show n / 16 < 16 by omega)
  have hlow := hexValue?_hexDigit (show n % 16 < 16 by omega)
  have hzero : hexValue? '0' = some 0 := by decide
  have hn : 16 * (n / 16) + n % 16 = n := by omega
  simp [readOn_cons, step, hhigh, hlow, hzero, hn]

/-- A character is read back from its escape, or from itself. -/
lemma readOn_escapedChar (ps : List Piece) (c : Char) (rest : List Char) :
    readOn ⟨.string ps, done⟩ (escapedChar c ++ rest) =
      readOn ⟨.string (pieceOf c :: ps), done⟩ rest := by
  by_cases hquote : c = '"'
  · subst hquote; rfl
  by_cases hslash : c = '\\'
  · subst hslash; rfl
  by_cases hback : c = '\x08'
  · subst hback; rfl
  by_cases htab : c = '\t'
  · subst htab; rfl
  by_cases hline : c = '\n'
  · subst hline; rfl
  by_cases hfeed : c = '\x0c'
  · subst hfeed; rfl
  by_cases hreturn : c = '\r'
  · subst hreturn; rfl
  by_cases hlow : c.toNat < 0x20
  · have hc : escapedChar c =
        ['\\', 'u', '0', '0', hexDigit (c.toNat / 16), hexDigit (c.toNat % 16)] := by
      simp [escapedChar, hquote, hslash, hback, htab, hline, hfeed, hreturn, hlow]
    rw [pieceOf, hc]
    exact readOn_unit hlow rest
  · have hc : escapedChar c = [c] := by
      simp [escapedChar, hquote, hslash, hback, htab, hline, hfeed, hreturn, hlow]
    have hstep : step ⟨.string ps, done⟩ c = some ⟨.string (.char c :: ps), done⟩ := by
      simp [step, hquote, hslash, hlow]
    rw [pieceOf, hc]
    exact readOn_cons_of_step hstep rest

lemma textOfPieces?_unit {n : Nat} (h : n < 0xD800) (ps : List Piece) (rest : List Char) :
    textOfPieces? (.unit n :: ps) rest = textOfPieces? ps (Char.ofNat n :: rest) := by
  have hhigh : isHighSurrogate n = false := by
    simp only [isHighSurrogate, Bool.and_eq_false_iff, decide_eq_false_iff_not]
    omega
  have hlow : isLowSurrogate n = false := by
    simp only [isLowSurrogate, Bool.and_eq_false_iff, decide_eq_false_iff_not]
    omega
  cases ps with
  | nil => simp [textOfPieces?, hhigh, hlow]
  | cons p ps => cases p <;> simp [textOfPieces?, hhigh, hlow]

lemma textOfPieces?_pieceOf (c : Char) (ps : List Piece) (rest : List Char) :
    textOfPieces? (pieceOf c :: ps) rest = textOfPieces? ps (c :: rest) := by
  unfold pieceOf
  split
  case isFalse => rfl
  case isTrue hlong =>
    have hc : c.toNat < 0x20 := by
      by_contra hc
      simp only [escapedChar, hc, if_false] at hlong
      split_ifs at hlong <;> simp at hlong
    rw [textOfPieces?_unit (by omega), Char.ofNat_toNat]

lemma textOfPieces?_map_pieceOf (cs rest : List Char) :
    textOfPieces? (cs.map pieceOf) rest = some (cs.reverse ++ rest) := by
  induction cs generalizing rest with
  | nil => rfl
  | cons c cs ih => rw [List.map_cons, textOfPieces?_pieceOf, ih]; simp

lemma readOn_chars (cs : List Char) (ps : List Piece) (rest : List Char) :
    readOn ⟨.string ps, done⟩ (cs.foldr (fun c r => escapedChar c ++ r) rest) =
      readOn ⟨.string ((cs.map pieceOf).reverse ++ ps), done⟩ rest := by
  induction cs generalizing ps with
  | nil => rfl
  | cons c cs ih => rw [List.foldr_cons, readOn_escapedChar, ih]; simp

lemma readOn_writeText (s : String) (rest : List Char) :
    readOn ⟨.free, done⟩ (writeText s rest) = readOn ⟨.free, .text (some s) :: done⟩ rest := by
  have hopen : step ⟨.free, done⟩ '"' = some ⟨.string [], done⟩ := rfl
  have hclose : step ⟨.string (s.toList.map pieceOf).reverse, done⟩ '"' =
      some ⟨.free, .text (some s) :: done⟩ := by
    have htext : textOfPieces? (s.toList.map pieceOf).reverse [] = some s.toList := by
      rw [← List.map_reverse, textOfPieces?_map_pieceOf]
      simp
    simp [step, Token.ofPieces, htext]
  rw [writeText, readOn_cons_of_step hopen, readOn_chars, List.append_nil,
    readOn_cons_of_step hclose]

/-! ### Values -/

lemma readOn_false (rest : List Char) :
    readOn ⟨.free, done⟩ ('f' :: 'a' :: 'l' :: 's' :: 'e' :: rest) =
      readOn ⟨.free, .bool false :: done⟩ rest := by
  simp [readOn_cons, step, start, isSpace]

lemma readOn_true (rest : List Char) :
    readOn ⟨.free, done⟩ ('t' :: 'r' :: 'u' :: 'e' :: rest) =
      readOn ⟨.free, .bool true :: done⟩ rest := by
  simp [readOn_cons, step, start, isSpace]

lemma readOn_null (rest : List Char) :
    readOn ⟨.free, done⟩ ('n' :: 'u' :: 'l' :: 'l' :: rest) =
      readOn ⟨.free, .null :: done⟩ rest := by
  simp [readOn_cons, step, start, isSpace]

/-- A bracket, a comma or a colon, and the token that it is. -/
inductive IsMark : Char → Token → Prop
  | openItems : IsMark '[' .openItems
  | closeItems : IsMark ']' .closeItems
  | openMembers : IsMark '{' .openMembers
  | closeMembers : IsMark '}' .closeMembers
  | comma : IsMark ',' .comma
  | colon : IsMark ':' .colon

lemma readOn_mark {c : Char} {t : Token} (h : IsMark c t) (rest : List Char) :
    readOn ⟨.free, done⟩ (c :: rest) = readOn ⟨.free, t :: done⟩ rest := by
  cases h <;> exact readOn_cons_of_step rfl rest

lemma delimited_mark {c : Char} {t : Token} (h : IsMark c t) (rest : List Char) :
    Delimited (c :: rest) := by
  cases h <;> exact delimited_cons rfl

lemma delimited_writeItems (vs : List Value) {rest : List Char} (h : Delimited rest) :
    Delimited (Value.writeItems false vs rest) := by
  cases vs with
  | nil => exact h
  | cons v vs => exact delimited_mark .comma _

lemma delimited_writeMembers (ms : List (String × Value)) {rest : List Char}
    (h : Delimited rest) : Delimited (Value.writeMembers false ms rest) := by
  cases ms with
  | nil => exact h
  | cons m ms => exact delimited_mark .comma _

/-- The comma in front of every part but the first. -/
lemma readOn_comma (first : Bool) (cs : List Char) :
    readOn ⟨.free, done⟩ ((if first then id else (',' :: ·)) cs) =
      readOn ⟨.free, (if first then [] else [.comma]) ++ done⟩ cs := by
  cases first with
  | true => rfl
  | false => exact readOn_mark .comma cs

mutual

/-- In front of a delimiter the text of a value is read as the tokens of the value. -/
theorem readOn_write (v : Value) {rest : List Char} (hrest : Delimited rest)
    (done : List Token) :
    readOn ⟨.free, done⟩ (v.write rest) = readOn ⟨.free, v.tokens.reverse ++ done⟩ rest := by
  cases v with
  | null => exact readOn_null rest
  | bool b =>
    cases b with
    | true => exact readOn_true rest
    | false => exact readOn_false rest
  | int n =>
    exact readOn_literal (literal?_toString n) (fun c hc => isLiteralChar_of_mem_toString hc) hrest
  | double d =>
    exact readOn_literal (literal?_scaledText d) (fun c hc => isLiteralChar_of_mem_scaledText hc)
      hrest
  | text s => exact readOn_writeText s rest
  | items vs =>
    rw [Value.write, readOn_mark .openItems,
      readOn_writeItems vs true (delimited_mark .closeItems rest), readOn_mark .closeItems]
    simp [Value.tokens]
  | members ms =>
    rw [Value.write, readOn_mark .openMembers,
      readOn_writeMembers ms true (delimited_mark .closeMembers rest),
      readOn_mark .closeMembers]
    simp [Value.tokens]

lemma readOn_writeItems (vs : List Value) (first : Bool) {rest : List Char}
    (hrest : Delimited rest) (done : List Token) :
    readOn ⟨.free, done⟩ (Value.writeItems first vs rest) =
      readOn ⟨.free, (Value.itemTokens first vs).reverse ++ done⟩ rest := by
  cases vs with
  | nil => rfl
  | cons v vs =>
    have hvs := delimited_writeItems vs hrest
    rw [Value.writeItems, readOn_comma, readOn_write v hvs, readOn_writeItems vs false hrest]
    cases first <;> simp [Value.itemTokens]

lemma readOn_writeMembers (ms : List (String × Value)) (first : Bool) {rest : List Char}
    (hrest : Delimited rest) (done : List Token) :
    readOn ⟨.free, done⟩ (Value.writeMembers first ms rest) =
      readOn ⟨.free, (Value.memberTokens first ms).reverse ++ done⟩ rest := by
  match ms with
  | [] => rfl
  | (name, v) :: ms =>
    have hms := delimited_writeMembers ms hrest
    rw [Value.writeMembers, readOn_comma, readOn_writeText, readOn_mark .colon,
      readOn_write v hms, readOn_writeMembers ms false hrest]
    cases first <;> simp [Value.memberTokens]

end

end Lexer

theorem tokens?_write (v : Value) : tokens? (v.write []) = some v.tokens := by
  have hread := Lexer.readOn_write v Lexer.delimited_nil []
  rw [Lexer.readOn] at hread
  rw [tokens?, hread]
  simp [Lexer.readOn, Lexer.finish]

/-! ## Tokens to trees -/

namespace Builder

/-- Reads a row of tokens. -/
def readOn (b : Builder) (ts : List Token) : Option Builder := ts.foldlM step b

lemma readOn_cons_of_step {b b' : Builder} {t : Token} (h : b.step t = some b')
    (ts : List Token) : b.readOn (t :: ts) = b'.readOn ts := by
  simp [readOn, h]

/-- Where a first item may begin, only the end of the list makes a difference to any other place
of an item. -/
lemma step_firstItem {t : Token} (ht : t ≠ .closeItems) (outer : List Frame) :
    step (.firstItem outer) t = step (.value (.items [] :: outer)) t := by
  cases t <;> first | rfl | exact absurd rfl ht

lemma exists_tokens_eq (v : Value) : ∃ t ts, v.tokens = t :: ts ∧ t ≠ .closeItems := by
  cases v <;> exact ⟨_, _, rfl, by simp⟩

/-- A value may stand first in a list as anywhere else. -/
lemma readOn_firstItem (v : Value) (ts : List Token) (outer : List Frame) :
    readOn (.firstItem outer) (v.tokens ++ ts) =
      readOn (.value (.items [] :: outer)) (v.tokens ++ ts) := by
  obtain ⟨t, us, hv, ht⟩ := exists_tokens_eq v
  rw [hv]
  simp only [readOn, List.cons_append, List.foldlM_cons, step_firstItem ht]

mutual

/-- The tokens of a value are built into its tree and leave the open brackets as they were. -/
theorem readOn_tokens (v : Value) (outer : List Frame) (ts : List Token) :
    readOn (.value outer) (v.tokens ++ ts) = readOn (.after v.tree outer) ts := by
  cases v with
  | null => rfl
  | bool b => rfl
  | int n => rfl
  | double d => rfl
  | text s => rfl
  | items vs =>
    cases vs with
    | nil => rfl
    | cons v vs =>
      have hopen : step (.value outer) .openItems = some (.firstItem outer) := rfl
      rw [Value.tokens, Value.itemTokens]
      simp only [List.cons_append, List.append_assoc, List.nil_append, if_true]
      rw [readOn_cons_of_step hopen, readOn_firstItem, readOn_tokens v, readOn_itemTokens vs]
      rfl
  | members ms =>
    match ms with
    | [] => rfl
    | (name, v) :: ms =>
      have hopen : step (.value outer) .openMembers = some (.firstName outer) := rfl
      have hname : step (.firstName outer) (.text (some name)) =
        some (.colon [] (some name) outer) := rfl
      have hcolon : step (.colon [] (some name) outer) .colon =
        some (.value (.member [] (some name) :: outer)) := rfl
      rw [Value.tokens, Value.memberTokens]
      simp only [List.cons_append, List.append_assoc, List.nil_append, if_true]
      rw [readOn_cons_of_step hopen, readOn_cons_of_step hname, readOn_cons_of_step hcolon,
        readOn_tokens v, readOn_memberTokens ms]
      rfl

lemma readOn_itemTokens (vs : List Value) (t : Tree) (done : List Tree) (outer : List Frame)
    (ts : List Token) :
    readOn (.after t (.items done :: outer)) (Value.itemTokens false vs ++ .closeItems :: ts) =
      readOn (.after (.items (done.reverse ++ t :: Value.trees vs)) outer) ts := by
  cases vs with
  | nil =>
    have hclose : step (.after t (.items done :: outer)) .closeItems =
      some (.after (.items (t :: done).reverse) outer) := rfl
    rw [Value.itemTokens, List.nil_append, readOn_cons_of_step hclose]
    simp [Value.trees]
  | cons v vs =>
    have hcomma : step (.after t (.items done :: outer)) .comma =
      some (.value (.items (t :: done) :: outer)) := rfl
    rw [Value.itemTokens]
    simp only [List.cons_append, List.append_assoc, List.nil_append, Bool.false_eq_true, if_false]
    rw [readOn_cons_of_step hcomma, readOn_tokens v, readOn_itemTokens vs]
    simp [Value.trees]

lemma readOn_memberTokens (ms : List (String × Value)) (name : Option String) (t : Tree)
    (done : List (Option String × Tree)) (outer : List Frame) (ts : List Token) :
    readOn (.after t (.member done name :: outer))
        (Value.memberTokens false ms ++ .closeMembers :: ts) =
      readOn (.after (.members (done.reverse ++ (name, t) :: Value.memberTrees ms)) outer) ts := by
  match ms with
  | [] =>
    have hclose : step (.after t (.member done name :: outer)) .closeMembers =
      some (.after (.members ((name, t) :: done).reverse) outer) := rfl
    rw [Value.memberTokens, List.nil_append, readOn_cons_of_step hclose]
    simp [Value.memberTrees]
  | (next, v) :: ms =>
    have hcomma : step (.after t (.member done name :: outer)) .comma =
      some (.nextName ((name, t) :: done) outer) := rfl
    have hname : step (.nextName ((name, t) :: done) outer) (.text (some next)) =
      some (.colon ((name, t) :: done) (some next) outer) := rfl
    have hcolon : step (.colon ((name, t) :: done) (some next) outer) .colon =
      some (.value (.member ((name, t) :: done) (some next) :: outer)) := rfl
    rw [Value.memberTokens]
    simp only [List.cons_append, List.append_assoc, List.nil_append, Bool.false_eq_true, if_false]
    rw [readOn_cons_of_step hcomma, readOn_cons_of_step hname, readOn_cons_of_step hcolon,
      readOn_tokens v, readOn_memberTokens ms]
    simp [Value.memberTrees]

end

end Builder

theorem ofTokens?_tokens (v : Value) : Tree.ofTokens? v.tokens = some v.tree := by
  have hread := Builder.readOn_tokens v [] []
  rw [List.append_nil, Builder.readOn] at hread
  rw [Tree.ofTokens?, hread]
  rfl

/-- What was written is read back: the text of a value is parsed to the tree of the value. -/
theorem parse?_render (v : Value) : Tree.parse? v.render = some v.tree := by
  rw [Tree.parse?, Value.render, String.toList_ofList, tokens?_write]
  exact ofTokens?_tokens v

end RequestCache.Json
