/-
# Tokens

A text is cut into brackets, commas, words, numbers and strings, one character at a time.  A
string is kept even when it names half of a surrogate pair: it then has no text, which matters
only to a reader who asks for it.
-/
import RequestCache.Json.Literal

namespace RequestCache.Json

/-- The smallest parts of a JSON text. -/
inductive Token where
  | openItems
  | closeItems
  | openMembers
  | closeMembers
  | comma
  | colon
  | null
  | bool (b : Bool)
  | number (l : Literal)
  /-- A string; `none` if a surrogate in it stands alone. -/
  | text (s : Option String)
deriving DecidableEq, Repr

/-- A part of a string: a character that stands for itself or by a short escape, or a code
unit given by its four digits. -/
inductive Piece where
  | char (c : Char)
  | unit (n : Nat)
deriving DecidableEq, Repr

/-- The first half of a surrogate pair. -/
def isHighSurrogate (n : Nat) : Bool := 0xD800 ≤ n && n < 0xDC00

/-- The second half of a surrogate pair. -/
def isLowSurrogate (n : Nat) : Bool := 0xDC00 ≤ n && n < 0xE000

/-- The character of a surrogate pair. -/
def surrogateChar (high low : Nat) : Char :=
  Char.ofNat (0x10000 + (high - 0xD800) * 0x400 + (low - 0xDC00))

/-- The text of a string's pieces, the last piece first, in front of `rest`: a low half must
follow a high one, and nothing else may be a half. -/
def textOfPieces? : List Piece → (rest : List Char) → Option (List Char)
  | [], rest => some rest
  | .char c :: ps, rest => textOfPieces? ps (c :: rest)
  | .unit n :: .unit m :: ps, rest =>
    if isLowSurrogate n then
      if isHighSurrogate m then textOfPieces? ps (surrogateChar m n :: rest) else none
    else if isHighSurrogate n then none
    else textOfPieces? (.unit m :: ps) (Char.ofNat n :: rest)
  | .unit n :: ps, rest =>
    if isLowSurrogate n || isHighSurrogate n then none
    else textOfPieces? ps (Char.ofNat n :: rest)

/-- The string token of some pieces, the last piece first. -/
def Token.ofPieces (ps : List Piece) : Token :=
  .text ((textOfPieces? ps []).map String.ofList)

/-- Where the reader stands inside a token. -/
inductive Mode where
  /-- Between two tokens. -/
  | free
  /-- In a number; its characters, the last one first. -/
  | number (done : List Char)
  /-- In a word; the characters still to come and the word's token. -/
  | word (left : List Char) (token : Token)
  /-- In a string; its pieces, the last one first. -/
  | string (done : List Piece)
  /-- After a backslash in a string. -/
  | escape (done : List Piece)
  /-- In the four digits of a code unit: how many are missing, and the value so far. -/
  | unit (done : List Piece) (missing : Nat) (value : Nat)

/-- The reader of tokens: where it stands, and the tokens so far, the last one first. -/
structure Lexer where
  /-- Where the reader stands. -/
  mode : Mode
  /-- The finished tokens, the last one first. -/
  done : List Token

namespace Lexer

/-- White space between tokens. -/
def isSpace (c : Char) : Bool := c == ' ' || c == '\t' || c == '\n' || c == '\r'

/-- The character begins a token or stands between tokens. -/
def start (done : List Token) (c : Char) : Option Lexer :=
  if isSpace c then some ⟨.free, done⟩
  else if c.isDigit || c == '-' then some ⟨.number [c], done⟩
  else match c with
    | '[' => some ⟨.free, .openItems :: done⟩
    | ']' => some ⟨.free, .closeItems :: done⟩
    | '{' => some ⟨.free, .openMembers :: done⟩
    | '}' => some ⟨.free, .closeMembers :: done⟩
    | ',' => some ⟨.free, .comma :: done⟩
    | ':' => some ⟨.free, .colon :: done⟩
    | '"' => some ⟨.string [], done⟩
    | 't' => some ⟨.word ['r', 'u', 'e'] (.bool true), done⟩
    | 'f' => some ⟨.word ['a', 'l', 's', 'e'] (.bool false), done⟩
    | 'n' => some ⟨.word ['u', 'l', 'l'] .null, done⟩
    | _ => none

/-- The character that a short escape stands for. -/
def shortEscape? : Char → Option Char
  | '"' => some '"'
  | '\\' => some '\\'
  | '/' => some '/'
  | 'b' => some '\x08'
  | 'f' => some '\x0c'
  | 'n' => some '\n'
  | 'r' => some '\r'
  | 't' => some '\t'
  | _ => none

/-- The value of a digit in base sixteen, of either case. -/
def hexValue? (c : Char) : Option Nat :=
  if '0' ≤ c ∧ c ≤ '9' then some (c.toNat - '0'.toNat)
  else if 'a' ≤ c ∧ c ≤ 'f' then some (c.toNat - 'a'.toNat + 10)
  else if 'A' ≤ c ∧ c ≤ 'F' then some (c.toNat - 'A'.toNat + 10)
  else none

/-- Reads one character. -/
def step (s : Lexer) (c : Char) : Option Lexer :=
  match s.mode with
  | .free => start s.done c
  | .number cs =>
    if isLiteralChar c then some ⟨.number (c :: cs), s.done⟩
    else (literal? cs.reverse).bind fun l => start (.number l :: s.done) c
  | .word [] _ => none
  | .word [last] token => if c = last then some ⟨.free, token :: s.done⟩ else none
  | .word (first :: rest) token => if c = first then some ⟨.word rest token, s.done⟩ else none
  | .string ps =>
    if c = '"' then some ⟨.free, Token.ofPieces ps :: s.done⟩
    else if c = '\\' then some ⟨.escape ps, s.done⟩
    else if c.toNat < 0x20 then none
    else some ⟨.string (.char c :: ps), s.done⟩
  | .escape ps =>
    if c = 'u' then some ⟨.unit ps 4 0, s.done⟩
    else (shortEscape? c).map fun e => ⟨.string (.char e :: ps), s.done⟩
  | .unit ps missing value =>
    (hexValue? c).map fun d =>
      if missing ≤ 1 then ⟨.string (.unit (16 * value + d) :: ps), s.done⟩
      else ⟨.unit ps (missing - 1) (16 * value + d), s.done⟩

/-- The tokens at the end of the text, the last one first. -/
def finish (s : Lexer) : Option (List Token) :=
  match s.mode with
  | .free => some s.done
  | .number cs => (literal? cs.reverse).map fun l => .number l :: s.done
  | _ => none

end Lexer

/-- The tokens of a text. -/
def tokens? (cs : List Char) : Option (List Token) :=
  ((cs.foldlM Lexer.step ⟨.free, []⟩).bind Lexer.finish).map List.reverse

end RequestCache.Json
