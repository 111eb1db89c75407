/-
# How directives are written

`debug` is about all entries, `pipecache::settings=debug` about those from sources that begin so,
and `pipecache::settings` shows everything they tell.  A level has a name, in any case, or a
number.  In square brackets follow the name of a span and, in braces, that of a field, with or
without a value: `pipecache[{request}]=debug`.

White space around a directive is left out where its structure is looked for, but not where its
pieces are cut out: they are taken from the whole text, at the places, counted in bytes, that
they have in the other one.  White space in front thus moves them all, and white space at the end
belongs to the last one.
-/
import RequestCache.LogFilter.Directive
import RequestCache.Pattern.Meaning

namespace RequestCache

/-- Why a filter cannot be used. -/
inductive FilterFault where
  /-- A directive makes no sense. -/
  | unreadable
  /-- A piece of a directive would begin or end inside of a character. -/
  | splitCharacter
deriving DecidableEq, Repr

namespace Directive

/-- How many bytes characters take. -/
def byteCount (cs : List Char) : Nat := cs.foldl (fun n c => n + c.utf8Size) 0

/-- The characters in the first `n` bytes, and those after them. -/
def splitBytes : (n : Nat) → List Char → Except FilterFault (List Char × List Char)
  | 0, cs => .ok ([], cs)
  | _ + 1, [] => .error .splitCharacter
  | n + 1, c :: cs =>
    if c.utf8Size ≤ n + 1 then
      (splitBytes (n + 1 - c.utf8Size) cs).map fun (front, rest) => (c :: front, rest)
    else .error .splitCharacter

/-- The piece between two places. -/
def slice (whole : List Char) (first last : Nat) : Except FilterFault (List Char) := do
  let (_, rest) ← splitBytes first whole
  let (piece, _) ← splitBytes (last - first) rest
  return piece

/-- The number that digits stand for, with or without a plus sign. -/
def numberOf? (cs : List Char) : Option Nat :=
  let digits := match cs with
    | '+' :: r => r
    | r => r
  if !digits.isEmpty && digits.all Char.isDigit then
    some (digits.foldl (fun n c => 10 * n + (c.toNat - '0'.toNat)) 0)
  else none

/-- The detail of a level, given by its name or its number. -/
def detailOf? (cs : List Char) : Option Nat :=
  match numberOf? cs with
  | some n => if n ≤ everything then some n else none
  | none =>
    [("off", 0), ("error", 1), ("warn", 2), ("info", 3), ("debug", 4), ("trace", 5)].lookup
      (String.ofList (cs.map Char.toLower))

/-- A directive that is a level or the beginning of a source. -/
def ofWord (cs : List Char) : Directive :=
  match detailOf? cs with
  | some detail => { detail }
  | none => { source := some (String.ofList cs), detail := everything }

/-- The detail that is given from a place on; none given is everything. -/
def detailFrom (whole : List Char) (first : Nat) : Except FilterFault Nat := do
  let (_, level) ← splitBytes first whole
  if level.isEmpty then return everything
  match detailOf? level with
  | some detail => return detail
  | none => throw .unreadable

/-- The detail after a closing bracket, which ends at a place. -/
def detailAfterBracket (whole : List Char) (mark : Nat) : List Char → Except FilterFault Nat
  | [] => .ok everything
  | c :: _ => if c = '=' then detailFrom whole (mark + 1) else .error .unreadable

/-- Is the rest of a text the exponent of a number, or nothing? -/
def isExponent : List Char → Bool
  | [] => true
  | e :: cs =>
    let digits := if cs.head? = some '-' ∨ cs.head? = some '+' then cs.drop 1 else cs
    (e = 'e' || e = 'E') && !digits.isEmpty && digits.all Char.isDigit

/-- Is a text a number without a sign? -/
def isNumber (cs : List Char) : Bool :=
  if ["inf", "infinity", "nan"].contains (String.ofList (cs.map Char.toLower)) then true
  else
    let whole := cs.takeWhile Char.isDigit
    let rest := cs.dropWhile Char.isDigit
    let tail := if rest.head? = some '.' then rest.drop 1 else []
    let rest := if rest.head? = some '.' then tail.dropWhile Char.isDigit else rest
    !(whole ++ tail.takeWhile Char.isDigit).isEmpty && isExponent rest

/-- Does the text for the value of a field make sense?  It is a number or a pattern, and only a
number can begin with a plus sign. -/
def isFieldValue : List Char → Bool
  | '+' :: cs => isNumber cs
  | cs => isPattern cs

/-- The name of a field, and whether a value for it follows.  What comes after a second equals
sign does not count. -/
def fieldOf (cs : List Char) : Except FilterFault (String × Bool) := do
  let isBefore c := c != '='
  if cs.isEmpty then throw .unreadable
  let name := String.ofList (cs.takeWhile isBefore)
  match cs.dropWhile isBefore with
  | [] => return (name, false)
  | _ :: cs =>
    if isFieldValue (cs.takeWhile isBefore) then return (name, true)
    throw .unreadable

/-- A directive from the bracket on: `start` is the place after it, and `cs` stands there. -/
def parseBrackets (whole : List Char) (source : Option String) (start : Nat) (cs : List Char) :
    Except FilterFault Directive := do
  let isSpan c := c != ']' && c != '{'
  let mark := start + byteCount (cs.takeWhile isSpan)
  match cs.dropWhile isSpan with
  | [] => throw .unreadable
  | ']' :: rest =>
    let _ ← slice whole start mark
    let detail ← detailAfterBracket whole (mark + 1) rest
    return { source, isAboutSpans := true, detail }
  | _ :: rest =>
    let span ← slice whole start mark
    let isField c := c != '}'
    let last := mark + 1 + byteCount (rest.takeWhile isField)
    match rest.dropWhile isField with
    | [] => throw .unreadable
    | _ :: rest =>
      let (field, hasValue) ← fieldOf (← slice whole (mark + 1) last)
      match rest with
      | ']' :: rest =>
        let detail ← detailAfterBracket whole (last + 2) rest
        return { source, field := some field, isAboutSpans := !span.isEmpty || hasValue, detail }
      | _ => throw .unreadable

/-- May a directive begin with a character? -/
def canBegin (c : Char) : Bool := ['-', ':', '_', '['].contains c || isAlphanumeric c

/-- Reads a directive. -/
def parse (whole : List Char) : Except FilterFault Directive := do
  let cs := trimChars whole
  if !cs.head?.any canBegin then throw .unreadable
  let isName c := c != '=' && c != '['
  let name := cs.takeWhile isName
  let mark := byteCount name
  match cs.dropWhile isName with
  | [] => return ofWord whole
  | '=' :: _ =>
    let source := String.ofList (← slice whole 0 mark)
    return { source := some source, detail := ← detailFrom whole (mark + 1) }
  | _ :: cs =>
    let source ← slice whole 0 mark
    let source := if name.isEmpty then none else some (String.ofList source)
    parseBrackets whole source (mark + 1) cs

end Directive

end RequestCache
