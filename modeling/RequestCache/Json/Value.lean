/-
# JSON values and how they are written

A value is what a program puts in or takes out.  It is written without any space, members in
the order in which they stand, and a string escapes the quote, the backslash and the characters
below the space, nothing else.
-/
import RequestCache.Json.Literal
import RequestCache.Number.Shortest

namespace RequestCache.Json

/-- A JSON value. -/
inductive Value where
  | null
  | bool (b : Bool)
  /-- An integer. -/
  | int (n : Int)
  /-- A number that is no integer. -/
  | double (d : Double)
  | text (s : String)
  | items (vs : List Value)
  | members (ms : List (String × Value))
deriving Repr, BEq

instance : Inhabited Value := ⟨.null⟩

/-- A lower-case digit in base sixteen. -/
def hexDigit (n : Nat) : Char :=
  if n < 10 then Char.ofNat ('0'.toNat + n) else Char.ofNat ('a'.toNat + (n - 10))

/-- A character of a string as it is written. -/
def escapedChar (c : Char) : List Char :=
  if c = '"' then ['\\', '"']
  else if c = '\\' then ['\\', '\\']
  else if c = '\x08' then ['\\', 'b']
  else if c = '\t' then ['\\', 't']
  else if c = '\n' then ['\\', 'n']
  else if c = '\x0c' then ['\\', 'f']
  else if c = '\r' then ['\\', 'r']
  else if c.toNat < 0x20 then
    ['\\', 'u', '0', '0', hexDigit (c.toNat / 16), hexDigit (c.toNat % 16)]
  else [c]

/-- A string in its quotes, in front of `rest`. -/
def writeText (s : String) (rest : List Char) : List Char :=
  '"' :: s.toList.foldr (fun c r => escapedChar c ++ r) ('"' :: rest)

/-- The decimal text of an integer, in front of `rest`. -/
def writeInt (n : Int) (rest : List Char) : List Char := (toString n).toList ++ rest

namespace Value

mutual

/-- A value as it is written, in front of `rest`. -/
def write : Value → (rest : List Char) → List Char
  | .null, rest => 'n' :: 'u' :: 'l' :: 'l' :: rest
  | .bool true, rest => 't' :: 'r' :: 'u' :: 'e' :: rest
  | .bool false, rest => 'f' :: 'a' :: 'l' :: 's' :: 'e' :: rest
  | .int n, rest => writeInt n rest
  | .double d, rest => d.scaledText.toList ++ rest
  | .text s, rest => writeText s rest
  | .items vs, rest => '[' :: writeItems true vs (']' :: rest)
  | .members ms, rest => '{' :: writeMembers true ms ('}' :: rest)

/-- The items of a list, each but the first after a comma. -/
def writeItems (first : Bool) : List Value → (rest : List Char) → List Char
  | [], rest => rest
  | v :: vs, rest => (if first then id else (',' :: ·)) (v.write (writeItems false vs rest))

/-- The members of an object, each but the first after a comma. -/
def writeMembers (first : Bool) : List (String × Value) → (rest : List Char) → List Char
  | [], rest => rest
  | (name, v) :: ms, rest =>
    (if first then id else (',' :: ·))
      (writeText name (':' :: v.write (writeMembers false ms rest)))

end

/-- The text of a value. -/
def render (v : Value) : String := String.ofList (v.write [])

/-- The value zero inside `n` lists of one item. -/
def nested : Nat → Value
  | 0 => .int 0
  | n + 1 => .items [nested n]

/-- How many lists of one item lie around a zero, if the value is nothing else. -/
def nesting? : Value → Option Nat
  | .int 0 => some 0
  | .items [v] => v.nesting?.map (· + 1)
  | _ => none

/-- The first member of a name. -/
def member? (v : Value) (name : String) : Option Value :=
  match v with
  | .members ms => ms.lookup name
  | _ => none

end Value

end RequestCache.Json
