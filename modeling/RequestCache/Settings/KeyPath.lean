/-
# Keys of a configuration

A key leads to a place inside of nested values: a name at first, and then, level by level, a name
after a point or a position in brackets.  A text that is no such path is a name as a whole.

The layers of a configuration set values at keys (`Layer`).  A value below a name makes the value
of this name an object or a list, whatever else the layer says about it.
-/
import RequestCache.Json.Value

namespace RequestCache

/-- One level below another value. -/
inductive KeyStep where
  | name (s : String)
  | position (n : Int)
deriving DecidableEq, Repr

/-- The way to a value. -/
structure KeyPath where
  root : String
  steps : List KeyStep := []
deriving DecidableEq, Repr

namespace KeyPath

/-- The characters of a name. -/
def isNameChar (c : Char) : Bool := c.isAlphanum || c == '_' || c == '-'

/-- A name, which is not empty, and what follows. -/
def takeName? (cs : List Char) : Option (String × List Char) :=
  let name := cs.takeWhile isNameChar
  if name.isEmpty then none else some (String.ofList name, cs.dropWhile isNameChar)

/-- The characters without the blanks in front. -/
def dropBlanks (cs : List Char) : List Char := cs.dropWhile fun c => c == ' ' || c == '\t'

/-- A position before its closing bracket, and what follows.  It fits a signed word of 64
bits. -/
def takePosition? (cs : List Char) : Option (Int × List Char) :=
  let cs := dropBlanks cs
  let isNegative := cs.head? = some '-'
  let cs := if isNegative then cs.drop 1 else cs
  let digits := cs.takeWhile Char.isDigit
  match dropBlanks (cs.dropWhile Char.isDigit) with
  | ']' :: rest =>
    let magnitude : Int := Json.digitsValue 0 digits
    let n := if isNegative then -magnitude else magnitude
    if !digits.isEmpty && (-0x8000000000000000 ≤ n && n < 0x8000000000000000) then some (n, rest) else none
  | _ => none

/-- One step, and what follows. -/
def takeStep? : List Char → Option (KeyStep × List Char)
  | '.' :: cs => (takeName? cs).map fun (s, rest) => (.name s, rest)
  | '[' :: cs => (takePosition? cs).map fun (n, rest) => (.position n, rest)
  | _ => none

/-- The steps up to the end.  Every step takes at least one character. -/
def steps? (cs : List Char) : Option (List KeyStep) :=
  if cs.isEmpty then some []
  else do
    let (step, rest) ← takeStep? cs
    if rest.length < cs.length then
      let steps ← steps? rest
      return step :: steps
    else none
termination_by cs.length

/-- Reads a path. -/
def parse? (s : String) : Option KeyPath := do
  let (root, rest) ← takeName? s.toList
  return ⟨root, ← steps? rest⟩

/-- The path of a key. -/
def ofKey (s : String) : KeyPath := (parse? s).getD ⟨s, []⟩

end KeyPath

/-- The values that one source of a configuration sets, by their keys. -/
abbrev Layer := List (String × Json.Value)

namespace Layer

/-- The value of a name.  Of several values for the name itself the last one counts. -/
def value? (l : Layer) (name : String) : Option Json.Value :=
  let set := (l.map fun m => (KeyPath.ofKey m.1, m.2)).filter fun m => m.1.root = name
  if set.any fun m => !m.1.steps.isEmpty then some (.members [])
  else set.getLast?.map Prod.snd

end Layer

end RequestCache
