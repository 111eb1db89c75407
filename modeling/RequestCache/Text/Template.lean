/-
# Templates

A template is a text with places to fill, each written as a name in braces.  It is read once
from left to right: a known place is replaced, all else stays, and what was put in is not read
again.
-/

namespace RequestCache

/-- The text after `front`, if `cs` begins with it. -/
def dropFront? : List Char → List Char → Option (List Char)
  | [], cs => some cs
  | _ :: _, [] => none
  | f :: front, c :: cs => if f = c then dropFront? front cs else none

/-- What is known about one place of a template: its name and the text to put there. -/
abbrev Place := String × String

/-- A place as it is written in a template. -/
def Place.written (p : Place) : List Char := '{' :: p.1.toList ++ ['}']

/-- The first of the places that `cs` begins with, as the number of characters it takes up
beyond the first one and the text to put there. -/
def placeAt? (places : List Place) (cs : List Char) : Option (Nat × List Char) :=
  places.findSome? fun p =>
    (dropFront? p.written cs).map fun _ => (p.written.length - 1, p.2.toList)

/-- Fills the places of a template; `skip` characters belong to a place already filled. -/
def fillChars (places : List Place) : (skip : Nat) → List Char → List Char
  | _, [] => []
  | skip + 1, _ :: cs => fillChars places skip cs
  | 0, c :: cs =>
    match placeAt? places (c :: cs) with
    | some (width, text) => text ++ fillChars places width cs
    | none => c :: fillChars places 0 cs

/-- The template with every known place filled. -/
def fillTemplate (template : String) (places : List Place) : String :=
  String.ofList (fillChars places 0 template.toList)

end RequestCache
