/-
# Patterns that make sense

Not every pattern that can be written makes sense.  No tables of Unicode are at hand.  What needs
one (`\d`, a border of a word, a letter in both cases) has a meaning only where the pattern speaks
of ASCII, after `(?-u)`; and nothing that is said there may match a part of another character.
Nor may a pattern go too deep.

The flags that a pattern ends with are handed on to what follows it (`Pattern.flagsAfter?`), and a
group gives back those that it began with.
-/
import RequestCache.Pattern.Parser

namespace RequestCache

/-- The flags that decide what makes sense. -/
structure PatternFlags where
  /-- Letters stand for both cases. -/
  ignoresCase : Bool := false
  /-- The pattern speaks of all characters and not of ASCII alone. -/
  isUnicode : Bool := true
deriving DecidableEq, Repr

namespace PatternFlags

/-- The flags after a change. -/
def change (f : PatternFlags) (c : FlagChange) : PatternFlags where
  ignoresCase := c.ignoresCase.getD f.ignoresCase
  isUnicode := c.isUnicode.getD f.isUnicode

/-- Can a character stand for itself?  For its other case there is no table beyond ASCII. -/
def allowsLiteral (f : PatternFlags) : Bool := !(f.isUnicode && f.ignoresCase)

/-- Can a character stand for itself between brackets? -/
def allowsInClass (f : PatternFlags) (c : Char) : Bool :=
  f.allowsLiteral && (f.isUnicode || c.toNat < 128)

end PatternFlags

namespace CharClass

mutual

/-- Does a class make sense? -/
def makesSense (f : PatternFlags) : CharClass → Bool
  | .empty => true
  | .literal c => f.allowsInClass c
  | .range low high => f.allowsInClass low && f.allowsInClass high
  | .named isNegated => if f.isUnicode then !f.ignoresCase else !isNegated
  | .escaped isNegated => !f.isUnicode && !isNegated
  | .brackets isNegated body => (f.isUnicode || !isNegated) && body.makesSense f
  | .union items => allMakeSense f items
  | .operation left right => left.makesSense f && right.makesSense f

/-- Do all of some classes make sense? -/
def allMakeSense (f : PatternFlags) : List CharClass → Bool
  | [] => true
  | c :: cs => c.makesSense f && allMakeSense f cs

end

end CharClass

namespace Pattern

mutual

/-- The flags after a pattern, if it makes sense. -/
def flagsAfter? (f : PatternFlags) : Pattern → Option PatternFlags
  | .empty => some f
  | .flags change => some (f.change change)
  | .literal c isByte =>
    if f.allowsLiteral && (f.isUnicode || !isByte || c.toNat < 128) then some f else none
  | .dot => if f.isUnicode then some f else none
  | .place isWord => if isWord && f.isUnicode then none else some f
  | .escaped isNegated => if f.isUnicode || isNegated then none else some f
  | .charClass c => if c.makesSense f then some f else none
  | .repeated body => body.flagsAfter? f
  | .group change body => (body.flagsAfter? (f.change change)).map fun _ => f
  | .row items => flagsAfterAll? f items
  | .choice branches => flagsAfterAll? f branches

/-- The flags after some patterns in turn.  A branch hands its flags on to the next one, too. -/
def flagsAfterAll? (f : PatternFlags) : List Pattern → Option PatternFlags
  | [] => some f
  | p :: ps =>
    match p.flagsAfter? f with
    | none => none
    | some f => flagsAfterAll? f ps

end

/-- The greatest depth of a pattern that makes sense. -/
def maxDepth : Nat := 250

/-- Does a pattern make sense? -/
def makesSense (p : Pattern) : Bool := p.depth ≤ maxDepth && (p.flagsAfter? {}).isSome

end Pattern

/-- Is a text a regular expression that makes sense? -/
def isPattern (cs : List Char) : Bool := (Pattern.parse? cs).any Pattern.makesSense

end RequestCache
