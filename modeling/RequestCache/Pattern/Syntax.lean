/-
# Patterns as trees

A pattern is a regular expression, written without look-around and without references to groups.
Nothing is matched here, so a tree keeps of a pattern only what decides whether it makes sense:
how its parts nest, which characters stand for themselves, and what turns flags on and off.
Which letter a class or a place was written with does not matter, and is not kept.

The depth of a tree counts the nodes from the root that have parts of their own.
-/

namespace RequestCache

/-- What a row of letters says of the flags: on, off, or nothing.  The other flags have no say in
what makes sense. -/
structure FlagChange where
  /-- Letters stand for both cases. -/
  ignoresCase : Option Bool := none
  /-- The pattern speaks of all characters and not of ASCII alone. -/
  isUnicode : Option Bool := none
  /-- White space and comments do not count. -/
  isVerbose : Option Bool := none
deriving DecidableEq, Repr

/-- A set of characters, as it is written between brackets. -/
inductive CharClass where
  /-- Nothing is written. -/
  | empty
  /-- A character that stands for itself. -/
  | literal (c : Char)
  /-- All characters from one to another. -/
  | range (low high : Char)
  /-- A class with a name between colons. -/
  | named (isNegated : Bool)
  /-- A class with a letter after a backslash. -/
  | escaped (isNegated : Bool)
  /-- A class in brackets of its own. -/
  | brackets (isNegated : Bool) (body : CharClass)
  /-- All that two or more classes hold. -/
  | union (items : List CharClass)
  /-- An intersection or a difference of two classes. -/
  | operation (left right : CharClass)
deriving Repr

/-- A regular expression. -/
inductive Pattern where
  /-- Nothing is written. -/
  | empty
  /-- From here on to the end of the group, the flags are different. -/
  | flags (change : FlagChange)
  /-- A character that stands for itself, and whether it was given as a byte. -/
  | literal (c : Char) (isByte : Bool)
  /-- Any character. -/
  | dot
  /-- A place between two characters, and whether words decide where it is. -/
  | place (isWord : Bool)
  /-- A class with a letter after a backslash. -/
  | escaped (isNegated : Bool)
  /-- A class in brackets. -/
  | charClass (c : CharClass)
  /-- A part that may come more than once or not at all. -/
  | repeated (body : Pattern)
  /-- A part in parentheses, with flags of its own. -/
  | group (change : FlagChange) (body : Pattern)
  /-- Two or more parts, one after the other. -/
  | row (items : List Pattern)
  /-- One of two or more parts. -/
  | choice (branches : List Pattern)
deriving Repr

namespace CharClass

/-- The class of everything in a row of classes. -/
def ofItems : List CharClass → CharClass
  | [] => .empty
  | [c] => c
  | cs => .union cs

mutual

/-- How deep a class goes. -/
def depth : CharClass → Nat
  | .brackets _ body => body.depth + 1
  | .union items => depthOfAll items + 1
  | .operation left right => max left.depth right.depth + 1
  | _ => 0

/-- How deep the deepest of some classes goes. -/
def depthOfAll : List CharClass → Nat
  | [] => 0
  | c :: cs => max c.depth (depthOfAll cs)

end

end CharClass

namespace Pattern

/-- The pattern of parts that come one after the other. -/
def ofItems : List Pattern → Pattern
  | [] => .empty
  | [p] => p
  | ps => .row ps

/-- The pattern of parts that stand side by side. -/
def ofBranches : List Pattern → Pattern
  | [] => .empty
  | [p] => p
  | ps => .choice ps

mutual

/-- How deep a pattern goes. -/
def depth : Pattern → Nat
  | .charClass c => c.depth
  | .repeated body => body.depth + 1
  | .group _ body => body.depth + 1
  | .row items => depthOfAll items + 1
  | .choice branches => depthOfAll branches + 1
  | _ => 0

/-- How deep the deepest of some patterns goes. -/
def depthOfAll : List Pattern → Nat
  | [] => 0
  | p :: ps => max p.depth (depthOfAll ps)

end

end Pattern

end RequestCache
