/-
# Syntax trees

What a JSON text says before anyone asks for a value of some type: nested lists and members,
with numbers as they are written, strings that may have no text, and members in the order in
which they stand, repeated names included.  The builder reads one token at a time and keeps
the open brackets on a stack, so texts may nest as deep as they like.
-/
import RequestCache.Json.Token

namespace RequestCache.Json

/-- The syntax of a JSON text. -/
inductive Tree where
  | null
  | bool (b : Bool)
  | number (l : Literal)
  | text (s : Option String)
  | items (ts : List Tree)
  | members (ms : List (Option String × Tree))
deriving Repr

instance : Inhabited Tree := ⟨.null⟩

/-- An open bracket with what is finished inside it, the last part first. -/
inductive Frame where
  /-- An item of a list is being read. -/
  | items (done : List Tree)
  /-- The value of a member is being read. -/
  | member (done : List (Option String × Tree)) (name : Option String)

/-- What may come next, with the open brackets around it. -/
inductive Builder where
  /-- A value. -/
  | value (outer : List Frame)
  /-- The first item of a list, or the end of the list. -/
  | firstItem (outer : List Frame)
  /-- The name of the first member, or the end of the members. -/
  | firstName (outer : List Frame)
  /-- The name of a further member. -/
  | nextName (done : List (Option String × Tree)) (outer : List Frame)
  /-- The colon after a name. -/
  | colon (done : List (Option String × Tree)) (name : Option String) (outer : List Frame)
  /-- What may follow a finished value. -/
  | after (t : Tree) (outer : List Frame)

namespace Builder

/-- The token begins a value. -/
def start (outer : List Frame) : Token → Option Builder
  | .null => some (.after .null outer)
  | .bool b => some (.after (.bool b) outer)
  | .number l => some (.after (.number l) outer)
  | .text s => some (.after (.text s) outer)
  | .openItems => some (.firstItem outer)
  | .openMembers => some (.firstName outer)
  | _ => none

/-- Reads one token. -/
def step : Builder → Token → Option Builder
  | .value outer, t => start outer t
  | .firstItem outer, .closeItems => some (.after (.items []) outer)
  | .firstItem outer, t => start (.items [] :: outer) t
  | .firstName outer, .closeMembers => some (.after (.members []) outer)
  | .firstName outer, .text s => some (.colon [] s outer)
  | .nextName done outer, .text s => some (.colon done s outer)
  | .colon done name outer, .colon => some (.value (.member done name :: outer))
  | .after t (.items done :: outer), .comma => some (.value (.items (t :: done) :: outer))
  | .after t (.items done :: outer), .closeItems =>
    some (.after (.items (t :: done).reverse) outer)
  | .after t (.member done name :: outer), .comma => some (.nextName ((name, t) :: done) outer)
  | .after t (.member done name :: outer), .closeMembers =>
    some (.after (.members ((name, t) :: done).reverse) outer)
  | _, _ => none

/-- The tree at the end of the tokens, when no bracket is open. -/
def finish : Builder → Option Tree
  | .after t [] => some t
  | _ => none

end Builder

/-- The tree of a row of tokens. -/
def Tree.ofTokens? (ts : List Token) : Option Tree :=
  (ts.foldlM Builder.step (.value [])).bind Builder.finish

/-- The tree of a text. -/
def Tree.parse? (s : String) : Option Tree := (tokens? s.toList).bind Tree.ofTokens?

end RequestCache.Json
