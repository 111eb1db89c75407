/-
# Between brackets

How the parts of a class of characters are read: its items, the ranges from one character to
another, the classes with names.  Classes nest, so what is known of one that is still open is a
type of its own, to be stacked (`OpenClass`).
-/
import RequestCache.Pattern.Escape

namespace RequestCache

namespace CharClass

/-- The names of classes of ASCII characters. -/
def names : List String :=
  ["alnum", "alpha", "ascii", "blank", "cntrl", "digit", "graph", "lower", "print", "punct",
    "space", "upper", "word", "xdigit"]

/-- A class with a name, after its opening bracket, and what follows. -/
def readNamed? : List Char → Option (CharClass × List Char)
  | ':' :: cs =>
    let isNegated := cs.head? = some '^'
    let cs := if isNegated then cs.drop 1 else cs
    match cs.dropWhile (· != ':') with
    | ':' :: ']' :: rest =>
      if names.contains (String.ofList (cs.takeWhile (· != ':'))) then
        some (.named isNegated, rest)
      else none
    | _ => none
  | _ => none

theorem length_of_readNamed? {cs : List Char} {r : CharClass × List Char}
    (h : readNamed? cs = some r) : r.2.length < cs.length := by
  unfold readNamed? at h
  split at h
  · rename_i cs
    dsimp only at h
    split at h
    · rename_i cs' hc
      have := (List.dropWhile_suffix (l := if cs.head? = some '^' then cs.drop 1 else cs)
        (· != ':')).length_le
      grind
    · simp at h
  · simp at h

/-- A character or a class after a backslash, and what follows. -/
def readItem? (isVerbose : Bool) : List Char → Option (Escape × List Char)
  | [] => none
  | '\\' :: cs => Escape.read? isVerbose cs
  | c :: cs => some (.literal c false, cs)

theorem length_of_readItem? {isVerbose : Bool} {cs : List Char}
    {r : Escape × List Char} (h : readItem? isVerbose cs = some r) :
    r.2.length < cs.length := by
  unfold readItem? at h
  split at h
  · simp at h
  · exact Nat.lt_succ_of_lt (Escape.length_of_read? h)
  · cases h
    exact Nat.lt_succ_self _

/-- An item, or all characters from one to another, and what follows.  A dash does not make a
range if a closing bracket or another dash comes after it. -/
def readRange? (isVerbose : Bool) (cs : List Char) : Option (CharClass × List Char) := do
  let (first, rest) ← readItem? isVerbose cs
  match dropIgnored isVerbose rest with
  | [] => none
  | '-' :: more =>
    if [some ']', some '-'].contains (afterDash? isVerbose more) then
      return (← first.toClass?, '-' :: more)
    let (last, rest) ← readItem? isVerbose (dropIgnored isVerbose more)
    match first, last with
    | .literal low _, .literal high _ =>
      if low ≤ high then some (.range low high, rest) else none
    | _, _ => none
  | rest => return (← first.toClass?, rest)

theorem length_of_readRange? {isVerbose : Bool} {cs : List Char}
    {r : CharClass × List Char} (h : readRange? isVerbose cs = some r) :
    r.2.length < cs.length := by
  obtain ⟨⟨first, rest⟩, hr, h⟩ := Option.bind_eq_some_iff.1 h
  have hlt := length_of_readItem? hr
  have hle := length_dropIgnored_le isVerbose rest
  dsimp only at h hlt
  split at h
  · simp at h
  · rename_i more hm
    rw [hm] at hle
    split at h
    · obtain ⟨c, -, h⟩ := Option.bind_eq_some_iff.1 h
      cases h
      exact Nat.lt_of_le_of_lt hle hlt
    · obtain ⟨⟨last, rest'⟩, hr', h⟩ := Option.bind_eq_some_iff.1 h
      have hlt' := length_of_readItem? hr'
      have hle' := length_dropIgnored_le isVerbose more
      dsimp only at h
      split at h
      · split at h
        · cases h
          simp only [List.length_cons] at *
          omega
        · simp at h
      · simp at h
  · obtain ⟨c, -, h⟩ := Option.bind_eq_some_iff.1 h
    cases h
    exact Nat.lt_of_le_of_lt hle hlt

end CharClass

/-- What is known of a class before its closing bracket. -/
structure OpenClass where
  /-- Does the class hold what is not written? -/
  isNegated : Bool
  /-- Has there been nothing but dashes?  Until then a dash stands for itself. -/
  isFresh : Bool := true
  /-- What stands before the last sign of an operation. -/
  left : Option CharClass := none
  /-- What stands after it, the last item first. -/
  items : List CharClass := []
deriving Repr

namespace OpenClass

/-- With one more item. -/
def push (o : OpenClass) (c : CharClass) : OpenClass :=
  { o with isFresh := false, items := c :: o.items }

/-- With a dash that stands for itself and leaves the next one to do the same. -/
def pushDash (o : OpenClass) : OpenClass := { o with items := .literal '-' :: o.items }

/-- All that has been written.  Operations are done from left to right. -/
def body (o : OpenClass) : CharClass :=
  let right := .ofItems o.items.reverse
  match o.left with
  | none => right
  | some left => .operation left right

/-- After the sign of an operation. -/
def operate (o : OpenClass) : OpenClass :=
  { o with isFresh := false, left := some o.body, items := [] }

/-- The class, once its closing bracket has been read. -/
def close (o : OpenClass) : CharClass := .brackets o.isNegated o.body

/-- A class after its opening bracket, and what follows the sign of negation. -/
def read (isVerbose : Bool) (cs : List Char) : OpenClass × List Char :=
  match dropIgnored isVerbose cs with
  | '^' :: cs => ({ isNegated := true }, cs)
  | cs => ({ isNegated := false }, cs)

theorem length_read_le (isVerbose : Bool) (cs : List Char) :
    (read isVerbose cs).2.length ≤ cs.length := by
  have hle := length_dropIgnored_le isVerbose cs
  unfold read
  split
  · rename_i hc
    rw [hc] at hle
    exact Nat.le_of_succ_le hle
  · exact hle

end OpenClass

end RequestCache
