/-
# After a backslash

What a backslash and the characters after it stand for in a pattern: a character that would mean
something else without it, a character by its number, a class, or a place.  Characters by their
numbers in braces and classes of Unicode by their names are not read: no brace can close.
-/
import RequestCache.Pattern.Ignored
import RequestCache.Pattern.Syntax

namespace RequestCache

/-- What a backslash and the characters after it stand for. -/
inductive Escape where
  /-- A character, and whether it was given as a byte. -/
  | literal (c : Char) (isByte : Bool)
  /-- A class of characters. -/
  | charClass (isNegated : Bool)
  /-- A place between two characters, and whether words decide where it is. -/
  | place (isWord : Bool)
deriving DecidableEq, Repr

/-- The value of a digit in base sixteen. -/
def digitOfBase16? (c : Char) : Option Nat :=
  if c.isDigit then some (c.toNat - '0'.toNat)
  else if 'a' ≤ c ∧ c ≤ 'f' then some (c.toNat - 'a'.toNat + 10)
  else if 'A' ≤ c ∧ c ≤ 'F' then some (c.toNat - 'A'.toNat + 10)
  else none

/-- A character given by `n` digits in base sixteen that follow those of `value`. -/
def ofHexDigits? (isVerbose : Bool) : (n value : Nat) → List Char → Option (Char × List Char)
  | 0, value, cs => if value.isValidChar then some (Char.ofNat value, cs) else none
  | n + 1, value, cs =>
    match dropIgnored isVerbose cs with
    | c :: cs => do ofHexDigits? isVerbose n (16 * value + (← digitOfBase16? c)) cs
    | [] => none

theorem length_of_ofHexDigits? {isVerbose : Bool} {n value : Nat} {cs : List Char}
    {r : Char × List Char} (h : ofHexDigits? isVerbose n value cs = some r) :
    r.2.length ≤ cs.length := by
  induction n generalizing value cs with
  | zero => grind [ofHexDigits?]
  | succ n ih =>
    have hle := length_dropIgnored_le isVerbose cs
    unfold ofHexDigits? at h
    split at h
    · rename_i hc
      obtain ⟨d, -, h⟩ := Option.bind_eq_some_iff.1 h
      have := ih h
      simp only [hc, List.length_cons] at hle
      omega
    · simp at h

namespace Escape

/-- What one character after a backslash stands for. -/
def ofChar? (c : Char) : Option Escape :=
  if ['d', 's', 'w'].contains c then some (.charClass false)
  else if ['D', 'S', 'W'].contains c then some (.charClass true)
  else if ['b', 'B', '<', '>'].contains c then some (.place true)
  else if ['A', 'z'].contains c then some (.place false)
  else if c.toNat < 128 ∧ !c.isAlphanum then some (.literal c false)
  else
    ([('a', '\x07'), ('t', '\t'), ('n', '\n'), ('v', '\x0b'), ('f', '\x0c'), ('r', '\r')].lookup
      c).map (.literal · false)

/-- What stands after a backslash, and what follows. -/
def read? (isVerbose : Bool) : List Char → Option (Escape × List Char)
  | [] => none
  | 'x' :: cs => (ofHexDigits? isVerbose 2 0 cs).map fun (c, rest) => (.literal c true, rest)
  | 'u' :: cs => (ofHexDigits? isVerbose 4 0 cs).map fun (c, rest) => (.literal c false, rest)
  | 'U' :: cs => (ofHexDigits? isVerbose 8 0 cs).map fun (c, rest) => (.literal c false, rest)
  | c :: cs => (ofChar? c).map fun e => (e, cs)

theorem length_of_read? {isVerbose : Bool} {cs : List Char} {r : Escape × List Char}
    (h : read? isVerbose cs = some r) : r.2.length < cs.length := by
  unfold read? at h
  split at h
  · simp at h
  · obtain ⟨x, hx, rfl⟩ := Option.map_eq_some_iff.1 h
    exact Nat.lt_succ_of_le (length_of_ofHexDigits? hx)
  · obtain ⟨x, hx, rfl⟩ := Option.map_eq_some_iff.1 h
    exact Nat.lt_succ_of_le (length_of_ofHexDigits? hx)
  · obtain ⟨x, hx, rfl⟩ := Option.map_eq_some_iff.1 h
    exact Nat.lt_succ_of_le (length_of_ofHexDigits? hx)
  · obtain ⟨x, -, rfl⟩ := Option.map_eq_some_iff.1 h
    exact Nat.lt_succ_self _

/-- Outside of brackets. -/
def toPattern : Escape → Pattern
  | .literal c isByte => .literal c isByte
  | .charClass isNegated => .escaped isNegated
  | .place isWord => .place isWord

/-- Between brackets, where no place can stand. -/
def toClass? : Escape → Option CharClass
  | .literal c _ => some (.literal c)
  | .charClass isNegated => some (.escaped isNegated)
  | .place _ => none

end Escape

end RequestCache
