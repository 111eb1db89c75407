/-
# What does not count in a pattern

White space and comments, where a flag of the pattern says that they are only there for its reader.
-/
import RequestCache.Text.Blank

namespace RequestCache

/-- Drops white space and comments; a comment goes from a number sign to the end of its line. -/
def dropComments (isInside : Bool) : List Char → List Char
  | [] => []
  | c :: cs =>
    if isInside then dropComments (c != '\n') cs
    else if isBlankChar c then dropComments false cs
    else if c = '#' then dropComments true cs
    else c :: cs

/-- The characters from the next one on that counts. -/
def dropIgnored (isVerbose : Bool) (cs : List Char) : List Char :=
  if isVerbose then dropComments false cs else cs

theorem length_dropComments_le (isInside : Bool) (cs : List Char) :
    (dropComments isInside cs).length ≤ cs.length := by
  induction cs generalizing isInside with
  | nil => simp [dropComments]
  | cons c cs ih => grind [dropComments]

theorem length_dropIgnored_le (isVerbose : Bool) (cs : List Char) :
    (dropIgnored isVerbose cs).length ≤ cs.length := by
  unfold dropIgnored
  split
  · exact length_dropComments_le _ _
  · exact Nat.le_refl _

/-- The character that decides what a dash before it means.  A comment after the dash is looked
into, as if only its number sign were missing. -/
def afterDash? (isVerbose : Bool) (cs : List Char) : Option Char :=
  if isVerbose then
    match cs.dropWhile isBlankChar with
    | '#' :: cs => (cs.dropWhile isBlankChar).head?
    | cs => cs.head?
  else cs.head?

end RequestCache
