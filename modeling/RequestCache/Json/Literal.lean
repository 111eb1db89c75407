/-
# Number literals

A number is read into its parts first, and what it stands for is decided later: an integer
only if it is written without a fraction and an exponent, is not a negative zero, and fits a
word of 64 bits, signed or unsigned.  Every other number is a double, and it has a meaning only
if it is not too great for one.
-/
import RequestCache.Number.Double

namespace RequestCache.Json

/-- A number as it is written. -/
inductive Literal where
  /-- Digits only: the sign and the digits' value. -/
  | whole (negative : Bool) (magnitude : Nat)
  /-- With a fraction or an exponent: the sign, the value of all digits, how many of them stand
  after the point, and the exponent. -/
  | scaled (negative : Bool) (digits places : Nat) (exponent : Int)
deriving DecidableEq, Repr

/-- The value of a decimal digit. -/
def digitValue (c : Char) : Nat := c.toNat - '0'.toNat

/-- The value of a row of decimal digits that follow the digits of `start`. -/
def digitsValue (start : Nat) (cs : List Char) : Nat :=
  cs.foldl (fun n c => 10 * n + digitValue c) start

/-- At least one digit, and what follows the digits. -/
def takeDigits? (cs : List Char) : Option (List Char × List Char) :=
  let digits := cs.takeWhile Char.isDigit
  if digits.isEmpty then none else some (digits, cs.dropWhile Char.isDigit)

/-- The digits before the point: a zero stands alone. -/
def takeWhole? : List Char → Option (Nat × List Char)
  | '0' :: cs => some (0, cs)
  | cs => (takeDigits? cs).map fun (digits, rest) => (digitsValue 0 digits, rest)

/-- The exponent after its mark, with or without a sign, up to the end. -/
def exponent? (cs : List Char) : Option Int :=
  let (negative, digits) := match cs with
    | '-' :: r => (true, r)
    | '+' :: r => (false, r)
    | r => (false, r)
  match takeDigits? digits with
  | some (digits, []) =>
    let n : Int := digitsValue 0 digits
    some (if negative then -n else n)
  | _ => none

/-- What follows the digits before the point. -/
def literalTail? (negative : Bool) (magnitude : Nat) : List Char → Option Literal
  | [] => some (.whole negative magnitude)
  | '.' :: cs => do
    let (digits, rest) ← takeDigits? cs
    let literal := Literal.scaled negative (digitsValue magnitude digits) digits.length
    match rest with
    | [] => some (literal 0)
    | e :: rest => if e = 'e' ∨ e = 'E' then (exponent? rest).map literal else none
  | e :: cs =>
    if e = 'e' ∨ e = 'E' then (exponent? cs).map (.scaled negative magnitude 0) else none

/-- Reads a number literal that takes up all the characters. -/
def literal? : List Char → Option Literal
  | '-' :: cs => (takeWhole? cs).bind fun (n, rest) => literalTail? true n rest
  | cs => (takeWhole? cs).bind fun (n, rest) => literalTail? false n rest

/-- The characters a number literal is made of. -/
def isLiteralChar (c : Char) : Bool :=
  c.isDigit || c == '-' || c == '+' || c == '.' || c == 'e' || c == 'E'

/-- The least and the greatest integer that a number stands for exactly. -/
def minInteger : Int := -0x8000000000000000

/-- The greatest integer that a number stands for exactly. -/
def maxInteger : Int := 0xffffffffffffffff

/-- The integer a literal stands for. -/
def Literal.toInt? : Literal → Option Int
  | .whole true 0 => none
  | .whole negative magnitude =>
    let n : Int := if negative then -(magnitude : Int) else magnitude
    if minInteger ≤ n ∧ n ≤ maxInteger then some n else none
  | .scaled .. => none

/-- The sign of a literal. -/
def Literal.isNegative : Literal → Bool
  | .whole b _ => b
  | .scaled b .. => b

/-- The greatest value that the digits of a number which is no integer may have. -/
def maxWord : Nat := 0xffffffffffffffff

/-- The longest row of first digits whose value fits a word, and how many digits follow it. -/
def firstDigits (n : Nat) : Nat × Nat :=
  if n ≤ maxWord then (n, 0)
  else
    let (m, k) := firstDigits (n / 10)
    (m, k + 1)
termination_by n
decreasing_by simp only [maxWord] at *; omega

/-- The digits of a literal that are taken into account, as a value and a power of ten.  Digits
that no longer fit a word are left out, first of those before the point and then of those after
it; what still fits after the point is taken, even if digits before it were left out. -/
def Literal.word : Literal → Nat × Int
  | .whole _ n =>
    let (m, k) := firstDigits n
    (m, k)
  | .scaled _ n places exponent =>
    let (front, k) := firstDigits (n / Nat.pow 10 places)
    let (m, l) := firstDigits (front * Nat.pow 10 places + n % Nat.pow 10 places)
    (m, exponent + k + l - places)

/-- The greatest power of ten that a double holds. -/
def maxTen : Nat := 308

/-- The double of a power of ten. -/
def powerOfTen? (n : Nat) : Option Double := Double.nearest? (Nat.pow 10 n) 1

/-- A double divided by a power of ten, which is done in more than one go where the power is too
great for a double. -/
def divideByTen? (d : Double) (n : Nat) : Option Double :=
  if n ≤ maxTen then (powerOfTen? n).bind d.over?
  else if d.isZero then some d
  else do divideByTen? (← d.over? (← powerOfTen? maxTen)) (n - maxTen)
termination_by n
decreasing_by simp only [maxTen] at *; omega

/-- The double that a literal stands for, unless it is too great.  It is not always the nearest
one: the digits, the power of ten, and their product or quotient are rounded one after the
other. -/
def Literal.toDouble? (l : Literal) : Option Double := do
  let (n, exponent) := l.word
  let d ← Double.nearest? n 1
  let magnitude ←
    if exponent < 0 then divideByTen? d (-exponent).toNat
    else if exponent ≤ maxTen then d.times? (← powerOfTen? exponent.toNat)
    else if d.isZero then some d
    else none
  return magnitude.withSign l.isNegative

end RequestCache.Json
