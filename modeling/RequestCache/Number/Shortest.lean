/-
# The fewest digits of a double

A double is written with as few digits as lead back to it, and of several such rows of digits
with the one nearest to it.  The digits are found on ever finer grids: on each of them only the
two neighbours of the number can be meant.  How the point is set among the digits is another
question, to which there are two answers: always in its place (`Double.plainText`), or with a
power of ten for very large and very small numbers (`Double.scaledText`).
-/
import RequestCache.Number.Double

namespace RequestCache

/-- Digits with the point before the first one, times a power of ten. -/
structure Decimal where
  digits : List Char
  power : Int
deriving DecidableEq, Repr

/-- Which of two equally near rows of digits is taken. -/
inductive Tie where
  /-- The greater one. -/
  | up
  /-- The one that is even. -/
  | even
deriving DecidableEq, Repr

/-- Digits of a number in front of a power of ten, without zeros at the end. -/
def Decimal.ofDigits (digits : Nat) (power : Int) : Decimal :=
  let cs := Nat.toDigits 10 digits
  ⟨(cs.reverse.dropWhile (· = '0')).reverse, power + cs.length⟩

namespace Double

/-- The least power of ten above a magnitude that is not zero. -/
def scale (d : Double) : Int :=
  let (num, den) := d.ratio
  if den ≤ num then (Nat.toDigits 10 (num / den)).length
  else 1 - (Nat.toDigits 10 (den / num)).length

/-- The nearer one of the two neighbours on the grid of a power of ten that lead back. -/
def onGrid? (tie : Tie) (d : Double) (power : Int) : Option Nat :=
  let (num, den) := d.ratio
  let num := num * Nat.pow 10 (-power).toNat
  let den := den * Nat.pow 10 power.toNat
  let low := num / den
  match d.readsBack low power, d.readsBack (low + 1) power with
  | false, false => none
  | true, false => some low
  | false, true => some (low + 1)
  | true, true =>
    let twice := 2 * num
    let middle := (2 * low + 1) * den
    if twice < middle then some low
    else if middle < twice then some (low + 1)
    else match tie with
      | .up => some (low + 1)
      | .even => some (if low % 2 = 0 then low else low + 1)

/-- The fewest digits that lead back to a double that is not zero.  Seventeen are always
enough. -/
def shortest (tie : Tie) (d : Double) : Decimal :=
  let scale := d.scale
  let found := (List.range 17).findSome? fun i =>
    let power := scale - (i + 1 : Nat)
    (d.onGrid? tie power).map fun digits => Decimal.ofDigits digits power
  found.getD (.ofDigits (d.ratio.1 * Nat.pow 10 (-d.exponent).toNat / d.ratio.2) (min d.exponent 0))

/-- The sign of a double, which zero has as well. -/
def signText (d : Double) : List Char := if d.isNegative then ['-'] else []

/-- Zeros. -/
def zeros (n : Nat) : List Char := List.replicate n '0'

/-- A double with the point in its place. -/
def plainText (d : Double) : String :=
  if d.isZero then String.ofList (d.signText ++ ['0'])
  else
    let ⟨digits, power⟩ := d.shortest .up
    let text :=
      if power ≤ 0 then '0' :: '.' :: zeros (-power).toNat ++ digits
      else if digits.length ≤ power.toNat then digits ++ zeros (power.toNat - digits.length)
      else digits.take power.toNat ++ '.' :: digits.drop power.toNat
    String.ofList (d.signText ++ text)

/-- A double as JSON writes it: with the point in its place, and at least one digit after it, if
the first digit lies between the fifth place after the point and the sixteenth before it, and
otherwise with one digit before the point and a power of ten with its sign. -/
def scaledText (d : Double) : String :=
  if d.isZero then String.ofList (d.signText ++ ['0', '.', '0'])
  else
    let ⟨digits, power⟩ := d.shortest .even
    let text :=
      if -5 < power ∧ power ≤ 0 then '0' :: '.' :: zeros (-power).toNat ++ digits
      else if 0 < power ∧ power ≤ 16 then
        if digits.length ≤ power.toNat then
          digits ++ zeros (power.toNat - digits.length) ++ ['.', '0']
        else digits.take power.toNat ++ '.' :: digits.drop power.toNat
      else
        let front := if digits.length ≤ 1 then digits else digits.take 1 ++ '.' :: digits.drop 1
        front ++ 'e' :: (if 0 < power then ['+'] else []) ++ (toString (power - 1)).toList
    String.ofList (d.signText ++ text)

end Double

end RequestCache
