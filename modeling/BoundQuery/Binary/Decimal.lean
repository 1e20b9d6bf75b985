/-
**Binary numbers as decimal text.**

A finite number is written with the fewest digits that read back to it, and among those with the
digits nearest to it.  The numbers that read back to a magnitude fill an interval around it, up to
half way to its neighbours, with the ends included if its significand is even.  On the grid of
decimals with `n` digits only the two neighbours of the number itself need be tried: if any point of
the grid lies in the interval, so does one of them.

How digits become text is a matter of layout: which exponents are written positionally, and how an
exponent is written otherwise.

Main definitions:

* `Decimal` — digits and the exponent of the first;
* `Format.shortest` — the shortest decimal that reads back to a magnitude;
* `Layout`, `Layout.diagnostic`, `Layout.json` — two ways of writing decimals;
* `Number.write` — the text of a number.
-/

import BoundQuery.Binary.Format
import BoundQuery.Text

set_option relaxedAutoImplicit false
set_option autoImplicit false

namespace BoundQuery

namespace Binary

/-- Which of two equally near decimals is chosen. -/
inductive Tie where
  /-- The greater one. -/
  | up
  /-- The one with an even last digit. -/
  | even
deriving DecidableEq, Repr

/-- A positive decimal: its digits, and the power of ten that the first of them counts. -/
structure Decimal where
  /-- The digits, from the highest. -/
  digits : Text
  /-- The exponent of the first digit. -/
  exponent : Int
deriving DecidableEq, Repr

/-- The exponent of the highest power of ten that is at most `num / den`, both positive. -/
def floorLog10 (num den : Nat) : Int :=
  if den ≤ num then (decimal (num / den)).length - 1
  else -((decimal ((den - 1) / num)).length : Int)

/-- A text without the zeros at its end. -/
def dropTrailingZeros (t : Text) : Text := (t.reverse.dropWhile (· == '0')).reverse

/-- The decimal `n · 10 ^ e` of a positive number `n`. -/
def Decimal.ofNat (n : Nat) (e : Int) : Decimal :=
  ⟨dropTrailingZeros (decimal n), e + (decimal n).length - 1⟩

/-- A positive magnitude with the ends of the interval that reads back to it, all over one
denominator. -/
structure Interval where
  /-- The lower end. -/
  low : Nat
  /-- The number itself. -/
  mid : Nat
  /-- The upper end. -/
  high : Nat
  /-- The common denominator. -/
  den : Nat
  /-- Whether the ends belong to the interval. -/
  closed : Bool

/-- The interval that reads back to a finite magnitude.  Below a power of two the neighbours are half
as far apart as above it. -/
def Format.interval (f : Format) (magnitude : Nat) : Interval :=
  let (m, q) := f.decode magnitude
  -- in quarters of the distance to the greater neighbour
  let below := if m = 1 <<< f.fractionBits && f.minExponent < q then 1 else 2
  let up := (q - 2).toNat
  ⟨(4 * m - below) <<< up, (4 * m) <<< up, (4 * m + 2) <<< up, 1 <<< (2 - q).toNat, m % 2 = 0⟩

/-- The nearest decimal with `n` digits, if one reads back. -/
def Interval.onGrid? (i : Interval) (tie : Tie) (n : Nat) : Option Decimal :=
  let e := floorLog10 i.mid i.den + 1 - n
  let scale := Nat.pow 10 (-e).toNat
  let step := Nat.pow 10 e.toNat * i.den
  let inside := fun c =>
    if i.closed then decide (i.low * scale ≤ c * step ∧ c * step ≤ i.high * scale)
    else decide (i.low * scale < c * step ∧ c * step < i.high * scale)
  -- the neighbours of the number on the grid are `c` and `c + 1`
  let c := i.mid * scale / step
  let lower := i.mid * scale - c * step
  let upper := (c + 1) * step - i.mid * scale
  let preferUpper :=
    decide (upper < lower) || (decide (upper = lower) && (tie == .up || c % 2 == 1))
  match inside c, inside (c + 1) with
  | true, true => some (.ofNat (if preferUpper then c + 1 else c) e)
  | true, false => some (.ofNat c e)
  | false, true => some (.ofNat (c + 1) e)
  | false, false => none

/-- **The shortest decimal that reads back** to a positive finite magnitude.  Seventeen digits are
enough in the widest format here. -/
def Format.shortest (f : Format) (tie : Tie) (magnitude : Nat) : Decimal :=
  let i := f.interval magnitude
  ((List.range 17).findSome? fun n => i.onGrid? tie (n + 1)).getD (.ofNat 0 0)

/-! ### Layout -/

/-- How decimals are written. -/
structure Layout where
  /-- The least exponent that is written positionally. -/
  leastPositional : Int
  /-- The greatest exponent that is written positionally. -/
  greatestPositional : Int
  /-- What stands before an exponent that is not negative. -/
  plus : Text
  /-- The choice between equally near decimals. -/
  tie : Tie

/-- Diagnostics write numbers from `0.0001` up to `10 ^ 16` positionally and exponents without plus;
of two equally near decimals they show the greater. -/
def Layout.diagnostic : Layout := ⟨-4, 15, [], .up⟩

/-- JSON text writes numbers from `0.00001` up to `10 ^ 16` positionally and exponents with their
sign; of two equally near decimals it has the even one. -/
def Layout.json : Layout := ⟨-5, 15, ['+'], .even⟩

/-- The text of a positive decimal.  Positional text always has a point and a digit behind it. -/
def Layout.write (l : Layout) (d : Decimal) : Text :=
  if l.leastPositional ≤ d.exponent ∧ d.exponent ≤ l.greatestPositional then
    if d.exponent < 0 then
      '0' :: '.' :: (List.replicate (-d.exponent - 1).toNat '0' ++ d.digits)
    else
      let whole := d.exponent.toNat + 1
      if d.digits.length ≤ whole then
        d.digits ++ List.replicate (whole - d.digits.length) '0' ++ ['.', '0']
      else d.digits.take whole ++ '.' :: d.digits.drop whole
  else
    let mantissa := match d.digits with
      | c :: c' :: cs => c :: '.' :: c' :: cs
      | cs => cs
    let exponent :=
      if d.exponent < 0 then '-' :: decimal d.exponent.natAbs
      else l.plus ++ decimal d.exponent.natAbs
    mantissa ++ 'e' :: exponent

/-- The text of a number. -/
def Number.write {f : Format} (l : Layout) (x : Number f) : Text :=
  if x.magnitude > f.infinity then "NaN".toList
  else
    let sign : Text := if x.negative then ['-'] else []
    if x.magnitude = f.infinity then sign ++ "inf".toList
    else if x.magnitude = 0 then sign ++ "0.0".toList
    else sign ++ l.write (f.shortest l.tie x.magnitude)

end Binary

end BoundQuery
