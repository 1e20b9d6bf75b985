/-
**The value of a JSON number.**

A number without point and exponent that fits 64 bits is an integer.  Every other number is the
binary number with 64 bits that is nearest to what its digits say, however many there are; half way
between two neighbours it is the one with the even significand.

Main definitions:

* `Json.Number` — an integer or a binary number;
* `Numeral.scale` — the digits of a numeral as one number, and their power of ten;
* `Numeral.magnitude?` — the nearest magnitude, unless the number is too large;
* `Numeral.number?` — the value of a numeral, unless it is too large.

Main results:

* `number?_whole` — a short run of digits is the integer it denotes.
-/

import BoundQuery.Binary.Format
import BoundQuery.Json.Tree

set_option relaxedAutoImplicit false
set_option autoImplicit false

namespace BoundQuery

namespace Json

/-- The value of a number. -/
inductive Number where
  /-- An integer. -/
  | integer (i : Int)
  /-- A binary number. -/
  | float (x : Binary.Number Binary.double)
deriving DecidableEq, Repr

/-- The number that a run of digits denotes. -/
def valueOfDigits (t : Text) : Nat := Nat.ofDigitChars 10 t 0

namespace Numeral

/-- The digits of a numeral as one natural number, and the power of ten it is to be multiplied
with. -/
def scale (n : Numeral) : Nat × Int :=
  let exponent : Int := match n.exponent? with
    | none => 0
    | some (negative, ds) => if negative then -(valueOfDigits ds : Int) else valueOfDigits ds
  (valueOfDigits (n.whole ++ n.fraction), exponent - n.fraction.length)

/-- The magnitude nearest to a significand times a power of ten, unless it is infinite. -/
def magnitude? (significand : Nat) (exponent : Int) : Option Nat :=
  let size := exponent + (decimal significand).length
  -- the product has `size` digits before the point; far out the exact powers are not needed
  if significand = 0 ∨ size < -330 then some 0
  else if 310 < size then none
  else
    let m := Binary.double.round (significand * Nat.pow 10 exponent.toNat)
      (Nat.pow 10 (-exponent).toNat)
    if m < Binary.double.infinity then some m else none

/-- **The value of a numeral**, unless it is too large for one. -/
def number? (n : Numeral) : Option Number :=
  let i := valueOfDigits n.whole
  if n.isWhole && !n.negative && i < UInt64.size then some (.integer i)
  else if n.isWhole && n.negative && 0 < i && Int64.minValue.toInt ≤ -i then some (.integer (-i))
  else
    let (significand, exponent) := n.scale
    (magnitude? significand exponent).map fun m => .float ⟨n.negative, m⟩

/-- A run of digits that fits 64 bits is the integer it denotes. -/
theorem number?_whole {ds : Text} (h : valueOfDigits ds < UInt64.size) :
    number? ⟨false, ds, [], none⟩ = some (.integer (valueOfDigits ds)) :=
  if_pos (by rw [Bool.and_eq_true]; exact ⟨rfl, decide_eq_true h⟩)

end Numeral

/-- A number as a binary number. -/
def Number.toDouble : Number → Binary.Number Binary.double
  | integer i => .ofInt i
  | float x => x

end Json

end BoundQuery
