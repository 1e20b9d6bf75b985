/-
**Binary floating-point numbers, exactly.**

A number of a binary interchange format is kept as its sign and its magnitude, the bits without the
sign bit read as a natural number.  Finite magnitudes grow with the value they stand for, the
magnitude `infinity` comes next, and everything above it is no number.  Arithmetic is exact on
quotients of natural numbers, followed by one rounding to the nearest number of the format, half way
to the one with the even magnitude.

Main definitions:

* `Binary.Format`, `Binary.double`, `Binary.single` — the formats with 64 and with 32 bits;
* `Format.decode` — a finite magnitude as `m · 2 ^ q`;
* `Format.round` — the magnitude nearest to a quotient;
* `Number`, `Number.bits`, `Number.toSingle` — numbers of a format.

Main results:

* `roundHalfEven_exact` — a quotient without remainder is not changed by rounding;
* `decode_ofSubnormal` — the magnitudes below the least normal one are multiples of one unit.
-/

set_option relaxedAutoImplicit false
set_option autoImplicit false

namespace BoundQuery

namespace Binary

/-- A binary interchange format. -/
structure Format where
  /-- The width of the fraction field. -/
  fractionBits : Nat
  /-- The width of the exponent field. -/
  exponentBits : Nat
deriving DecidableEq, Repr

/-- The format with 64 bits. -/
def double : Format := ⟨52, 11⟩

/-- The format with 32 bits. -/
def single : Format := ⟨23, 8⟩

/-- The natural number nearest to `num / den`; half way, the even one. -/
def roundHalfEven (num den : Nat) : Nat :=
  let q := num / den
  let r := num % den
  if 2 * r > den || (2 * r = den && q % 2 = 1) then q + 1 else q

theorem roundHalfEven_exact {den : Nat} (h : 0 < den) (n : Nat) :
    roundHalfEven (n * den) den = n := by
  simp [roundHalfEven, Nat.mul_div_cancel n h, Nat.ne_of_lt h]

/-- The exponent of the highest power of two that is at most `num / den`, both positive. -/
def floorLog2 (num den : Nat) : Int :=
  let d : Int := (num.log2 : Int) - den.log2
  if den <<< d.toNat ≤ num <<< (-d).toNat then d else d - 1

namespace Format

/-- What the exponent field exceeds the exponent by. -/
def bias (f : Format) : Nat := (1 <<< (f.exponentBits - 1)) - 1

/-- The exponent of the least positive number. -/
def minExponent (f : Format) : Int := 1 - f.bias - f.fractionBits

/-- The magnitude of infinity. -/
def infinity (f : Format) : Nat := ((1 <<< f.exponentBits) - 1) <<< f.fractionBits

/-- The magnitude that stands for "not a number". -/
def notANumber (f : Format) : Nat := f.infinity + (1 <<< (f.fractionBits - 1))

/-- A finite magnitude as `m · 2 ^ q`. -/
def decode (f : Format) (magnitude : Nat) : Nat × Int :=
  let e := magnitude >>> f.fractionBits
  let m := magnitude % (1 <<< f.fractionBits)
  if e = 0 then (m, f.minExponent) else ((1 <<< f.fractionBits) + m, f.minExponent + e - 1)

theorem decode_ofSubnormal (f : Format) {magnitude : Nat} (h : magnitude < 1 <<< f.fractionBits) :
    f.decode magnitude = (magnitude, f.minExponent) := by
  have hfield : magnitude >>> f.fractionBits = 0 := by
    rw [Nat.shiftRight_eq_div_pow]
    exact Nat.div_eq_of_lt (by rwa [Nat.one_shiftLeft] at h)
  simp [decode, hfield, Nat.mod_eq_of_lt h]

/-- The magnitude nearest to `num / den`.  The unit is the distance of neighbours at that size, and
the quotient in units, rounded, counts on from the first magnitude with that unit. -/
def round (f : Format) (num den : Nat) : Nat :=
  if num = 0 then 0
  else
    let unit := max (floorLog2 num den - f.fractionBits) f.minExponent
    let n := roundHalfEven (num <<< (-unit).toNat) (den <<< unit.toNat)
    -- a normal number counts its implicit bit as one step of the exponent field
    min (((unit - f.minExponent).toNat <<< f.fractionBits) + n) f.infinity

end Format

/-! ### Numbers with a sign -/

/-- A number of a format. -/
structure Number (f : Format) where
  /-- Whether the sign bit is set. -/
  negative : Bool
  /-- The other bits. -/
  magnitude : Nat
deriving DecidableEq, Repr

namespace Number

variable {f : Format}

/-- The bits of a number, as a natural number. -/
def bits (x : Number f) : Nat :=
  (if x.negative then 1 <<< (f.exponentBits + f.fractionBits) else 0) + x.magnitude

/-- The number nearest to an integer. -/
def ofInt (i : Int) : Number f := ⟨decide (i < 0), f.round i.natAbs 1⟩

/-- The number of the 32-bit format nearest to a number of the 64-bit format. -/
def toSingle (x : Number double) : Number single :=
  if x.magnitude < double.infinity then
    let (m, q) := double.decode x.magnitude
    ⟨x.negative, single.round (m <<< q.toNat) (1 <<< (-q).toNat)⟩
  else if x.magnitude = double.infinity then ⟨x.negative, single.infinity⟩
  else ⟨x.negative, single.notANumber⟩

end Number

end Binary

end BoundQuery
