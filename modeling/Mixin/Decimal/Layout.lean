/-
**How a decimal is laid out.**

A `Layout` says where positional writing ends.  Within its range a number is written out with at
least one digit on each side of the point; outside it one digit stands before the point, the point
is left out when no digit follows, and the exponent shows its sign.
-/

import Mixin.Decimal.Shortest

namespace Mixin.Decimal

/-- The exponents that are written positionally. -/
structure Layout where
  /-- The least exponent written positionally. -/
  least : Int
  /-- The first exponent too great to be written positionally. -/
  bound : Int

/-- Numbers in JSON are positional from `0.00001` to just below ten to the sixteenth. -/
def Layout.json : Layout := ⟨-5, 16⟩

/-- A run of zeros. -/
def zeros (count : Nat) : List Char := List.replicate count '0'

/-- A decimal with every digit in its place. -/
def positional (d : Decimal) : List Char :=
  if d.exponent < 0 then
    ['0', '.'] ++ zeros (d.exponent.natAbs - 1) ++ d.digits
  else
    let whole := d.exponent.toNat + 1
    let fraction := d.digits.drop whole
    d.digits.take whole ++ zeros (whole - d.digits.length) ++ ['.'] ++
      (if fraction.isEmpty then ['0'] else fraction)

/-- A decimal with one digit before the point and an exponent. -/
def scientific (d : Decimal) : List Char :=
  let point := if d.digits.length ≤ 1 then [] else ['.']
  let sign := if d.exponent < 0 then '-' else '+'
  d.digits.take 1 ++ point ++ d.digits.drop 1 ++ ['e', sign] ++
    Nat.toDigits 10 d.exponent.natAbs

/-- Writes a decimal in a layout. -/
def write (layout : Layout) (d : Decimal) : List Char :=
  if layout.least ≤ d.exponent ∧ d.exponent < layout.bound then d.positional else d.scientific

/-- Writes a finite double in a layout, with the sign of zero. -/
def writeFloat (layout : Layout) (value : Float) : List Char :=
  let m := Magnitude.ofFloat value
  let sign := if value.toBits.toNat / powerOfTwo 63 = 1 then ['-'] else []
  if m.mantissa = 0 then sign ++ ['0', '.', '0'] else sign ++ (shortest m).write layout

end Mixin.Decimal
