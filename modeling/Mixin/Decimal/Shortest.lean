/-
**The shortest decimal that reads back.**

A positive finite double stands for every real number that rounds to it: an interval around its
value, with its ends included exactly when its mantissa is even.  `Decimal.shortest` finds the
decimal with the fewest digits in that interval and, of several, the one nearest to the value; a
tie goes to the even coefficient.

All arithmetic is exact.  Values are measured in units of `2 ^ -1076 * 10 ^ -340`, which divide every
double, every half gap between doubles and every decimal grid the search visits, so the search works
on natural numbers alone.
-/

namespace Mixin

/-- The decimal `d.ddd… * 10 ^ exponent`, by its digits. -/
structure Decimal where
  /-- The digits, most significant first. -/
  digits : List Char
  /-- The power of ten of the first digit. -/
  exponent : Int
deriving DecidableEq, Repr

/-- A power of two. -/
def powerOfTwo (exponent : Nat) : Nat := Nat.pow 2 exponent

/-- A power of ten. -/
def powerOfTen (exponent : Nat) : Nat := Nat.pow 10 exponent

/-- A double without its sign, as the two fields that its bits hold. -/
structure Magnitude where
  /-- The fifty-two bits after the leading one. -/
  fraction : Nat
  /-- The eleven bits of the exponent; zero for the values without a leading one. -/
  field : Nat
deriving DecidableEq, Repr

namespace Magnitude

/-- The fields of a double. -/
def ofFloat (value : Float) : Magnitude where
  fraction := value.toBits.toNat % powerOfTwo 52
  field := value.toBits.toNat / powerOfTwo 52 % powerOfTwo 11

/-- The integer part of the representation: the value is `mantissa * 2 ^ (shift - 1074)`. -/
def mantissa (m : Magnitude) : Nat :=
  if m.field = 0 then m.fraction else m.fraction + powerOfTwo 52

/-- How far the last bit stands above the smallest double. -/
def shift (m : Magnitude) : Nat := m.field - 1

/-- The value in units. -/
def value (m : Magnitude) : Nat := m.mantissa * powerOfTwo (m.shift + 2) * powerOfTen 340

/-- Half the distance to the next double, in units. -/
def gapAbove (m : Magnitude) : Nat := powerOfTwo (m.shift + 1) * powerOfTen 340

/-- Half the distance to the previous double, which is closer below a power of two. -/
def gapBelow (m : Magnitude) : Nat :=
  if m.fraction = 0 ∧ 1 < m.field then powerOfTwo m.shift * powerOfTen 340 else m.gapAbove

/-- Whether a point at a distance from the value, on the side with the given gap, rounds to it. -/
def holds (m : Magnitude) (gap distance : Nat) : Bool :=
  if m.mantissa % 2 = 0 then distance ≤ gap else distance < gap

end Magnitude

namespace Decimal

/-- The coefficient on a grid of the given step that rounds to the value and is nearest to it. -/
def onGrid? (m : Magnitude) (step : Nat) : Option Nat :=
  let low := m.value / step
  let down := m.value % step
  let up := step - down
  match m.holds m.gapBelow down, m.holds m.gapAbove up with
  | true, true => if down < up ∨ (down = up ∧ low % 2 = 0) then some low else some (low + 1)
  | true, false => some low
  | false, true => some (low + 1)
  | false, false => none

/-- Digits without the zeros at their end. -/
def significant (digits : List Char) : List Char :=
  (digits.reverse.dropWhile (· == '0')).reverse

/-- The decimal with a coefficient and a power of ten. -/
def ofCoefficient (coefficient : Nat) (power : Int) : Decimal :=
  let digits := Nat.toDigits 10 coefficient
  ⟨significant digits, power + digits.length - 1⟩

/-- The shortest decimal for a positive value; seventeen digits always suffice. -/
def shortest (m : Magnitude) : Decimal :=
  let width := (Nat.toDigits 10 (m.value / powerOfTwo 1076)).length
  let attempt (count : Nat) : Option Decimal :=
    (onGrid? m (powerOfTen (width - count) * powerOfTwo 1076)).map fun coefficient =>
      ofCoefficient coefficient ((width - count : Nat) - 340 : Int)
  ((List.range 17).findSome? fun fewer => attempt (fewer + 1)).getD
    (ofCoefficient (m.value / powerOfTwo 1076) (-340))

end Decimal

end Mixin
