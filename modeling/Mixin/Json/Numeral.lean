/-
**The numbers of a JSON text.**

Digits go into a significand as long as it stays below `2 ^ 64`; later digits of the whole part
raise the exponent, later digits of the fraction are dropped.  A numeral without fraction, exponent
and dropped digits is an integer when it fits sixty-four bits; every other one is a double, computed
as the significand times or divided by a power of ten in double arithmetic.

`skimNumber` passes over a numeral, checks its form only, and calls every early end an invalid
number.
-/

import Mixin.Json.Basic
import Mixin.Json.Fault

namespace Mixin.Json

variable {ρ : Type}

/-! ### Digits -/

/-- Drops leading digits. -/
def dropDigits (text : List Char) : List Char :=
  text.dropWhile Char.isDigit

/-- Whether a text goes on with a digit. -/
def startsWithDigit : List Char → Bool
  | [] => false
  | c :: _ => c.isDigit

/-- Takes digits into a number as long as it stays below `bound`. -/
def absorb (bound : Nat) : Nat → List Char → Nat × List Char
  | number, [] => (number, [])
  | number, c :: rest =>
    let grown := number * 10 + (c.toNat - '0'.toNat)
    if c.isDigit && grown < bound then absorb bound grown rest else (number, c :: rest)

/-- What does not fit sixty-four bits. -/
def wordBound : Nat := 0x10000000000000000

/-- The magnitude of the least integer of sixty-four bits with a sign. -/
def signedBound : Nat := 0x8000000000000000

/-- What does not fit an exponent. -/
def exponentBound : Nat := 0x80000000

/-! ### Doubles from a significand and an exponent -/

/-- Scales by a power of ten, by division when the power is negative; `none` when the result is
beyond every double. -/
def scale? (value : Float) (exponent : Int) : Option Float :=
  if exponent.natAbs ≤ 308 then
    if 0 ≤ exponent then
      let product := value * Float.ofScientific 1 false exponent.natAbs
      if product.isInf then none else some product
    else some (value / Float.ofScientific 1 false exponent.natAbs)
  else if value == 0.0 then some value
  else if 0 ≤ exponent then none
  else scale? (value / Float.ofScientific 1 false 308) (exponent + 308)
termination_by exponent.natAbs
decreasing_by omega

/-- A double with its sign. -/
def signed (negative : Bool) (value : Float) : Number :=
  .float (if negative then -value else value)

/-- The double of a significand and an exponent, with `rest` after its numeral. -/
def readScaled (negative : Bool) (significand : Nat) (exponent : Int) : Reader ρ Number :=
  fun rest =>
    match scale? (UInt64.ofNat significand).toFloat exponent with
    | some value => .ok (signed negative value, rest)
    | none => .error (.before .numberOutOfRange rest)

/-- A numeral that is a plain run of digits: an integer if it fits, with minus zero a double. -/
def integer (negative : Bool) (significand : Nat) : Number :=
  if negative then
    if 0 < significand ∧ significand ≤ signedBound then .int (-significand)
    else signed true (UInt64.ofNat significand).toFloat
  else .int significand

/-! ### The parts of a numeral -/

/-- The digits of an exponent and the double they make.  An exponent of `2 ^ 31` or more is beyond
every double when positive; otherwise, and for a zero significand, the value is zero. -/
def readPower (negative : Bool) (significand : Nat) (exponent : Int) (raising : Bool) :
    Reader ρ Number
  | [] => .error (.on .endInValue [])
  | first :: digits =>
    if first.isDigit then
      let (power, rest) := absorb exponentBound 0 (first :: digits)
      if startsWithDigit rest then
        if significand ≠ 0 && raising then .error (.on .numberOutOfRange rest)
        else .ok (signed negative 0.0, dropDigits rest)
      else readScaled negative significand (if raising then exponent + power else exponent - power)
        rest
    else .error (.on .invalidNumber (first :: digits))

/-- The sign and digits of an exponent, from after its letter. -/
def readExponent (negative : Bool) (significand : Nat) (exponent : Int) : Reader ρ Number
  | '+' :: digits => readPower negative significand exponent true digits
  | '-' :: digits => readPower negative significand exponent false digits
  | digits => readPower negative significand exponent true digits

/-- Whether a character introduces an exponent. -/
def isExponentMark (c : Char) : Bool := c == 'e' || c == 'E'

/-- What may follow the fraction. -/
def readAfterFraction (negative : Bool) (significand : Nat) (exponent : Int) : Reader ρ Number
  | [] => readScaled negative significand exponent []
  | c :: rest =>
    if isExponentMark c then readExponent negative significand exponent rest
    else readScaled negative significand exponent (c :: rest)

/-- The digits of a fraction, from after the point; there must be one. -/
def readFraction (negative : Bool) (significand : Nat) (dropped : Nat) : Reader ρ Number
  | [] => .error (.on .endInValue [])
  | first :: digits =>
    if first.isDigit then
      let (significand, rest) := absorb wordBound significand (first :: digits)
      let taken := (first :: digits).length - rest.length
      readAfterFraction negative significand (dropped - taken : Int) (dropDigits rest)
    else .error (.on .invalidNumber (first :: digits))

/-- What may follow the whole part, of which `dropped` digits went into the exponent. -/
def readAfterWhole (negative : Bool) (significand : Nat) (dropped : Nat) : Reader ρ Number :=
  fun text =>
    let plain : Except (Fault ρ) (Number × List Char) :=
      if dropped = 0 then .ok (integer negative significand, text)
      else readScaled negative significand dropped text
    match text with
    | [] => plain
    | c :: rest =>
      if c = '.' then readFraction negative significand dropped rest
      else if isExponentMark c then readExponent negative significand dropped rest
      else plain

/-- A numeral from its first digit on; a leading zero stands alone. -/
def readNumber (negative : Bool) : Reader ρ Number
  | [] => .error (.on .endInValue [])
  | first :: digits =>
    if first = '0' then
      if startsWithDigit digits then .error (.on .invalidNumber digits)
      else readAfterWhole negative 0 0 digits
    else if first.isDigit then
      let (significand, rest) := absorb wordBound 0 (first :: digits)
      let after := dropDigits rest
      readAfterWhole negative significand (rest.length - after.length) after
    else .error (.on .invalidNumber (first :: digits))

/-! ### Skimming -/

/-- Passes over an exponent, from after its letter. -/
def skimExponent (text : List Char) : Except (Fault ρ) (Unit × List Char) :=
  let digits := match text with
    | '+' :: digits => digits
    | '-' :: digits => digits
    | digits => digits
  if startsWithDigit digits then .ok ((), dropDigits digits)
  else .error (.on .invalidNumber digits)

/-- Passes over an exponent if there is one. -/
def skimAfterFraction : Reader ρ Unit
  | [] => .ok ((), [])
  | c :: rest => if isExponentMark c then skimExponent rest else .ok ((), c :: rest)

/-- Passes over a fraction and an exponent if there are any. -/
def skimAfterWhole : Reader ρ Unit
  | '.' :: digits =>
    if startsWithDigit digits then skimAfterFraction (dropDigits digits)
    else .error (.on .invalidNumber digits)
  | rest => skimAfterFraction rest

/-- Passes over a numeral from its first digit on. -/
def skimNumber : Reader ρ Unit
  | [] => .error (.on .invalidNumber [])
  | first :: digits =>
    if first = '0' then
      if startsWithDigit digits then .error (.on .invalidNumber digits)
      else skimAfterWhole digits
    else if first.isDigit then skimAfterWhole (dropDigits digits)
    else .error (.on .invalidNumber (first :: digits))

end Mixin.Json
