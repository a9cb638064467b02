import WireBody.Number.Double
import WireBody.Text.Characters

/-!
# Decimals

How the digits of a number literal become a double.  The coefficient takes as many of the digits as
fit a word of 64 bits; of the others, each one before the point still counts for a factor of ten,
and those behind it for nothing.  Coefficient and power of ten are rounded to doubles, and then
multiplied or divided, so that a literal is rounded more than once: its double is often, but not
always, the nearest one.

Main statement: `keepDigits_lt`, that a coefficient fits its word.
-/

set_option autoImplicit false

namespace WireBody

/-! ## Coefficients -/

/-- Coefficients are below this. -/
def coefficientBound : Nat := UInt64.size

/-- A coefficient with digits appended as long as it stays in its bound, and the digits left. -/
def keepDigits (coefficient : Nat) : List Char → Nat × List Char
  | [] => (coefficient, [])
  | c :: rest =>
    if coefficient * 10 + digitValue c < coefficientBound then
      keepDigits (coefficient * 10 + digitValue c) rest
    else (coefficient, c :: rest)

/-- A coefficient stays in its bound. -/
theorem keepDigits_lt : ∀ {n : Nat} {digits : List Char}, n < coefficientBound →
    (keepDigits n digits).1 < coefficientBound
  | _, [], h => h
  | n, c :: rest, h => by
    rw [keepDigits]
    split
    · rename_i fits
      exact keepDigits_lt fits
    · exact h

/-! ## Literals -/

/-- A number literal: `coefficient · 10 ^ exponent`, negated after a minus sign. -/
structure Literal where
  negative : Bool
  coefficient : Nat
  exponent : Int
  /-- Written with neither a fraction nor an exponent. -/
  integral : Bool
  coefficient_lt : coefficient < coefficientBound
  deriving DecidableEq, Repr

/-- The literal of the digits before the point, the digits behind it, if there is a point, and the
number behind the exponent mark, if there is one. -/
def Literal.ofParts (negative : Bool) (whole : List Char) (fraction : Option (List Char))
    (exponent : Option Int) : Literal where
  negative := negative
  coefficient := (keepDigits (keepDigits 0 whole).1 (fraction.getD [])).1
  exponent :=
    let before := (keepDigits 0 whole).2.length
    let behind :=
      (fraction.getD []).length - (keepDigits (keepDigits 0 whole).1 (fraction.getD [])).2.length
    exponent.getD 0 + before - behind
  integral := fraction.isNone && exponent.isNone
  coefficient_lt := keepDigits_lt (keepDigits_lt (by decide))

/-! ## Doubles -/

namespace Double

/-- The greatest power of ten among the doubles. -/
def maxPower : Nat := 308

/-- The double nearest to `10 ^ n`; none for powers beyond the largest double. -/
def powerOfTen? (n : Nat) : Option Double :=
  if n ≤ maxPower then ofRatio? false (Nat.pow 10 n) 1 else none

/-- The product with a power of ten. -/
def scaleUp? (x : Double) (n : Nat) : Option Double := (powerOfTen? n).bind x.mul?

/-- The quotient by the greatest power of ten, so many times or until nothing is left. -/
def lower? (x : Double) : Nat → Option Double
  | 0 => some x
  | times + 1 =>
    if x.mantissa = 0 then some x
    else ((powerOfTen? maxPower).bind x.div?).bind fun y => y.lower? times

/-- The quotient by a power of ten, which takes several divisions beyond the greatest power. -/
def scaleDown? (x : Double) (n : Nat) : Option Double :=
  let times := (n - 1) / maxPower
  (x.lower? times).bind fun y => (powerOfTen? (n - times * maxPower)).bind y.div?

/-- The double of `coefficient · 10 ^ exponent`; none beyond the largest double. -/
def ofDecimal? (negative : Bool) (coefficient : Nat) (exponent : Int) : Option Double :=
  if coefficient = 0 then some (zero negative)
  else
    (ofRatio? negative coefficient 1).bind fun x =>
      if 0 ≤ exponent then x.scaleUp? exponent.toNat else x.scaleDown? (-exponent).toNat

end Double

end WireBody
