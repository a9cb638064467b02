/-!
# Double-precision numbers

A finite double is `± mantissa · 2 ^ exponent`.  Products and quotients of doubles are computed
exactly, as quotients of naturals, and then rounded once.  Main statement: `roundDiv_close`, that a
rounded quotient is within half a unit of the exact one.
-/

set_option autoImplicit false

namespace WireBody

/-! ## Rounding a quotient -/

/-- The natural number nearest to `n / d`; of two equally near ones the even one. -/
def roundDiv (n d : Nat) : Nat :=
  if 2 * (n % d) < d then n / d
  else if d < 2 * (n % d) then n / d + 1
  else n / d + n / d % 2

/-- The rounded quotient is within half a unit of the exact one. -/
theorem roundDiv_close {n d : Nat} (pos : 0 < d) :
    2 * n ≤ 2 * (d * roundDiv n d) + d ∧ 2 * (d * roundDiv n d) ≤ 2 * n + d := by
  have split := Nat.div_add_mod n d
  have lt := Nat.mod_lt n pos
  have step : ∀ k, d * (n / d + k) = d * (n / d) + d * k := fun k => Nat.mul_add d (n / d) k
  unfold roundDiv
  split
  · omega
  · split
    · rw [step]
      omega
    · rcases Nat.mod_two_eq_zero_or_one (n / d) with h | h <;> rw [h, step] <;> omega

/-! ## The type -/

/-- A finite double: `mantissa · 2 ^ exponent`, negated when `negative` is set. -/
structure Double where
  negative : Bool
  mantissa : Nat
  exponent : Int
  deriving DecidableEq, Repr

namespace Double

/-- Mantissas have this many bits. -/
def precision : Nat := 53

/-- The exponent of the smallest positive double. -/
def minExponent : Int := -1074

/-- The exponent of the largest doubles. -/
def maxExponent : Int := 971

/-- The zero of a sign. -/
def zero (negative : Bool) : Double := ⟨negative, 0, minExponent⟩

/-- The quotient `num / den` counted in units of `2 ^ q`, as a quotient of naturals. -/
def inUnits (num den : Nat) (q : Int) : Nat × Nat :=
  (num * Nat.pow 2 (-q).toNat, den * Nat.pow 2 q.toNat)

/-- The exponent at which `num / den` has a mantissa of full precision, or the least exponent where
it has none. -/
def unitOf (num den : Nat) : Int :=
  let q : Int := (num.log2 : Int) - den.log2 - precision
  let (n, d) := inUnits num den q
  max minExponent (if Nat.pow 2 precision ≤ n / d then q + 1 else q)

/-- The double nearest to `num / den`, ties to the even mantissa; none where that is beyond the
largest double. -/
def ofRatio? (negative : Bool) (num den : Nat) : Option Double :=
  if num = 0 then some (zero negative)
  else
    let q := unitOf num den
    let (n, d) := inUnits num den q
    let m := roundDiv n d
    let (m, q) :=
      if m = Nat.pow 2 precision then (Nat.pow 2 (precision - 1), q + 1) else (m, q)
    if maxExponent < q then none else some ⟨negative, m, q⟩

/-! ## Arithmetic -/

/-- The magnitude of a double as a quotient of naturals. -/
def ratio (x : Double) : Nat × Nat :=
  (x.mantissa * Nat.pow 2 x.exponent.toNat, Nat.pow 2 (-x.exponent).toNat)

/-- The double nearest to a product. -/
def mul? (x y : Double) : Option Double :=
  ofRatio? (x.negative != y.negative) (x.ratio.1 * y.ratio.1) (x.ratio.2 * y.ratio.2)

/-- The double nearest to a quotient; the divisor must not be zero. -/
def div? (x y : Double) : Option Double :=
  ofRatio? (x.negative != y.negative) (x.ratio.1 * y.ratio.2) (x.ratio.2 * y.ratio.1)

end Double

end WireBody
