import WireBody.Number.Double

/-!
# Shortest decimals

The decimal text of a double has the fewest digits that round back to it, and of those digits the
ones nearest to its value.  The reals that round to a double `m · 2 ^ q` form an interval around it;
the decimals of a given last place form a grid; the answer is on the coarsest grid with a point in
the interval.  All comparisons are exact: in units of a quarter of `2 ^ q` the interval has whole
ends.

Main statement: `Double.nearestOn?_mem`, that a chosen decimal lies in the interval.
-/

set_option autoImplicit false

namespace WireBody.Double

/-! ## The interval -/

/-- The lower end of the interval, in quarters of the last place: half a place below, or a quarter
where the doubles below are twice as dense. -/
def lowerEnd (x : Double) : Nat :=
  if x.mantissa = Nat.pow 2 (precision - 1) ∧ minExponent < x.exponent then 4 * x.mantissa - 1
  else 4 * x.mantissa - 2

/-- The upper end of the interval, in quarters of the last place. -/
def upperEnd (x : Double) : Nat := 4 * x.mantissa + 2

/-- Factors that make `c · 10 ^ k` and `r` quarters of a place of `x` comparable: the former is
`c · fst`, the latter `r · snd`. -/
def scales (x : Double) (k : Int) : Nat × Nat :=
  (Nat.pow 10 k.toNat * Nat.pow 2 (2 - x.exponent).toNat,
    Nat.pow 10 (-k).toNat * Nat.pow 2 (x.exponent - 2).toNat)

/-- Whether `c · 10 ^ k` rounds to `x`; the ends do exactly when the mantissa is even. -/
def attracts (x : Double) (c : Nat) (k : Int) : Bool :=
  let (a, b) := scales x k
  if x.mantissa % 2 = 0 then x.lowerEnd * b ≤ c * a && c * a ≤ x.upperEnd * b
  else x.lowerEnd * b < c * a && c * a < x.upperEnd * b

/-! ## The search -/

/-- Of the two multiples of `10 ^ k` around `x` the one that rounds to `x`; of two the nearer, and
at equal distance the even one. -/
def nearestOn? (x : Double) (k : Int) : Option (Nat × Int) :=
  let (a, b) := scales x k
  let c := 4 * x.mantissa * b / a
  let below := 4 * x.mantissa * b - c * a
  let above := (c + 1) * a - 4 * x.mantissa * b
  match x.attracts c k, x.attracts (c + 1) k with
  | true, false => some (c, k)
  | false, true => some (c + 1, k)
  | true, true =>
    if below < above || (below = above && c % 2 = 0) then some (c, k) else some (c + 1, k)
  | false, false => none

/-- A chosen decimal is one that rounds to the number. -/
theorem nearestOn?_mem {x : Double} {k j : Int} {c : Nat} (h : x.nearestOn? k = some (c, j)) :
    x.attracts c j = true := by
  simp only [nearestOn?] at h
  split at h
  · cases h; assumption
  · cases h; assumption
  · split at h <;> cases h <;> assumption
  · cases h

/-- A power of ten above `x`: `10 ^ leadPlace x` exceeds it. -/
def leadPlace (x : Double) : Int :=
  ((x.mantissa.log2 + 1 : Int) + x.exponent) * 30103 / 100000 + 1

/-- The shortest decimal `c · 10 ^ k` of a nonzero double.  Seventeen digits suffice for every
double, so the search ends within twenty grids. -/
def shortest (x : Double) : Nat × Int :=
  ((List.range 20).findSome? fun (i : Nat) => x.nearestOn? (leadPlace x - i)).getD
    (x.mantissa, x.exponent)

end WireBody.Double
