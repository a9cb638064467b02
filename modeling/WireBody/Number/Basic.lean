import WireBody.Number.Decimal
import WireBody.Number.Shortest

/-!
# Numbers of a document

A number literal denotes an integer, when it is written as one and fits 64 bits, and a double
otherwise.  `Number.text` writes a number back: an integer as it is, a double in its shortest
decimal form.
-/

set_option autoImplicit false

namespace WireBody

/-- The number that a literal denotes. -/
inductive Number where
  | integer (value : Int)
  | double (value : Double)
  deriving DecidableEq, Repr

/-! ## Double text -/

/-- The layout of doubles in text. -/
structure DoubleText where
  /-- The least decimal exponent written positionally. -/
  firstPositional : Int
  /-- The least decimal exponent above those written positionally. -/
  firstScientific : Int
  /-- What a whole number ends in. -/
  wholeMark : String
  /-- What a positive exponent starts with. -/
  positiveExponent : String
  /-- What a negative exponent starts with. -/
  negativeExponent : String

/-- Doubles from `0.00001` up to below `10 ^ 16` are written positionally, whole ones with `.0`; the
others as digits and a signed exponent. -/
def Double.layout : DoubleText := ⟨-5, 16, ".0", "e+", "e-"⟩

/-- A run of zeros. -/
def zeros (n : Nat) : String := String.ofList (List.replicate n '0')

/-- Write the number whose digits are `digits` and whose first digit stands at `10 ^ e`. -/
def DoubleText.write (t : DoubleText) (digits : List Char) (e : Int) : String :=
  if t.firstPositional ≤ e ∧ e < t.firstScientific then
    if e < 0 then "0." ++ zeros (-e - 1).toNat ++ String.ofList digits
    else
      let whole := digits.take (e.toNat + 1)
      let fraction := digits.drop (e.toNat + 1)
      String.ofList whole ++ zeros (e.toNat + 1 - whole.length) ++
        (if fraction.isEmpty then t.wholeMark else "." ++ String.ofList fraction)
  else
    let fraction := digits.drop 1
    String.ofList (digits.take 1) ++
      (if fraction.isEmpty then "" else "." ++ String.ofList fraction) ++
      (if e < 0 then t.negativeExponent else t.positiveExponent) ++ toString e.natAbs

/-- The text of a double; zero is `0.0` and keeps its sign. -/
def Double.text (x : Double) : String :=
  let magnitude :=
    if x.mantissa = 0 then Double.layout.write ['0'] 0
    else
      let (c, k) := x.shortest
      let digits := Nat.toDigits 10 c
      Double.layout.write digits (k + digits.length - 1)
  if x.negative then "-" ++ magnitude else magnitude

/-! ## From literals to numbers and back -/

/-- The number of a literal.  `-0` is the negative zero; a literal beyond the largest double denotes
no number. -/
def Number.ofLiteral? (l : Literal) : Option Number :=
  if l.integral ∧ l.exponent = 0 ∧ l.negative = false then some (.integer l.coefficient)
  else if l.integral ∧ l.exponent = 0 ∧ 0 < l.coefficient ∧ l.coefficient ≤ Nat.pow 2 63 then
    some (.integer (-l.coefficient))
  else (Double.ofDecimal? l.negative l.coefficient l.exponent).map .double

/-- The decimal text of a number. -/
def Number.text : Number → String
  | .integer n => toString n
  | .double x => x.text

end WireBody
