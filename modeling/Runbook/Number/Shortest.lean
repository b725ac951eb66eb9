import Runbook.Number.Binary64

set_option autoImplicit false
set_option relaxedAutoImplicit false

/-!
The shortest decimal of a binary64 number: of the decimals that read back as the number, one with
the fewest digits, and among those the nearest to it.
-/

namespace Runbook.Number

/-- A positive decimal `digits × 10 ^ power`. -/
structure Decimal where
  digits : Nat
  power : Int
  deriving DecidableEq

namespace Decimal

def digitsOf (n : Nat) : List Char := Nat.toDigits 10 n

/-- The same decimal without zeros at the end of its digits. -/
def stripZeros : Nat → Decimal → Decimal
  | 0, d => d
  | n + 1, d => if d.digits % 10 == 0 then stripZeros n ⟨d.digits / 10, d.power + 1⟩ else d

/-- A multiple `k × 10 ^ power` compared with a ratio, both brought to one denominator: the two
numerators. -/
def scales (num den : Nat) (power : Int) : Nat × Nat :=
  (num * Nat.pow 10 (-power).toNat, den * Nat.pow 10 power.toNat)

/-- The real numbers that round to a number, as numerators over four times its denominator, and
whether the ends belong to them. -/
structure Interval where
  low : Nat
  high : Nat
  closed : Bool

def interval (x : Binary64) : Interval :=
  let m := x.significand
  let scale := Nat.pow 2 x.exponent
  let low := if m == Nat.pow 2 52 && x.exponent != 0 then 4 * m - 1 else 4 * m - 2
  ⟨low * scale, (4 * m + 2) * scale, m % 2 == 0⟩

/-- Whether `k × 10 ^ power` reads back as the number of an interval. -/
def within (i : Interval) (power : Int) (k : Nat) : Bool :=
  let (low, den) := scales i.low (4 * Binary64.unit) power
  let (high, _) := scales i.high (4 * Binary64.unit) power
  if i.closed then low ≤ k * den && k * den ≤ high else low < k * den && k * den < high

/-- The decimal of the grid `10 ^ power` nearest to a number, if it or its other neighbour on the
grid reads back. -/
def onGrid? (x : Binary64) (power : Int) : Option Decimal :=
  let i := interval x
  let (num, den) := scales x.numerator Binary64.unit power
  let below := num / den
  let nearBelow := 2 * (num % den) < den || (2 * (num % den) == den && below % 2 == 0)
  let first := if nearBelow then below else below + 1
  let second := if nearBelow then below + 1 else below
  if within i power first then some ⟨first, power⟩
  else if within i power second then some ⟨second, power⟩
  else none

/-- The first grid with a decimal that reads back, of a number of grids ever finer. -/
def search (x : Binary64) : Nat → Int → Decimal
  | 0, power =>
    let (num, den) := scales x.numerator Binary64.unit power
    ⟨num / den, power⟩
  | n + 1, power => (onGrid? x power).getD (search x n (power - 1))

/-- The number of digits before the decimal point, zero or negative for a fraction. -/
def pointPosition (x : Binary64) : Int :=
  (digitsOf (x.numerator * Nat.pow 10 400 / Binary64.unit)).length - 400

/-- The shortest decimal of a number that is not zero. -/
def shortest (x : Binary64) : Decimal :=
  stripZeros 20 (search x 17 (pointPosition x - 1))

/-- How a decimal is written: where positional notation ends, counted in digits before the point,
and whether a positive exponent has a sign. -/
structure Layout where
  lowest : Int
  highest : Int
  signed : Bool

/-- The text of a number: positional with a point in a middle range, scientific outside it. -/
def text (style : Layout) (x : Binary64) : String :=
  let sign := if x.negative then "-" else ""
  if x.magnitude == 0 then sign ++ "0.0"
  else
    let d := shortest x
    let ds := digitsOf d.digits
    let point := d.power + ds.length
    let body : List Char :=
      if point < style.lowest || style.highest < point then
        let mantissa := match ds with
          | [] => []
          | [c] => [c]
          | c :: cs => c :: '.' :: cs
        let e := point - 1
        let mark := if e < 0 then ['e', '-'] else if style.signed then ['e', '+'] else ['e']
        mantissa ++ mark ++ digitsOf e.natAbs
      else if point ≤ 0 then
        '0' :: '.' :: List.replicate (-point).toNat '0' ++ ds
      else if (ds.length : Int) ≤ point then
        ds ++ List.replicate (point - ds.length).toNat '0' ++ ['.', '0']
      else ds.take point.toNat ++ '.' :: ds.drop point.toNat
    sign ++ String.ofList body

example : ((Binary64.ofRatio? false 3 10).map (text ⟨-4, 16, true⟩)) = some "0.3" := by
  decide +kernel
example :
    ((Binary64.ofRatio? true (Nat.pow 10 16) 1).map (text ⟨-4, 16, true⟩)) = some "-1e+16" := by
  decide +kernel
example : ((Binary64.ofRatio? false 1 100000).map (text ⟨-4, 16, true⟩)) = some "0.00001" := by
  decide +kernel

end Decimal

end Runbook.Number
