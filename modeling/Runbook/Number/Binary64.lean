set_option autoImplicit false
set_option relaxedAutoImplicit false

/-!
Finite IEEE 754 binary64 numbers, computed with in exact integer arithmetic: a result is the
nearest representable number, and of two equally near ones the one with an even significand.
-/

namespace Runbook.Number

/-- One past the largest magnitude pattern of a finite number. -/
def finiteBound : Nat := 2047 * Nat.pow 2 52

/-- A finite binary64 number: its sign, and the other 63 bits read as an integer. -/
structure Binary64 where
  negative : Bool
  magnitude : Nat
  finite : magnitude < finiteBound
  deriving DecidableEq

namespace Binary64

/-- The significand of the magnitude. -/
def significand (x : Binary64) : Nat :=
  let least := Nat.pow 2 52
  if x.magnitude < least then x.magnitude else x.magnitude % least + least

/-- The binary exponent of the magnitude, counted from the smallest one. -/
def exponent (x : Binary64) : Nat := x.magnitude / Nat.pow 2 52 - 1

/-- The number of units of the last place of the smallest numbers in one. -/
def unit : Nat := Nat.pow 2 1074

def zero (negative : Bool) : Binary64 := ⟨negative, 0, by decide⟩

/-- The quotient of two naturals, rounded to the nearest integer and to even on a tie. -/
def roundedQuotient (num den : Nat) : Nat :=
  let q := num / den
  let r := num % den
  if 2 * r < den then q
  else if den < 2 * r then q + 1
  else if q % 2 == 0 then q else q + 1

/-- The magnitude pattern nearest to a positive ratio; a significand that rounds up to the next
power of two carries into the exponent. -/
def nearestPattern (num den : Nat) : Nat :=
  let scaled := num * unit
  let shift := (scaled / den).log2 + 1 - 53
  shift * Nat.pow 2 52 + roundedQuotient scaled (den * Nat.pow 2 shift)

/-- The number nearest to a ratio, if its magnitude is in range. -/
def ofRatio? (negative : Bool) (num den : Nat) : Option Binary64 :=
  let magnitude := nearestPattern num den
  if h : magnitude < finiteBound then some ⟨negative, magnitude, h⟩ else none

/-- The numerator of the magnitude over `unit`. -/
def numerator (x : Binary64) : Nat := x.significand * Nat.pow 2 x.exponent

def mul? (x y : Binary64) : Option Binary64 :=
  ofRatio? (x.negative != y.negative) (x.numerator * y.numerator) (unit * unit)

def div? (x y : Binary64) : Option Binary64 :=
  ofRatio? (x.negative != y.negative) x.numerator y.numerator

example : (ofRatio? false 1 10).map (·.magnitude) = some 0x3FB999999999999A := by decide +kernel
example : ofRatio? false (Nat.pow 10 309) 1 = none := by decide +kernel
example : (ofRatio? true 1 (Nat.pow 10 400)) = some (zero true) := by decide +kernel

end Binary64

end Runbook.Number
