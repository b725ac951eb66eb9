set_option autoImplicit false
set_option relaxedAutoImplicit false

/-!
Hexadecimal digits.
-/

namespace Runbook.Text

/-- The value of a hexadecimal digit of either case. -/
def hexValue? (c : Char) : Option Nat :=
  let n := c.toNat
  if 48 ≤ n && n ≤ 57 then some (n - 48)
  else if 65 ≤ n && n ≤ 70 then some (n - 55)
  else if 97 ≤ n && n ≤ 102 then some (n - 87)
  else none

/-- A hexadecimal digit in lower case. -/
def lowerHex (n : Nat) : Char := Nat.digitChar n

def upperHex (n : Nat) : Char := (Nat.digitChar n).toUpper

/-- The last digits of a number in upper-case hexadecimal, as many as asked for. -/
def upperHexDigits : Nat → Nat → List Char
  | 0, _ => []
  | width + 1, n => upperHexDigits width (n / 16) ++ [upperHex (n % 16)]

theorem hexValue?_lowerHex {n : Nat} (h : n < 16) : hexValue? (lowerHex n) = some n := by
  have all : ∀ m < 16, hexValue? (lowerHex m) = some m := by decide
  exact all n h

theorem hexValue?_upperHex {n : Nat} (h : n < 16) : hexValue? (upperHex n) = some n := by
  have all : ∀ m < 16, hexValue? (upperHex m) = some m := by decide
  exact all n h

end Runbook.Text
