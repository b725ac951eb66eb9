set_option autoImplicit false
set_option relaxedAutoImplicit false

/-!
Naturals written in decimal digits.
-/

namespace Runbook.Text

/-- The natural that a list of digits writes. -/
def decimal (ds : List Char) : Nat := ds.foldl (fun n c => 10 * n + (c.toNat - 48)) 0

theorem decimal_toDigits (n : Nat) : decimal (Nat.toDigits 10 n) = n := by
  have written := Nat.ofDigitChars_ten_toDigits (n := n)
  rwa [Nat.ofDigitChars_eq_foldl] at written

/-- The natural below a bound that a text of digits writes, after a plus sign or without one. -/
def natural? (bound : Nat) (cs : List Char) : Option Nat :=
  let ds := match cs with
    | '+' :: rest => rest
    | _ => cs
  if !ds.isEmpty && ds.all Char.isDigit && decimal ds < bound then some (decimal ds) else none

def bound16 : Nat := Nat.pow 2 16

def bound32 : Nat := Nat.pow 2 32

def bound64 : Nat := Nat.pow 2 64

example : natural? bound16 ['+', '0', '8', '0'] = some 80 := by decide
example : natural? bound16 ['6', '5', '5', '3', '6'] = none := by decide +kernel
example : natural? bound16 ['+'] = none := by decide

end Runbook.Text
