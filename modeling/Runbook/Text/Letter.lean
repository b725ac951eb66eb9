import Runbook.Text.Blank

set_option autoImplicit false
set_option relaxedAutoImplicit false

/-!
Letter case. Header names compare without regard to ASCII case; method names are raised to upper
case first, where a few letters outside ASCII have an upper case inside it.
-/

namespace Runbook.Text

/-- Texts that differ in nothing but the case of ASCII letters. -/
def sameIgnoringCase (s t : String) : Bool :=
  s.toList.map Char.toLower == t.toList.map Char.toLower

/-- The full upper case of a letter where it is ASCII; any other character is left alone. -/
def upperLetters (c : Char) : List Char :=
  match c.toNat with
  | 0xDF => ['S', 'S']
  | 0x131 => ['I']
  | 0x17F => ['S']
  | 0xFB00 => ['F', 'F']
  | 0xFB01 => ['F', 'I']
  | 0xFB02 => ['F', 'L']
  | 0xFB03 => ['F', 'F', 'I']
  | 0xFB04 => ['F', 'F', 'L']
  | 0xFB05 => ['S', 'T']
  | 0xFB06 => ['S', 'T']
  | _ => [c.toUpper]

/-- The upper case of a text, as far as it is ASCII. -/
def upper (cs : List Char) : List Char := cs.flatMap upperLetters

theorem sameIgnoringCase_refl (s : String) : sameIgnoringCase s s = true := by
  simp [sameIgnoringCase]

theorem sameIgnoringCase_comm (s t : String) : sameIgnoringCase s t = sameIgnoringCase t s := by
  rw [Bool.eq_iff_iff]
  simp only [sameIgnoringCase, beq_iff_eq]
  exact eq_comm

theorem sameIgnoringCase_trans {s t u : String} (hst : sameIgnoringCase s t = true)
    (htu : sameIgnoringCase t u = true) : sameIgnoringCase s u = true := by
  simp only [sameIgnoringCase, beq_iff_eq] at *
  exact hst.trans htu

end Runbook.Text
