import Mathlib.Tactic.SplitIfs
import Runbook.Proofs.Text.Trimming
import Runbook.Text.Letter

set_option autoImplicit false
set_option relaxedAutoImplicit false

/-!
Small letters and capitals. To make the letters of a text small neither makes nor removes any other
character, so it does not matter whether that is done before or after the text is cut or trimmed. A
text becomes a word in capitals if and only if its small letters are those of the word.
-/

namespace Runbook.Text

variable {c d : Char}

/-- A small letter is a capital moved up by 32 places; every other character is its own. -/
theorem toNat_toLower (c : Char) :
    c.toLower.toNat = if 65 ≤ c.toNat ∧ c.toNat ≤ 90 then c.toNat + 32 else c.toNat := by
  have bounds : 'A'.val.toNat = 65 ∧ 'Z'.val.toNat = 90 ∧ ('a'.val - 'A'.val).toNat = 32 :=
    ⟨rfl, rfl, rfl⟩
  unfold Char.toLower
  simp only [ge_iff_le, UInt32.le_iff_toNat_le, bounds.1, bounds.2.1, Char.toNat_val]
  split
  · next capital =>
    show (c.val + ('a'.val - 'A'.val)).toNat = c.toNat + 32
    rw [UInt32.toNat_add, bounds.2.2, Char.toNat_val]
    exact Nat.mod_eq_of_lt (by omega)
  · rfl

/-- A capital is a small letter moved down by 32 places; every other character is its own. -/
theorem toNat_toUpper (c : Char) :
    c.toUpper.toNat = if 97 ≤ c.toNat ∧ c.toNat ≤ 122 then c.toNat - 32 else c.toNat := by
  have bounds : 'a'.val.toNat = 97 ∧ 'z'.val.toNat = 122 ∧
      ('A'.val - 'a'.val).toNat = 4294967264 := ⟨rfl, rfl, rfl⟩
  unfold Char.toUpper
  simp only [UInt32.le_iff_toNat_le, bounds.1, bounds.2.1, Char.toNat_val]
  split
  · next small =>
    show (c.val + ('A'.val - 'a'.val)).toNat = c.toNat - 32
    rw [UInt32.toNat_add, bounds.2.2, Char.toNat_val]
    omega
  · rfl

/-- A character is its own small letter, or it is a capital 32 places before it. -/
theorem toLower_cases (c : Char) :
    c.toLower = c ∨ 65 ≤ c.toNat ∧ c.toNat ≤ 90 ∧ c.toLower.toNat = c.toNat + 32 := by
  have code := toNat_toLower c
  split at code
  · next capital => exact .inr ⟨capital.1, capital.2, code⟩
  · exact .inl (Char.toNat_inj.mp code)

theorem isUpper_iff : c.isUpper = true ↔ 65 ≤ c.toNat ∧ c.toNat ≤ 90 := by
  show decide ('A'.val ≤ c.val ∧ c.val ≤ 'Z'.val) = true ↔ _
  rw [decide_eq_true_eq]
  rfl

theorem isLower_iff : c.isLower = true ↔ 97 ≤ c.toNat ∧ c.toNat ≤ 122 := by
  show (decide ('a'.val ≤ c.val) && decide (c.val ≤ 'z'.val)) = true ↔ _
  rw [Bool.and_eq_true, decide_eq_true_eq, decide_eq_true_eq]
  rfl

theorem isAlpha_iff : c.isAlpha = true ↔
    65 ≤ c.toNat ∧ c.toNat ≤ 90 ∨ 97 ≤ c.toNat ∧ c.toNat ≤ 122 := by
  show (c.isUpper || c.isLower) = true ↔ _
  rw [Bool.or_eq_true, isUpper_iff, isLower_iff]

theorem toLower_eq_iff (other : d.isAlpha = false) : c.toLower = d ↔ c = d := by
  have beyond := mt isAlpha_iff.mpr (Bool.eq_false_iff.mp other)
  rcases toLower_cases c with same | ⟨low, high, small⟩
  · rw [same]
  · constructor
    · rintro rfl
      omega
    · rintro rfl
      omega

/-- The characters with a certain capital are those with its small letter. -/
theorem toUpper_eq_iff (capital : d.isUpper = true) : c.toUpper = d ↔ c.toLower = d.toLower := by
  rw [← Char.toNat_inj, ← Char.toNat_inj, toNat_toUpper, toNat_toLower, toNat_toLower,
    if_pos (isUpper_iff.mp capital)]
  have range := isUpper_iff.mp capital
  split_ifs <;> omega

/-- Only an ASCII letter has the small letter of a capital. -/
theorem isAlpha_of_toLower_eq (capital : d.isUpper = true) (same : c.toLower = d.toLower) :
    c.isAlpha = true := by
  have range := isUpper_iff.mp capital
  have code := congrArg Char.toNat same
  rw [toNat_toLower, toNat_toLower, if_pos range] at code
  rw [isAlpha_iff]
  split_ifs at code <;> omega

theorem map_toUpper_eq_iff {cs ds : List Char} (capitals : ∀ d ∈ ds, d.isUpper = true) :
    cs.map Char.toUpper = ds ↔ cs.map Char.toLower = ds.map Char.toLower := by
  induction ds generalizing cs with
  | nil => rw [List.map_nil, List.map_eq_nil_iff, List.map_eq_nil_iff]
  | cons d ds ih =>
    obtain ⟨capital, capitals⟩ := List.forall_mem_cons.mp capitals
    cases cs with
    | nil => exact iff_of_false nofun nofun
    | cons c cs =>
      simp only [List.map_cons, List.cons.injEq, toUpper_eq_iff capital, ih capitals]

theorem isBlank_toLower (c : Char) : isBlank c.toLower = isBlank c := by
  rcases toLower_cases c with same | ⟨low, high, small⟩
  · rw [same]
  · rw [Bool.eq_iff_iff]
    simp only [isBlank, Bool.or_eq_true, Bool.and_eq_true, decide_eq_true_eq, beq_iff_eq]
    omega

theorem trimBlanks_map_toLower (cs : List Char) :
    trimBlanks (cs.map Char.toLower) = (trimBlanks cs).map Char.toLower := by
  have same : isBlank ∘ Char.toLower = isBlank := funext isBlank_toLower
  simp only [trimBlanks, List.dropWhile_map, ← List.map_reverse, same]

/-- What stands before a character that is no letter is the same in small letters. -/
theorem takeWhile_map_toLower (other : d.isAlpha = false) (cs : List Char) :
    (cs.map Char.toLower).takeWhile (· != d) = (cs.takeWhile (· != d)).map Char.toLower := by
  have same : (· != d) ∘ Char.toLower = (· != d) := by
    funext c
    rw [Function.comp_apply, Bool.eq_iff_iff, bne_iff_ne, bne_iff_ne, Ne, toLower_eq_iff other]
  rw [List.takeWhile_map, same]

theorem sameIgnoringCase_iff {s t : String} :
    sameIgnoringCase s t = true ↔ s.toList.map Char.toLower = t.toList.map Char.toLower := by
  rw [sameIgnoringCase, beq_iff_eq]

/-- Two names that differ in case only are the same name or not alike. -/
theorem sameIgnoringCase_congr {s t : String} (h : sameIgnoringCase s t = true) (name : String) :
    sameIgnoringCase s name = sameIgnoringCase t name := by
  rw [sameIgnoringCase, sameIgnoringCase, sameIgnoringCase_iff.mp h]

end Runbook.Text
