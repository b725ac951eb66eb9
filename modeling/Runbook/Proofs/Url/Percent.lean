import Runbook.Proofs.Text.Utf8
import Runbook.Url.Percent

set_option autoImplicit false
set_option relaxedAutoImplicit false

/-!
Percent-encoding is read back. An octet is written in three characters, a percent sign and two
digits, and decoded to itself whatever comes after it; an ASCII character other than the percent
sign stands for itself.
-/

namespace Runbook.Url

open Runbook.Text (Bytes)

private theorem octet_upperHex {n : Nat} (h : n < 16) : ∃ b : UInt8,
    String.utf8EncodeChar (Text.upperHex n) = [b] ∧ hexOctet? b = some n := by
  have ascii : ∀ m < 16, String.utf8EncodeChar (Text.upperHex m) =
      [UInt8.ofNat (Text.upperHex m).toNat] ∧
        Char.ofNat (UInt8.ofNat (Text.upperHex m).toNat).toNat = Text.upperHex m := by
    decide
  obtain ⟨one, back⟩ := ascii n h
  refine ⟨_, one, ?_⟩
  rw [hexOctet?, back, Text.hexValue?_upperHex h]

theorem percentDecode_percent (b : UInt8) (rest : Bytes) :
    percentDecode ((percent b).flatMap String.utf8EncodeChar ++ rest) = b :: percentDecode rest := by
  have bound : b.toNat < 256 := b.toNat_lt_size
  obtain ⟨high, one, highValue⟩ := octet_upperHex (n := b.toNat / 16) (by omega)
  obtain ⟨low, other, lowValue⟩ := octet_upperHex (n := b.toNat % 16) (by omega)
  have sign : String.utf8EncodeChar '%' = [0x25] := by decide
  have octets : (percent b).flatMap String.utf8EncodeChar = [0x25, high, low] := by
    simp [percent, sign, one, other]
  have value : UInt8.ofNat (16 * (b.toNat / 16) + b.toNat % 16) = b := by
    rw [Nat.div_add_mod, UInt8.ofNat_toNat]
  rw [octets, List.cons_append, List.cons_append, List.singleton_append, percentDecode,
    if_pos (by decide), highValue, lowValue]
  dsimp only
  rw [value]

theorem percentDecode_flatMap_percent (bytes rest : Bytes) :
    percentDecode ((bytes.flatMap percent).flatMap String.utf8EncodeChar ++ rest) =
      bytes ++ percentDecode rest := by
  induction bytes with
  | nil => rfl
  | cons b bytes ih =>
    rw [List.flatMap_cons, List.flatMap_append, List.append_assoc, percentDecode_percent, ih,
      List.cons_append]

private theorem percentDecode_cons {b : UInt8} (h : (b.toNat == 0x25) = false) (rest : Bytes) :
    percentDecode (b :: rest) = b :: percentDecode rest := by
  match rest with
  | [] => simp [percentDecode, h]
  | [_] => simp [percentDecode, h]
  | _ :: _ :: _ => rw [percentDecode, if_neg (by simp [h])]

theorem percentDecode_ascii {c : Char} (ascii : c.toNat < 0x80) (other : c ≠ '%') (rest : Bytes) :
    percentDecode (String.utf8EncodeChar c ++ rest) =
      String.utf8EncodeChar c ++ percentDecode rest := by
  have value : (UInt8.ofNat c.toNat).toNat = c.toNat := by
    rw [UInt8.toNat_ofNat']
    omega
  have ordinary : ((UInt8.ofNat c.toNat).toNat == 0x25) = false := by
    rw [value, beq_eq_false_iff_ne]
    intro sign
    exact other (Char.ext (UInt32.toNat_inj.mp sign))
  rw [Text.utf8EncodeChar_ascii ascii, List.singleton_append, percentDecode_cons ordinary,
    List.singleton_append]

theorem percentDecode_digits {ds : List Char} (h : ∀ c ∈ ds, c.isDigit = true) :
    percentDecode (ds.flatMap String.utf8EncodeChar) = ds.flatMap String.utf8EncodeChar := by
  induction ds with
  | nil => rfl
  | cons c ds ih =>
    have rest := ih fun other member => h other (List.mem_cons_of_mem c member)
    have digit := h c List.mem_cons_self
    have ascii : c.toNat < 0x80 := by
      simp only [Char.isDigit, Bool.and_eq_true, decide_eq_true_eq, UInt32.le_iff_toNat_le] at digit
      exact Nat.lt_of_le_of_lt digit.2 (by decide)
    have other : c ≠ '%' := by
      rintro rfl
      cases digit
    rw [List.flatMap_cons, percentDecode_ascii ascii other, rest]

theorem toNat_of_isAlphanum {c : Char} (h : c.isAlphanum = true) : 48 ≤ c.toNat ∧ c.toNat ≤ 122 := by
  have alpha : c.isAlpha = (c.isUpper || c.isLower) := rfl
  have upper : c.isUpper = decide ('A'.val ≤ c.val ∧ c.val ≤ 'Z'.val) := rfl
  have lower : c.isLower = (decide ('a'.val ≤ c.val) && decide (c.val ≤ 'z'.val)) := rfl
  simp only [Char.isAlphanum, alpha, upper, lower, Char.isDigit, Bool.or_eq_true,
    Bool.and_eq_true, decide_eq_true_eq, UInt32.le_iff_toNat_le, ge_iff_le] at h
  have code : c.toNat = c.val.toNat := rfl
  have capitals : 'A'.val.toNat = 65 ∧ 'Z'.val.toNat = 90 := ⟨rfl, rfl⟩
  have letters : 'a'.val.toNat = 97 ∧ 'z'.val.toNat = 122 := ⟨rfl, rfl⟩
  have digits : '0'.val.toNat = 48 ∧ '9'.val.toNat = 57 := ⟨rfl, rfl⟩
  omega

/-- An octet is written with a percent sign, letters and digits. -/
theorem mem_percent {b : UInt8} {c : Char} (h : c ∈ percent b) :
    c = '%' ∨ c.isAlphanum = true := by
  have digits : ∀ n < 16, (Text.upperHex n).isAlphanum = true := by decide
  have bound : b.toNat < 256 := b.toNat_lt_size
  simp only [percent, List.mem_cons, List.not_mem_nil, or_false] at h
  rcases h with rfl | rfl | rfl
  · exact .inl rfl
  · exact .inr (digits _ (by omega))
  · exact .inr (digits _ (by omega))

/-- No octet is written with a character that ends a segment or a path. -/
theorem ne_of_mem_percent {b : UInt8} {c : Char} (h : c ∈ percent b) :
    c ≠ '/' ∧ c ≠ '?' ∧ c ≠ '#' := by
  rcases mem_percent h with rfl | alphanumeric
  · decide
  · refine ⟨?_, ?_, ?_⟩ <;>
      · rintro rfl
        cases alphanumeric

end Runbook.Url
