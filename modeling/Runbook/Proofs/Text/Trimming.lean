import Runbook.Text.Blank
import Runbook.Text.Natural

set_option autoImplicit false
set_option relaxedAutoImplicit false

/-!
Trimmed texts. A text is its trimmed middle between two runs of white space, and the middle is the
only one that neither begins nor ends with white space; so a natural is read from a text if and only
if the text writes one, with white space around it and perhaps with a sign.
-/

namespace Runbook.Text

variable {cs lead middle trail : List Char} {bound n : Nat}

/-- Whether a text neither begins nor ends with white space. -/
structure Trimmed (cs : List Char) : Prop where
  first : ∀ c, cs.head? = some c → isBlank c = false
  last : ∀ c, cs.getLast? = some c → isBlank c = false

private theorem dropWhile_blank (h : ∀ c ∈ lead, isBlank c = true)
    (begins : ∀ c, cs.head? = some c → isBlank c = false) :
    (lead ++ cs).dropWhile isBlank = cs := by
  rw [List.dropWhile_append_of_pos h]
  cases cs with
  | nil => rfl
  | cons c rest => exact List.dropWhile_cons_of_neg (by simp [begins c rfl])

/-- What is taken from the front of a text stops before the first other character. -/
theorem head?_dropWhile {p : Char → Bool} {c : Char} (h : (cs.dropWhile p).head? = some c) :
    p c = false := by
  have met := List.head?_dropWhile_not p cs
  rwa [h] at met

/-- What is taken from the end of a text is behind what is left of it. -/
theorem exists_dropWhile_reverse (p : Char → Bool) (cs : List Char) :
    ∃ trail, cs = (cs.reverse.dropWhile p).reverse ++ trail ∧ ∀ c ∈ trail, p c = true := by
  refine ⟨(cs.reverse.takeWhile p).reverse, ?_, ?_⟩
  · rw [← List.reverse_append, List.takeWhile_append_dropWhile, List.reverse_reverse]
  · intro c member
    exact List.all_eq_true.mp List.all_takeWhile c (List.mem_reverse.mp member)

/-- A text is its trimmed middle with white space around it. -/
theorem exists_trimBlanks (cs : List Char) : ∃ lead trail, cs = lead ++ trimBlanks cs ++ trail ∧
    (∀ c ∈ lead, isBlank c = true) ∧ ∀ c ∈ trail, isBlank c = true := by
  obtain ⟨trail, rest, blank⟩ := exists_dropWhile_reverse isBlank (cs.dropWhile isBlank)
  refine ⟨cs.takeWhile isBlank, trail, ?_, ?_, blank⟩
  · rw [List.append_assoc, trimBlanks, ← rest, List.takeWhile_append_dropWhile]
  · exact fun c member => List.all_eq_true.mp List.all_takeWhile c member

/-- Trimming takes nothing but white space from a text. -/
theorem mem_trimBlanks {c : Char} (ink : isBlank c = false) : c ∈ trimBlanks cs ↔ c ∈ cs := by
  obtain ⟨lead, trail, whole, before, behind⟩ := exists_trimBlanks cs
  constructor
  · intro kept
    rw [whole]
    exact List.mem_append_left _ (List.mem_append_right _ kept)
  · intro member
    rw [whole, List.mem_append, List.mem_append] at member
    rcases member with (front | kept) | back
    · exact absurd (before c front) (by simp [ink])
    · exact kept
    · exact absurd (behind c back) (by simp [ink])

theorem trimmed_trimBlanks (cs : List Char) : Trimmed (trimBlanks cs) := by
  constructor
  · intro c begins
    obtain ⟨trail, rest, -⟩ := exists_dropWhile_reverse isBlank (cs.dropWhile isBlank)
    have kept : (cs.dropWhile isBlank).head? = some c := by
      rw [trimBlanks] at begins
      rw [rest, List.head?_append, begins, Option.some_or]
    exact head?_dropWhile kept
  · intro c ends
    unfold trimBlanks at ends
    rw [List.getLast?_reverse] at ends
    exact head?_dropWhile ends

/-- Nothing else than the trimmed middle is left of a text. -/
theorem trimBlanks_append (before : ∀ c ∈ lead, isBlank c = true)
    (behind : ∀ c ∈ trail, isBlank c = true) (trimmed : Trimmed middle) :
    trimBlanks (lead ++ middle ++ trail) = middle := by
  have behind' : ∀ c ∈ trail.reverse, isBlank c = true := fun c member =>
    behind c (List.mem_reverse.mp member)
  unfold trimBlanks
  rw [List.append_assoc, List.dropWhile_append_of_pos before]
  cases middle with
  | nil =>
    have nothing : (trail ++ []).dropWhile isBlank = [] := dropWhile_blank behind (by simp)
    rw [List.append_nil] at nothing
    rw [List.nil_append, nothing]
    rfl
  | cons c rest =>
    have stays : ((c :: rest) ++ trail).dropWhile isBlank = (c :: rest) ++ trail :=
      List.dropWhile_cons_of_neg (by simp [trimmed.first c rfl])
    have ends : ∀ d, (c :: rest).reverse.head? = some d → isBlank d = false := by
      intro d hd
      rw [List.head?_reverse] at hd
      exact trimmed.last d hd
    rw [stays, List.reverse_append, dropWhile_blank behind' ends, List.reverse_reverse]

/-- Whether a text writes a natural below a bound in decimal digits, perhaps with a plus sign before
them and with white space around. -/
def Writes (bound : Nat) (cs : List Char) (n : Nat) : Prop :=
  ∃ lead sign digits trail, cs = lead ++ (sign ++ digits) ++ trail ∧
    (∀ c ∈ lead, isBlank c = true) ∧ (∀ c ∈ trail, isBlank c = true) ∧
    (sign = [] ∨ sign = ['+']) ∧ digits ≠ [] ∧ (∀ c ∈ digits, c.isDigit = true) ∧
    decimal digits = n ∧ n < bound

private theorem isBlank_of_isDigit {c : Char} (h : c.isDigit = true) : isBlank c = false := by
  simp only [Char.isDigit, Bool.and_eq_true, decide_eq_true_eq, UInt32.le_iff_toNat_le,
    ge_iff_le] at h
  have code : c.toNat = c.val.toNat := rfl
  have digits : '0'.val.toNat = 48 ∧ '9'.val.toNat = 57 := ⟨rfl, rfl⟩
  simp only [isBlank, Bool.or_eq_false_iff, Bool.and_eq_false_iff, beq_eq_false_iff_ne,
    decide_eq_false_iff_not]
  omega

theorem natural?_eq_some : natural? bound cs = some n ↔ ∃ sign digits, cs = sign ++ digits ∧
    (sign = [] ∨ sign = ['+']) ∧ digits ≠ [] ∧ (∀ c ∈ digits, c.isDigit = true) ∧
    decimal digits = n ∧ n < bound := by
  have read : ∀ digits : List Char,
      (if !digits.isEmpty && digits.all Char.isDigit && decimal digits < bound then
        some (decimal digits) else none) = some n ↔
      digits ≠ [] ∧ (∀ c ∈ digits, c.isDigit = true) ∧ decimal digits = n ∧ n < bound := by
    intro digits
    rw [Option.ite_none_right_eq_some]
    simp only [Bool.and_eq_true, decide_eq_true_eq, List.all_eq_true, Bool.not_eq_true',
      List.isEmpty_eq_false_iff, Option.some.injEq]
    constructor
    · rintro ⟨⟨⟨some, all⟩, below⟩, rfl⟩
      exact ⟨some, all, rfl, below⟩
    · rintro ⟨some, all, rfl, below⟩
      exact ⟨⟨⟨some, all⟩, below⟩, rfl⟩
  constructor
  · intro h
    unfold natural? at h
    split at h
    · next rest => exact ⟨['+'], rest, rfl, .inr rfl, (read rest).mp h⟩
    · exact ⟨[], cs, rfl, .inl rfl, (read cs).mp h⟩
  · rintro ⟨sign, digits, rfl, rfl | rfl, some, all, written⟩
    · have unsigned : ∀ rest, digits ≠ '+' :: rest := by
        rintro rest rfl
        have plus := all '+' List.mem_cons_self
        cases plus
      unfold natural?
      split
      · next rest same => exact absurd same (unsigned rest)
      · exact (read digits).mpr ⟨some, all, written⟩
    · exact (read digits).mpr ⟨some, all, written⟩

theorem natural?_trimBlanks : natural? bound (trimBlanks cs) = some n ↔ Writes bound cs n := by
  rw [natural?_eq_some]
  constructor
  · rintro ⟨sign, digits, written, rest⟩
    obtain ⟨lead, trail, whole, before, behind⟩ := exists_trimBlanks cs
    exact ⟨lead, sign, digits, trail, by rw [← written]; exact whole, before, behind, rest⟩
  · rintro ⟨lead, sign, digits, trail, rfl, before, behind, signed, some, all, rest⟩
    have last : ∀ c, (sign ++ digits).getLast? = .some c → isBlank c = false := by
      intro c ends
      have within : c ∈ digits := by
        rw [List.getLast?_append, Option.or_of_isSome (by simpa using some)] at ends
        exact List.mem_of_getLast? ends
      exact isBlank_of_isDigit (all c within)
    have first : ∀ c, (sign ++ digits).head? = .some c → isBlank c = false := by
      intro c begins
      rcases signed with rfl | rfl
      · exact isBlank_of_isDigit (all c (List.mem_of_mem_head? begins))
      · obtain rfl : '+' = c := by simpa using begins
        decide
    exact ⟨sign, digits, trimBlanks_append before behind ⟨first, last⟩, signed, some, all, rest⟩

end Runbook.Text
