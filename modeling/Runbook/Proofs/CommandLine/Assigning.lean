import Runbook.CommandLine.Assignment
import Runbook.Proofs.Text.Split
import Runbook.Proofs.Yaml.Reading

set_option autoImplicit false
set_option relaxedAutoImplicit false

/-!
What a variable is set to by an argument. The value that is given is trimmed and read as YAML, in
which comments, anchors, quotes, markers, directives before other lines and tags that are not the
application's own are no part of a text; nothing else of it is lost, and no other text is read as
null.
-/

namespace Runbook.CommandLine

open Runbook.Text (trimBlanks trimmed_trimBlanks exists_trimBlanks)
open Runbook.Yaml (beginsApart beginsMarked LeavesOut isNull isNotFinite spellsNull)

variable {name value : List Char}

/-- What a text that is not blank is read as: YAML, or the text as it stands. -/
private theorem assignedValue_eq (given : trimBlanks value ≠ []) :
    assignedValue (String.ofList value) =
      (Yaml.read? (String.ofList (trimBlanks value))).getD (.str (String.ofList value)) := by
  have some_ink : Text.isAllBlank (String.ofList value) = false := by
    by_contra blank
    simp only [Text.isAllBlank, String.toList_ofList, Bool.not_eq_false, List.all_eq_true] at blank
    have nothing : trimBlanks (value ++ [] ++ []) = [] :=
      Text.trimBlanks_append blank (by simp) ⟨by simp, by simp⟩
    rw [List.append_nil, List.append_nil] at nothing
    exact given nothing
  rw [assignedValue, some_ink, Text.trim, String.toList_ofList]
  rfl

/-- A text is not shorter than its trimmed middle. -/
private theorem eq_of_prefix_trimBlanks (h : value <+: trimBlanks value) :
    value = trimBlanks value := by
  obtain ⟨lead, trail, whole, -, -⟩ := exists_trimBlanks value
  have sizes := congrArg List.length whole
  simp only [List.length_append] at sizes
  exact h.eq_of_length (by have := h.length_le; omega)

/-- A variable that is given a value is set, and the value is null or shortened only where YAML sets
a part of the text apart. -/
theorem assignment_keeps_text (unmarked : '=' ∉ name) (named : trimBlanks name ≠ [])
    (given : trimBlanks value ≠ []) (not_null : isNull (String.ofList (trimBlanks value)) = false)
    (finite : isNotFinite (String.ofList (trimBlanks value)) = false) :
    ∃ v, assignment? (String.ofList (name ++ '=' :: value)) =
        some (String.ofList (trimBlanks name), v) ∧
      (v = .null → beginsApart (trimBlanks value) = true ∨
        ∃ source, spellsNull (String.ofList source) = true ∧
          LeavesOut source (trimBlanks value)) ∧
      ∀ s, v = .str s → s.toList <+: trimBlanks value → s.toList ≠ trimBlanks value →
        beginsApart (trimBlanks value) = true ∨ beginsMarked (trimBlanks value) = true ∨
          LeavesOut s.toList (trimBlanks value) := by
  have assigned : assignment? (String.ofList (name ++ '=' :: value)) =
      some (String.ofList (trimBlanks name), assignedValue (String.ofList value)) := by
    rw [assignment?, String.toList_ofList, Text.splitOnce?_append unmarked]
    simp [named]
  refine ⟨_, assigned, ?_⟩
  rw [assignedValue_eq given]
  by_cases whole : beginsApart (trimBlanks value) = true
  · exact ⟨fun _ => .inl whole, fun _ _ _ _ => .inl whole⟩
  rw [Bool.not_eq_true] at whole
  cases read : Yaml.read? (String.ofList (trimBlanks value)) with
  | none =>
    refine ⟨nofun, fun s same shorter differs => ?_⟩
    obtain rfl := Value.str.inj same
    rw [String.toList_ofList] at shorter differs
    exact absurd (eq_of_prefix_trimBlanks shorter) differs
  | some v =>
    rw [Option.getD_some]
    rcases Yaml.read?_cases given (trimmed_trimBlanks value) whole read with
      collection | ⟨marked, s, rfl⟩ | ⟨source, text, begins, folds, some_text, leaves, meaning⟩
    · constructor
      · rintro rfl
        cases collection
      · rintro s rfl
        cases collection
    · exact ⟨nofun, fun _ _ _ _ => .inr (.inl marked)⟩
    · constructor
      · rintro rfl
        have spelled := Yaml.spellsNull_of_value? (by simpa using some_text) meaning
        have ink := Yaml.ink_of_spellsNull spelled
        rw [String.toList_ofList] at ink
        obtain rfl : source = text := folds.eq_of_ink ink
        rcases leaves with rfl | leaves
        · simp [spellsNull, not_null, finite] at spelled
        · exact .inr ⟨source, spelled, leaves⟩
      · rintro s rfl shorter differs
        obtain rfl := Yaml.eq_of_value? meaning
        rw [String.toList_ofList] at shorter differs ⊢
        obtain rfl := folds.eq_of_prefix begins shorter
        rcases leaves with same | leaves
        · exact absurd same differs
        · exact .inr (.inr leaves)

private def secretName : List Char := " token".toList

private def secret : List Char := " s3cret#42:x ".toList

/-- A text without white space leaves nothing out. -/
private theorem not_leavesOut {source cs : List Char} (dense : cs.all (!Yaml.isWhite ·) = true) :
    ¬ LeavesOut source cs := by
  rintro ⟨gap, rest, rfl, some_gap, white, -⟩
  obtain ⟨c, member⟩ := List.exists_mem_of_ne_nil gap some_gap
  have ink := List.all_eq_true.mp dense c (by simp [member])
  rw [white c member] at ink
  cases ink

/-- A mark of a comment or of a key that no white space makes one is part of the text. -/
theorem assignment_keeps_text_sample :
    ('=' ∉ secretName ∧ trimBlanks secretName ≠ [] ∧ trimBlanks secret ≠ [] ∧
      isNull (String.ofList (trimBlanks secret)) = false ∧
      isNotFinite (String.ofList (trimBlanks secret)) = false) ∧
    ∃ v, assignment? (String.ofList (secretName ++ '=' :: secret)) = some ("token", v) ∧
      v ≠ .null ∧ (∀ s, v = .str s → s.toList <+: trimBlanks secret → s = "s3cret#42:x") ∧
      v = .str "s3cret#42:x" := by
  have unmarked : '=' ∉ secretName := by decide
  have named : trimBlanks secretName ≠ [] := by decide
  have given : trimBlanks secret ≠ [] := by decide
  have not_null : isNull (String.ofList (trimBlanks secret)) = false := by decide
  have finite : isNotFinite (String.ofList (trimBlanks secret)) = false := by decide
  obtain ⟨v, assigned, nulled, shortened⟩ :=
    assignment_keeps_text unmarked named given not_null finite
  have whole : beginsApart (trimBlanks secret) = false := by decide
  have unquoted : beginsMarked (trimBlanks secret) = false := by decide
  have dense : (trimBlanks secret).all (!Yaml.isWhite ·) = true := by decide
  refine ⟨⟨unmarked, named, given, not_null, finite⟩, v, assigned, ?_, ?_, ?_⟩
  · intro nothing
    rcases nulled nothing with apart | ⟨source, -, leaves⟩
    · rw [whole] at apart
      cases apart
    · exact not_leavesOut dense leaves
  · intro s same shorter
    by_contra differs
    have differs' : s.toList ≠ trimBlanks secret := fun is =>
      differs (String.toList_inj.mp (is.trans (by decide)))
    rcases shortened s same shorter differs' with apart | marked | leaves
    · rw [whole] at apart
      cases apart
    · rw [unquoted] at marked
      cases marked
    · exact not_leavesOut dense leaves
  · have read : assignment? (String.ofList (secretName ++ '=' :: secret)) =
        some ("token", .str "s3cret#42:x") := by decide +kernel
    exact (Prod.mk.inj (Option.some.inj (assigned.symm.trans read))).2

/-- A color that is null, and other texts that are null or shortened, one for each way in which a
text can be. -/
theorem assignment_loses_text :
    ('=' ∉ "color".toList ∧ trimBlanks "color".toList ≠ [] ∧ trimBlanks "#fff".toList ≠ [] ∧
      isNull "#fff" = false ∧ isNotFinite "#fff" = false ∧
      assignment? "color=#fff" = some ("color", .null)) ∧
    (∀ text ∈ ["!!null ~", "! ~", "!<tag:yaml.org,2002:null> ~", "&a", "%YAML 1.2\n---", "\uFEFF#",
      "---", "null #", "~\n..."], assignment? ("v=" ++ text) = some ("v", .null)) ∧
    (∀ text ∈ ["\"\"", "''", "|", ">", "!!str"],
      assignment? ("v=" ++ text) = some ("v", .str "")) ∧
    ∀ text ∈ ["pass #word", "pass\n..."], assignment? ("v=" ++ text) = some ("v", .str "pass") := by
  decide +kernel

end Runbook.CommandLine
