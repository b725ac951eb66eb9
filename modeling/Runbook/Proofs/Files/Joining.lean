import Mathlib.Data.List.Basic
import Runbook.Files.Tree
import Runbook.Proofs.Text.Split

set_option autoImplicit false
set_option relaxedAutoImplicit false

/-!
Paths taken from a directory. A plain name is a step of its own: taken from a directory, it follows
the steps of the directory.
-/

namespace Runbook.Files

/-- Whether a name is a step of its own that leads downward. -/
structure Plain (name : String) : Prop where
  nonempty : name ≠ ""
  noSlash : '/' ∉ name.toList
  goes : name ≠ "."
  descends : name ≠ ".."

instance (name : String) : Decidable (Plain name) :=
  decidable_of_iff (name ≠ "" ∧ '/' ∉ name.toList ∧ name ≠ "." ∧ name ≠ "..")
    ⟨fun ⟨h, i, j, k⟩ => ⟨h, i, j, k⟩, fun ⟨h, i, j, k⟩ => ⟨h, i, j, k⟩⟩

/-- Whether a path may be looked up at all. -/
structure Path.Acceptable (p : Path) : Prop where
  noNul : Char.ofNat 0 ∉ p.text.toList
  short : p.text.utf8ByteSize ≤ Tree.maxPathLength

namespace Path

variable {name : String}

theorem head?_ne_slash (h : Plain name) : (name.toList.head? == some '/') = false := by
  rw [beq_eq_false_iff_ne]
  intro slash
  exact h.noSlash (List.mem_of_mem_head? slash)

/-- A plain name follows the text of the directory, after a slash unless one is there. -/
theorem text_join (p : Path) (h : Plain name) :
    (p.join name).text = p.text ++ name ∧ p.text.toList.getLast?.all (· == '/') = true ∨
      (p.join name).text = p.text ++ "/" ++ name := by
  unfold join
  rw [head?_ne_slash h]
  by_cases ends : p.text.toList.getLast?.all (· == '/') = true
  · simp [ends]
  · simp [ends]

private theorem pieces_of_plain (h : Plain name) :
    ((Text.split '/' name.toList).filter (!·.isEmpty)).map String.ofList = [name] := by
  have nonempty : name.toList ≠ [] := by
    simpa using h.nonempty
  rw [Text.split_eq_singleton h.noSlash]
  simp [nonempty]

theorem allSteps_join (p : Path) (h : Plain name) :
    (p.join name).allSteps = p.allSteps ++ [name] := by
  unfold allSteps
  have pieces := pieces_of_plain h
  rcases text_join p h with ⟨text, ends⟩ | text
  · rw [text]
    rcases List.eq_nil_or_concat' p.text.toList with empty | ⟨front, last, ended⟩
    · have before : Text.split '/' [] = [[]] := rfl
      rw [String.toList_append, empty, List.nil_append, pieces, before]
      rfl
    · obtain rfl : last = '/' := by simpa [ended] using ends
      simp only [String.toList_append, ended, List.append_assoc, List.singleton_append,
        Text.split_append_cut, List.filter_append, List.map_append, pieces]
      simp [Text.split, Text.segments]
  · have parts : (p.text ++ "/" ++ name).toList = p.text.toList ++ '/' :: name.toList := by simp
    simp only [text, parts, Text.split_append_cut, List.filter_append, List.map_append, pieces]

theorem steps_join (p : Path) (h : Plain name) : (p.join name).steps = p.steps ++ [name] := by
  have kept : [name].filter (· != ".") = [name] := by
    simpa using h.goes
  unfold steps
  rw [allSteps_join p h, List.filter_append, kept]

theorem hasEndingSlash_join (p : Path) (h : Plain name) : (p.join name).hasEndingSlash = false := by
  have last : ∀ front : String, (front ++ name).toList.getLast? = name.toList.getLast? := by
    intro front
    have nonempty : name.toList ≠ [] := by
      simpa using h.nonempty
    rw [String.toList_append, List.getLast?_append_of_ne_nil _ nonempty]
  have kept : (name.toList.getLast? == some '/') = false := by
    rw [beq_eq_false_iff_ne]
    intro slash
    exact h.noSlash (List.mem_of_getLast? slash)
  unfold hasEndingSlash
  rcases text_join p h with ⟨text, -⟩ | text
  · rw [text, last, kept]
  · rw [text, last, kept]

/-- A directory may be looked up if something in it may. -/
theorem Acceptable.of_join {p : Path} (plain : Plain name) (h : (p.join name).Acceptable) :
    p.Acceptable := by
  obtain ⟨noNul, short⟩ := h
  rcases text_join p plain with ⟨text, -⟩ | text
  all_goals
    rw [text] at noNul short
    simp only [String.toList_append, List.mem_append, not_or] at noNul
    simp only [String.utf8ByteSize_append] at short
  · exact ⟨noNul.1, by omega⟩
  · exact ⟨noNul.1.1, by omega⟩

/-- A name may be looked up in a directory if a longer one may. -/
theorem Acceptable.join_shorter {p : Path} {other : String} (plain : Plain name)
    (plainOther : Plain other) (clean : Char.ofNat 0 ∉ other.toList)
    (shorter : other.utf8ByteSize < name.utf8ByteSize) (h : (p.join name).Acceptable) :
    (p.join other).Acceptable := by
  have slash : Char.ofNat 0 ∉ "/".toList := by decide
  have slashSize : "/".utf8ByteSize = 1 := by decide
  have above := (h.of_join plain).noNul
  have room : p.text.utf8ByteSize + name.utf8ByteSize ≤ Tree.maxPathLength := by
    have short := h.short
    rcases text_join p plain with ⟨text, -⟩ | text
    · rw [text, String.utf8ByteSize_append] at short
      exact short
    · rw [text, String.utf8ByteSize_append, String.utf8ByteSize_append] at short
      omega
  rcases text_join p plainOther with ⟨text, -⟩ | text
  · refine ⟨?_, ?_⟩
    · simp [text, above, clean]
    · rw [text, String.utf8ByteSize_append]
      omega
  · refine ⟨?_, ?_⟩
    · simp only [text, String.toList_append, List.mem_append, not_or]
      exact ⟨⟨above, slash⟩, clean⟩
    · rw [text, String.utf8ByteSize_append, String.utf8ByteSize_append]
      omega

end Path

namespace Tree

variable {t : Tree} {p : Path} {steps : List String} {l : Location}

theorem locateSteps_eq_ok :
    t.locateSteps p steps = .ok l ↔ p.Acceptable ∧ t.locateFrom [] steps = .ok l := by
  unfold locateSteps
  by_cases noNul : Char.ofNat 0 ∉ p.text.toList
  · by_cases short : p.text.utf8ByteSize ≤ maxPathLength
    · have accepted : p.Acceptable := ⟨noNul, short⟩
      simp [noNul, Nat.not_lt.mpr short, accepted]
    · have refused : ¬ p.Acceptable := fun h => short h.short
      simp [noNul, Nat.lt_of_not_le short, refused]
  · have refused : ¬ p.Acceptable := fun h => noNul h.noNul
    simp [not_not.mp noNul, refused]

end Tree

end Runbook.Files
