import Runbook.Proofs.Session.Identifiers

set_option autoImplicit false
set_option relaxedAutoImplicit false

/-!
The directories of records. Whatever an action is called, the name of its directory is made of safe
characters and lies directly in the directory of all records; it gives back the number, by which two
directories are told apart, and the safe name of the action.
-/

namespace Runbook

open Runbook.Files

namespace Recorded

/-- Whether a character is an ASCII letter, a digit, an underscore or a dash. -/
def IsSafe (c : Char) : Prop := c.isAlphanum = true ∨ c = '_' ∨ c = '-'

theorem safeChar_eq_self {c : Char} (h : IsSafe c) : safeChar c = c := by
  have safe : (c.isAlphanum || c == '_' || c == '-') = true := by
    simpa [IsSafe, or_assoc] using h
  rw [safeChar, if_pos safe]

theorem isSafe_safeChar (c : Char) : IsSafe (safeChar c) := by
  by_cases safe : IsSafe c
  · rwa [safeChar_eq_self safe]
  · have unsafe_ : ¬ (c.isAlphanum || c == '_' || c == '-') = true := by
      simpa [IsSafe, or_assoc] using safe
    rw [safeChar, if_neg unsafe_]
    exact .inr (.inr rfl)

theorem isSafe_of_isDigit {c : Char} (h : c.isDigit = true) : IsSafe c := by
  left
  rw [Char.isAlphanum, h, Bool.or_true]

theorem isSafe_of_mem_safeName {action : String} {c : Char} (h : c ∈ (safeName action).toList) :
    IsSafe c := by
  rw [safeName, String.toList_ofList] at h
  obtain ⟨d, -, rfl⟩ := List.mem_map.mp h
  exact isSafe_safeChar d

theorem isSafe_of_mem_directoryName {n : Nat} {action : String} {c : Char}
    (h : c ∈ (directoryName n action).toList) : IsSafe c := by
  rw [toList_directoryName] at h
  rcases List.mem_append.mp h with digit | rest
  · exact isSafe_of_isDigit (isDigit_of_mem_toDigits digit)
  · rcases List.mem_cons.mp rest with rfl | safe
    · exact .inr (.inr rfl)
    · exact isSafe_of_mem_safeName safe

/-- A safe name is left as it is. -/
theorem safeName_safeName (action : String) : safeName (safeName action) = safeName action := by
  have kept : (safeName action).toList.map safeChar = (safeName action).toList :=
    calc (safeName action).toList.map safeChar
        = (safeName action).toList.map id :=
          List.map_congr_left fun _ member => safeChar_eq_self (isSafe_of_mem_safeName member)
      _ = (safeName action).toList := List.map_id _
  apply String.toList_injective
  rw [safeName, kept, String.toList_ofList]

/-- Two names of directories are the same if and only if their parts are. -/
theorem directoryName_inj {n m : Nat} {action other : String} :
    directoryName n action = directoryName m other ↔
      n = m ∧ safeName action = safeName other := by
  constructor
  · intro same
    obtain ⟨digits, rest⟩ := (numbered_directoryName n action).cut
    obtain ⟨digits', rest'⟩ := (numbered_directoryName m other).cut
    rw [same, digits'] at digits
    rw [same, rest'] at rest
    constructor
    · rw [← Text.decimal_toDigits n, ← digits, Text.decimal_toDigits]
    · exact String.toList_injective (List.cons.inj rest).2.symm
  · rintro ⟨rfl, safe⟩
    rw [directoryName, safe, directoryName]

end Recorded

namespace Files

/-- Whether a path leads directly below another one, under a name and in every tree. -/
structure Path.IsChild (child dir : Path) (name : String) : Prop where
  steps : child.steps = dir.steps ++ [name]
  located : ∀ (t : Tree) (l : Location), t.locate child = .ok l →
    ∃ here, t.locate dir = .ok here ∧ l = here ++ [name]

theorem Path.isChild_join {name : String} (plain : Plain name) (dir : Path) :
    (dir.join name).IsChild dir name where
  steps := steps_join dir plain
  located t l h := by
    obtain ⟨-, -, -, -, placed⟩ := (Tree.locate_join_eq_ok plain).mp h
    exact ⟨_, Tree.locate_of_locate_join plain h, placed⟩

end Files

open Recorded

/-- The record of a request that is done has a number of 32 bits and is in a directory of its own,
directly in the one for all records. -/
theorem Session.recorded_of_perform {σ : Type} {transport : Transport σ} {s s' : Session}
    {ref : ActionRef} {o : BuildOptions} {b b' : Bench σ} {e : Executed} {dir : Path}
    (place : s.directory = some dir) (done : s.perform transport ref o b = (.ok e, s', b')) :
    e.identifier < Text.bound32 ∧ ∃ child, e.dumpDirectory = some child ∧
      child.IsChild (dir.join "requests") (directoryName e.identifier e.actionName) := by
  obtain ⟨p, -, r, -, prepared, -, -, -, rfl, -⟩ := perform_eq_ok done
  obtain ⟨-, below, directory⟩ := record_of_prepare place prepared
  exact ⟨below, _, directory, Path.isChild_join (plain_directoryName _ _) _⟩

/-- The name of the directory of a record holds safe characters only, whatever the name of the
action is, and so leads directly below the directory it is in; it is read as the number and the safe
name of the action; names with different numbers differ; and a safe name is left as it is. Any name
is read as a number if and only if it begins with digits, and all those at its front write a number
of 32 bits. -/
theorem directory_names_decode {n : Nat} (h : n < Text.bound32) (action : String) :
    (∀ c ∈ (directoryName n action).toList, IsSafe c) ∧
    (∀ dir : Path, (dir.join (directoryName n action)).IsChild dir (directoryName n action)) ∧
    (∀ {σ : Type} {transport : Transport σ} {s s' : Session} {ref : ActionRef} {o : BuildOptions}
      {b b' : Bench σ} {e : Executed} {dir : Path}, s.directory = some dir →
      s.perform transport ref o b = (.ok e, s', b') →
      e.identifier < Text.bound32 ∧ ∃ child, e.dumpDirectory = some child ∧
        child.IsChild (dir.join "requests") (directoryName e.identifier e.actionName)) ∧
    parseName? (directoryName n action) = some (n, safeName action) ∧
    (∀ (m : Nat) (other : String), m ≠ n → directoryName m other ≠ directoryName n action) ∧
    safeName (safeName action) = safeName action ∧
    ∀ (name : String) (m : Nat), (∃ rest, parseName? name = some (m, rest)) ↔
      ∃ digits rest, Numbered name.toList digits rest ∧ Nat.ofDigitChars 10 digits 0 = m ∧
        m < Text.bound32 := by
  refine ⟨?_, ?_, ?_, parseName?_directoryName h action, ?_, safeName_safeName action, ?_⟩
  · intro c member
    exact isSafe_of_mem_directoryName member
  · intro dir
    exact Path.isChild_join (plain_directoryName n action) dir
  · intro σ transport s s' ref o b b' e dir place done
    exact Session.recorded_of_perform place done
  · intro m other differs same
    exact differs (directoryName_inj.mp same).1
  · intro name m
    simp only [parseName?_eq_some, Nat.ofDigitChars_eq_foldl]
    constructor
    · rintro ⟨action, digits, rest, numbered, written, below, -⟩
      exact ⟨digits, rest, numbered, written, below⟩
    · rintro ⟨digits, rest, numbered, written, below⟩
      obtain ⟨action, behind⟩ := exists_behindDash rest
      exact ⟨String.ofList action, digits, rest, numbered, written, below, by simpa using behind⟩

/-- An action that leads upward and begins with digits is recorded under a safe name. -/
theorem directory_names_decode_upward :
    7 < Text.bound32 ∧ parseName? (directoryName 7 "12/../é") = some (7, "12-----") ∧
      directoryName 7 "12/../é" ≠ directoryName 71 "2/../é" := by
  have below : 7 < Text.bound32 := by decide
  obtain ⟨-, -, -, read, apart, -⟩ := directory_names_decode below "12/../é"
  have safe : safeName "12/../é" = "12-----" := by decide
  rw [safe] at read
  exact ⟨below, read, (apart 71 "2/../é" (by decide)).symm⟩

end Runbook
