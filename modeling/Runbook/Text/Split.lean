set_option autoImplicit false
set_option relaxedAutoImplicit false

/-!
Cutting a text at a character.
-/

namespace Runbook.Text

/-- A text cut at every occurrence of a character: the piece before the first, and those after. -/
def segments (cut : Char) : List Char → List Char × List (List Char)
  | [] => ([], [])
  | c :: cs =>
    let (first, rest) := segments cut cs
    if c == cut then ([], first :: rest) else (c :: first, rest)

/-- The pieces of a text cut at every occurrence of a character; there is always one. -/
def split (cut : Char) (cs : List Char) : List (List Char) :=
  (segments cut cs).1 :: (segments cut cs).2

/-- A text cut at the first occurrence of a character, if it has one. -/
def splitOnce? (cut : Char) (cs : List Char) : Option (List Char × List Char) :=
  match cs.dropWhile (· != cut) with
  | [] => none
  | _ :: rest => some (cs.takeWhile (· != cut), rest)

/-- A text without an ending, if it ends so. -/
def dropEnding? (ending cs : List Char) : Option (List Char) :=
  if ending.isSuffixOf cs then some (cs.take (cs.length - ending.length)) else none

theorem intercalate_split (cut : Char) (cs : List Char) :
    [cut].intercalate (split cut cs) = cs := by
  induction cs with
  | nil => rfl
  | cons c cs ih =>
    simp only [split, segments] at ih ⊢
    by_cases h : c = cut
    · subst h
      simp [List.intercalate_cons_cons, ih]
    · simp only [beq_iff_eq, h, if_false]
      cases hr : (segments cut cs).2 with
      | nil => simpa [hr] using ih
      | cons r rs =>
        rw [hr] at ih
        simp only [List.intercalate_cons_cons, List.cons_append] at ih ⊢
        rw [ih]

end Runbook.Text
