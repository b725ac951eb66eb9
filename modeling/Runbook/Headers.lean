import Runbook.Text.Letter

set_option autoImplicit false
set_option relaxedAutoImplicit false

/-!
Header lines. They keep their order, a name may come more than once, and the case of ASCII letters
in a name does not matter when one is looked up.
-/

namespace Runbook

/-- The header lines of a message: names and values. -/
abbrev Headers := List (String × String)

namespace Headers

/-- The value of the first line of a name. -/
def get? (headers : Headers) (name : String) : Option String :=
  (headers.find? fun line => Text.sameIgnoringCase line.1 name).map (·.2)

def has (headers : Headers) (name : String) : Bool := (get? headers name).isSome

def addMissing (headers : Headers) (line : String × String) : Headers :=
  if has headers line.1 then headers else headers ++ [line]

theorem has_eq_any (headers : Headers) (name : String) :
    has headers name = headers.any fun line => Text.sameIgnoringCase line.1 name := by
  induction headers with
  | nil => rfl
  | cons line rest ih =>
    simp only [has, get?] at ih
    by_cases h : Text.sameIgnoringCase line.1 name = true <;> simp [has, get?, h, ih]

end Headers

end Runbook
