import Runbook.Value
import Runbook.Text.Natural

set_option autoImplicit false
set_option relaxedAutoImplicit false

/-!
Records read from values: a map that declares each known field at most once, or the list of the
fields in their order. Fields that are not known are passed over.
-/

namespace Runbook.Record

/-- The value declared under one of a field's names, if there is one; two are refused. -/
def declared? {α : Type} (members : List (String × α)) (names : List String) : Option (Option α) :=
  match members.filter (·.1 ∈ names) with
  | [] => some none
  | [m] => some (some m.2)
  | _ => none

/-- The fields of a record, each with its names; a list may end before the last field. -/
def fields? (names : List (List String)) : Value → Option (List (Option Value))
  | .map members => names.mapM (declared? members)
  | .list items =>
    if items.length ≤ names.length then
      some (items.map some ++ List.replicate (names.length - items.length) none)
    else none
  | _ => none

def natural? (bound : Nat) : Value → Option Nat
  | .num (.integer i _ _) => if 0 ≤ i ∧ i < bound then some i.toNat else none
  | _ => none

def bool? : Value → Option Bool
  | .bool b => some b
  | _ => none

def texts? : Value → Option (List String)
  | .list items => items.mapM Value.asText?
  | _ => none

/-- A value that may be null, read if it is not. -/
def nullable? {α : Type} (read : Value → Option α) : Value → Option (Option α)
  | .null => some none
  | v => (read v).map some

/-- A field that may be left out. -/
def default? {α : Type} (read : Value → Option α) (absent : α) : Option Value → Option α
  | none => some absent
  | some v => read v

end Runbook.Record
