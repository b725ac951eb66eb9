import Runbook.Action
import Runbook.Record

set_option autoImplicit false
set_option relaxedAutoImplicit false

/-!
Flows: actions to be performed one after the other in one session.
-/

namespace Runbook

/-- A named list of steps. -/
structure Flow where
  name : String
  steps : List ActionRef
  deriving DecidableEq

namespace Flow

def steps? : Value → Option (List ActionRef)
  | .list items => items.mapM ActionRef.ofValue?
  | _ => none

/-- The flow that fields describe; without steps it is empty. -/
def ofFields? (name : String) (fields : Fields) : Option Flow :=
  (Record.default? steps? [] (fields.get? "requests")).map fun steps => ⟨name, steps⟩

/-- The value of a flow, which does not hold its name. -/
def toValue (f : Flow) : Value := .map [("requests", .list (f.steps.map ActionRef.toValue))]

end Flow

end Runbook
