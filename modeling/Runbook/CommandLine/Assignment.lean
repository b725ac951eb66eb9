import Runbook.Text.Blank
import Runbook.Text.Split
import Runbook.Yaml.Reader

set_option autoImplicit false
set_option relaxedAutoImplicit false

/-!
Variables given as arguments. The value is read as YAML, so that numbers, truth values and lists are
what they look like; what is not YAML is a text.
-/

namespace Runbook.CommandLine

/-- The value that a text is given for. -/
def assignedValue (raw : String) : Value :=
  if Text.isAllBlank raw then .str "" else (Yaml.read? (Text.trim raw)).getD (.str raw)

/-- The variable that an argument sets: a name, an equals sign and a value. -/
def assignment? (argument : String) : Option (String × Value) :=
  match Text.splitOnce? '=' argument.toList with
  | none => none
  | some (name, raw) =>
    let name := Text.trimBlanks name
    if name.isEmpty then none
    else some (String.ofList name, assignedValue (String.ofList raw))

end Runbook.CommandLine
