import Runbook.Files.Tree
import Runbook.Request.Fault
import Runbook.Settings.Reading

set_option autoImplicit false
set_option relaxedAutoImplicit false

/-!
Why an operation was given up.
-/

namespace Runbook

/-- The kinds of things that a project names. -/
inductive Resource
  | action
  | flow
  | session
  | context
  deriving DecidableEq

def Resource.text : Resource → String
  | .action => "action"
  | .flow => "flow"
  | .session => "session"
  | .context => "context"

/-- What is wrong with a stored definition: it is no YAML, its top level is no map, its fields are
not of the right kinds, or its settings are not acceptable. -/
inductive Malformation
  | unreadable
  | notAMapping (found : Value)
  | misshapen
  | settings (fault : Settings.Fault)
  deriving DecidableEq

def Value.kind : Value → String
  | .null => "null"
  | .bool _ => "a boolean"
  | .num _ => "a number"
  | .str _ => "a string"
  | .list _ => "a list"
  | .map _ => "a mapping"

def Malformation.message : Malformation → String
  | .unreadable => "the text is not one YAML document"
  | .notAMapping found => "expected a mapping at the top level, found " ++ found.kind
  | .misshapen => "a field is not of the expected kind"
  | .settings fault => "Invalid settings: " ++ fault.message

inductive Error
  | notFound (kind : Resource) (name : String)
  | malformed (path : Files.Path) (cause : Malformation)
  | invalidRequest (cause : Request.Fault)
  | io (fault : Files.Fault)

namespace Error

def message : Error → String
  | .notFound kind name => "Unknown " ++ kind.text ++ ": " ++ name
  | .malformed path cause => "Malformed configuration in " ++ path.text ++ ": " ++ cause.message
  | .invalidRequest cause => "Invalid request: " ++ cause.message
  | .io fault => "IO error: " ++ fault.message

/-- The wording of an error and of what lies behind it. -/
def fullMessage : Error → String
  | .io fault => message (.io fault) ++ ": " ++ fault.message
  | e => e.message

end Error

end Runbook
