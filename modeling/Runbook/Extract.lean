import Runbook.Json.Reader
import Runbook.Response
import Runbook.Template

set_option autoImplicit false
set_option relaxedAutoImplicit false

/-!
Variables taken from responses. The outputs of an action are templates; they see the members of a
JSON body first and the session behind them, and none of them sees another output.
-/

namespace Runbook.Extract

/-- The variable that holds a JSON body that is no map. -/
def bodyVariable : String := "body"

/-- The variables that a response brings: the members of a JSON body that is a map, any other JSON
body as one variable, and none if the body is not JSON. -/
def responseVars (r : Response) : Fields :=
  if r.isJson then
    match Json.readBytes? r.body with
    | some (.map fields) => fields
    | some v => [(bodyVariable, v)]
    | none => []
  else []

/-- The scope of output templates. -/
def scope (r : Response) (session : Scope) : Scope := .node (responseVars r) [session]

def outputs (templates : Fields) (r : Response) (session : Scope) : Fields :=
  templates.map fun (name, template) => (name, Template.interpolate (scope r session) template)

end Runbook.Extract
