import Runbook.Template

set_option autoImplicit false
set_option relaxedAutoImplicit false

/-!
Actions: fields that describe one request, and the outputs to take from its response.
-/

namespace Runbook

/-- A named set of fields. -/
structure Action where
  name : String
  fields : Fields
  deriving DecidableEq

/-- An action as it is asked for: by its name in the project, or by its fields. -/
inductive ActionRef
  | named (name : String)
  | inline (fields : Fields)
  deriving DecidableEq

namespace Action

/-- The name of an inline action that has none. -/
def inlineName : String := "inline"

/-- The name that fields give their action: its own name, or else its title. -/
def nameOf (fields : Fields) : String :=
  let text := fun key => (fields.get? key).bind Value.asText?
  ((text "action_name").or (text "title")).getD inlineName

/-- The action of fields that stand by themselves. -/
def ofFields (fields : Fields) : Action := ⟨nameOf fields, fields⟩

def title (a : Action) : String := ((a.fields.get? "title").bind Value.asText?).getD a.name

/-- The outputs that fields declare, if they declare a map of them. -/
def outputsOf (fields : Fields) : Option Fields := (fields.get? "outputs").bind Value.asMap?

def outputs (a : Action) : Option Fields := outputsOf a.fields

def interpolate (a : Action) (s : Scope) : Fields := Template.interpolateFields s a.fields

end Action

namespace ActionRef

/-- The reference to inline data; data that is no map makes an empty action. -/
def ofData (data : Value) : ActionRef := .inline data.fields

/-- The reference that a value is: a name or a map of fields. -/
def ofValue? : Value → Option ActionRef
  | .str name => some (.named name)
  | .map fields => some (.inline fields)
  | _ => none

def toValue : ActionRef → Value
  | .named name => .str name
  | .inline fields => .map fields

def label : ActionRef → String
  | .named name => name
  | .inline fields => Action.nameOf fields

end ActionRef

end Runbook
