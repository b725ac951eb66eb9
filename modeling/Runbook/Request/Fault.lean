import Runbook.Json.Printer
import Runbook.Url.Basic

set_option autoImplicit false
set_option relaxedAutoImplicit false

/-!
Why the fields of an action make no request.
-/

namespace Runbook.Request

inductive Fault
  | unsupportedMethod (name : String)
  | uri (input : String) (cause : Url.Fault)
  | host (name : String) (cause : Url.Fault)
  | port (value : Value)
  | portRefused (number : Nat) (url : Url)
  | notATarget (value : Value)
  | unresolvable (reference : String) (base : Url) (cause : Url.Fault)
  | notAMapping (field : String) (value : Value)
  | identifiersExhausted (session : String)

def Fault.message : Fault → String
  | .unsupportedMethod name => "unsupported method '" ++ name ++ "'"
  | .uri input cause => "invalid URI '" ++ input ++ "': " ++ cause.message
  | .host name cause => "invalid host '" ++ name ++ "': " ++ cause.message
  | .port value => "invalid port " ++ Json.print value
  | .portRefused number url => "cannot set port " ++ toString number ++ " on " ++ url.text
  | .notATarget value => "cannot build a URI from " ++ Json.print value
  | .unresolvable reference base cause =>
    "cannot resolve '" ++ reference ++ "' against '" ++ base.text ++ "': " ++ cause.message
  | .notAMapping field value => "'" ++ field ++ "' must be a mapping, got " ++ Json.print value
  | .identifiersExhausted session =>
    "request identifiers in session '" ++ session ++ "' are exhausted"

end Runbook.Request
