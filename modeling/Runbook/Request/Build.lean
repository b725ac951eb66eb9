import Runbook.Request.Descriptor
import Runbook.Settings.Basic
import Runbook.Template

set_option autoImplicit false
set_option relaxedAutoImplicit false

/-!
From the fields of an action, references replaced, to a request. Faults are looked for in a fixed
order: method, target, base, query, headers.
-/

namespace Runbook.Request

open Runbook.Text (Bytes)

/-- The value of a field, if it is there and not null. -/
def given? (fields : Fields) (key : String) : Option Value :=
  (fields.get? key).filter (!·.isNull)

/-- The method of a request; it is GET unless the fields name another. -/
def methodOf (fields : Fields) : Except Fault Method :=
  match given? fields "method" with
  | none => .ok .get
  | some v =>
    let name := Template.textOf v
    match Method.parse? name with
    | some m => .ok m
    | none => .error (.unsupportedMethod name)

/-- The target that fields name by themselves: the one of `url`, or else of the components. -/
def ownTarget (fields : Fields) : Except Fault Target := do
  match ← Target.ofValue ((fields.get? "url").getD .null) with
  | some target => return target
  | none => Target.ofComponents fields

/-- The base of relative targets, from the fields or else from the scope. -/
def baseOf (fields : Fields) (s : Scope) : Except Fault (Option Target) :=
  Target.ofValue ((given? fields "base_url").getD (s.evaluate "base_url"))

/-- The pairs of one entry: a list makes one for each item, and null makes none. -/
def pairsOf (name : String) : Value → List (String × String)
  | .null => []
  | .list items =>
    (items.filter (!·.isNull)).map fun item => (name, Template.textOf item)
  | v => [(name, Template.textOf v)]

/-- The pairs of a field that holds a map, in the order of its entries. -/
def expandPairs (field : String) : Option Value → Except Fault (List (String × String))
  | none => .ok []
  | some .null => .ok []
  | some (.map entries) => .ok (entries.flatMap fun (name, v) => pairsOf name v)
  | some v => .error (.notAMapping field v)

/-- The body of a request: JSON text of `json_body`, or else the text of `body`. -/
def bodyOf (fields : Fields) : Option Bytes :=
  match given? fields "json_body" with
  | some v => some (Json.printBytes v)
  | none => (given? fields "body").map fun v => Text.encode (Template.textOf v)

/-- The line that declares a JSON body. -/
def jsonLine : String × String := ("Content-Type", "application/json")

/-- The header lines of an action and the one its body needs. -/
def declareBody (fields : Fields) (headers : Headers) : Headers :=
  if (given? fields "json_body").isSome then headers.addMissing jsonLine else headers

/-- The credentials of a request, if it has a username. -/
def credentialsOf (fields : Fields) : Option Credentials :=
  (given? fields "username").map fun username =>
    ⟨Template.textOf username, (given? fields "password").map Template.textOf⟩

/-- The request that fields describe. A default header is added where no line has its name. -/
def describe (fields : Fields) (s : Scope) (settings : Settings) : Except Fault Descriptor := do
  let method ← methodOf fields
  let own ← ownTarget fields
  let base ← baseOf fields s
  let target ← own.resolve base
  let query ← expandPairs "query" (fields.get? "query")
  let headers ← expandPairs "headers" (fields.get? "headers")
  return {
    method
    target := target.appendQuery query
    headers := settings.defaultHeaders.foldl Headers.addMissing (declareBody fields headers)
    body := bodyOf fields
    credentials := credentialsOf fields }

end Runbook.Request
