import Runbook.Record
import Runbook.Request.Descriptor
import Runbook.Json.Reader

set_option autoImplicit false
set_option relaxedAutoImplicit false

/-!
Requests read back from their JSON form. A target is absolute if it is the text of a URL, whatever
it was before.
-/

namespace Runbook.Request

open Runbook.Text (Bytes)

/-- The method that a value names exactly, as a text or as the key of a null. -/
def Method.ofValue? : Value → Option Method
  | .str name => Method.named? name
  | .map [(name, .null)] => Method.named? name
  | _ => none

def Target.ofText? : Value → Option Target
  | .str s =>
    match Url.read s with
    | .ok url => some (.absolute url)
    | .error _ => some (.relative s)
  | _ => none

def headerLine? : Value → Option (String × String)
  | .list [.str name, .str value] => some (name, value)
  | _ => none

def headers? : Value → Option Headers
  | .list items => items.mapM headerLine?
  | _ => none

def bytes? : Value → Option Bytes
  | .list items => items.mapM fun v => (Record.natural? 256 v).map UInt8.ofNat
  | _ => none

/-- Whether a value that is a list has so many items. -/
def hasLength (n : Nat) : Value → Bool
  | .list items => items.length == n
  | _ => true

def Credentials.ofValue? (v : Value) : Option Credentials := do
  if !hasLength 2 v then none
  match ← Record.fields? [["username"], ["password"]] v with
  | [username, password] =>
    return ⟨← (← username).asText?, ← Record.nullable? Value.asText? (password.getD .null)⟩
  | _ => none

/-- The request that a value is. -/
def Descriptor.ofValue? (v : Value) : Option Descriptor := do
  if !hasLength 5 v then none
  match ← Record.fields? [["method"], ["uri"], ["headers"], ["body"], ["credentials"]] v with
  | [method, target, headers, body, credentials] =>
    return {
      method := ← Method.ofValue? (← method)
      target := ← Target.ofText? (← target)
      headers := ← headers? (← headers)
      body := ← Record.nullable? bytes? (body.getD .null)
      credentials := ← Record.nullable? Credentials.ofValue? (credentials.getD .null) }
  | _ => none

def Descriptor.read? (s : String) : Option Descriptor :=
  (Json.readDeclared? s).bind Descriptor.ofValue?

end Runbook.Request
