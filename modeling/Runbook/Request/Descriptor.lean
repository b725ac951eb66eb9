import Runbook.Headers
import Runbook.Request.Method
import Runbook.Request.Target
import Runbook.Text.Utf8

set_option autoImplicit false
set_option relaxedAutoImplicit false

/-!
Requests as a transport takes them, and their JSON form.
-/

namespace Runbook.Request

open Runbook.Text (Bytes)

/-- A name and perhaps a password for basic authentication. -/
structure Credentials where
  username : String
  password : Option String
  deriving DecidableEq

/-- A request with nothing left to fill in. -/
structure Descriptor where
  method : Method
  target : Target
  headers : Headers
  body : Option Bytes
  credentials : Option Credentials
  deriving DecidableEq

def Credentials.toValue (c : Credentials) : Value :=
  .map [("username", .str c.username), ("password", .optional (c.password.map .str))]

def headersValue (headers : Headers) : Value :=
  .list (headers.map fun line => .list [.str line.1, .str line.2])

/-- The value of octets: a list of numbers. -/
def bytesValue (bytes : Bytes) : Value := .list (bytes.map fun b => Value.natural b.toNat)

def Descriptor.toValue (d : Descriptor) : Value :=
  .map [
    ("method", .str d.method.text),
    ("uri", .str d.target.text),
    ("headers", headersValue d.headers),
    ("body", .optional (d.body.map bytesValue)),
    ("credentials", .optional (d.credentials.map Credentials.toValue))]

end Runbook.Request
