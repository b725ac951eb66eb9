import Runbook.Request.Descriptor
import Runbook.Response
import Runbook.Text.Base64

set_option autoImplicit false
set_option relaxedAutoImplicit false

/-!
Requests and responses as messages: a first line, header lines, an empty line and the body.
-/

namespace Runbook.Message

open Runbook.Text (Bytes)

def lineEnd : String := "\r\n"

def headerLine (line : String × String) : String := line.1 ++ ": " ++ line.2 ++ lineEnd

/-- The head of a message and the empty line after it. -/
def head (first : String) (headers : Headers) : String :=
  first ++ lineEnd ++ String.join (headers.map headerLine) ++ lineEnd

/-- The header line of credentials: name and password joined by a colon, in base 64. -/
def authorization (c : Request.Credentials) : String × String :=
  let pair := c.username ++ ":" ++ c.password.getD ""
  ("Authorization", "Basic " ++ String.ofList (Text.base64 (Text.encode pair)))

def ofRequest (d : Request.Descriptor) : Bytes :=
  let first := d.method.text ++ " " ++ d.target.text ++ " HTTP/1.1"
  let headers := d.headers ++ (d.credentials.map authorization).toList
  Text.encode (head first headers) ++ d.body.getD []

def ofResponse (r : Response) : Bytes := Text.encode (head r.statusLine r.headers) ++ r.body

end Runbook.Message
