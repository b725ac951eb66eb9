import Runbook.Headers
import Runbook.Text.Blank
import Runbook.Text.Natural
import Runbook.Text.Split
import Runbook.Text.Utf8

set_option autoImplicit false
set_option relaxedAutoImplicit false

/-!
Responses. One without a status stands for a request that could not be sent.
-/

namespace Runbook

open Runbook.Text (Bytes)

/-- What came back for a request. -/
structure Response where
  status : Nat
  statusText : String
  version : String
  headers : Headers
  body : Bytes
  deriving DecidableEq

namespace Response

/-- A response with a status and nothing else. -/
def ofStatus (status : Nat) (statusText : String) : Response :=
  ⟨status, statusText, "HTTP/1.1", [], []⟩

/-- The response that is recorded when a request could not be sent. -/
def failure (message : String) : Response := ofStatus 0 message

def statusLine (r : Response) : String :=
  r.version ++ " " ++ toString r.status ++ " " ++ r.statusText

def isSuccess (r : Response) : Bool := 200 ≤ r.status && r.status < 300

/-- Whether the request could not be sent. -/
def isFailure (r : Response) : Bool := r.status == 0

/-- The declared type of the body. -/
def contentType? (r : Response) : Option String := r.headers.get? "content-type"

/-- The declared length of the body; a length that is no 64-bit natural is as good as none. -/
def declaredLength (r : Response) : Nat :=
  ((r.headers.get? "content-length").bind fun s =>
    Text.natural? Text.bound64 (Text.trimBlanks s.toList)).getD 0

/-- The declared length of the body, or the length received if none is declared. -/
def contentLength (r : Response) : Nat :=
  if r.declaredLength = 0 then r.body.length else r.declaredLength

/-- The ending of the media types that are JSON by their subtype. -/
def jsonEnding : List Char := "+json".toList

/-- Whether a content type is JSON: `application/json`, or a subtype with the ending. Parameters
and the case of ASCII letters do not count. -/
def isJsonType (contentType : String) : Bool :=
  let media := (Text.trimBlanks (contentType.toList.takeWhile (· != ';'))).map Char.toLower
  media == "application/json".toList ||
    match Text.splitOnce? '/' media with
    | some (kind, subtype) =>
      !kind.isEmpty && jsonEnding.length < subtype.length && jsonEnding.isSuffixOf subtype
    | none => false

/-- Whether the body is declared to be JSON. -/
def isJson (r : Response) : Bool := r.contentType?.any isJsonType

example : isJsonType " Application/Vnd.Api+JSON ; charset=utf-8" = true := by decide
example : isJsonType "a/+json" = false := by decide

end Response

end Runbook
