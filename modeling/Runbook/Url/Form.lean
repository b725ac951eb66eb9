import Runbook.Url.Percent

set_option autoImplicit false
set_option relaxedAutoImplicit false

/-!
Form-encoded pairs, as they stand in a query: `name=value` joined by ampersands, with a space
written as a plus sign.
-/

namespace Runbook.Url

/-- The characters that stand for themselves in an encoded name or value. -/
def isFormSafe (c : Char) : Bool :=
  c.isAlphanum || c == '*' || c == '-' || c == '.' || c == '_'

/-- A character of an encoded name or value. -/
def formEncodeChar (c : Char) : List Char :=
  if isFormSafe c then [c]
  else if c == ' ' then ['+']
  else (String.utf8EncodeChar c).flatMap percent

/-- An encoded name or value. -/
def formEncode (s : String) : List Char := s.toList.flatMap formEncodeChar

def formPair (p : String × String) : List Char := formEncode p.1 ++ '=' :: formEncode p.2

/-- A query with pairs appended; an empty query needs no separator. -/
def formAppend (query : List Char) (pairs : List (String × String)) : List Char :=
  pairs.foldl (fun q p => (if q.isEmpty then [] else q ++ ['&']) ++ formPair p) query

end Runbook.Url
