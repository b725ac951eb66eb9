import Runbook.Json.Token
import Runbook.Text.Utf8

set_option autoImplicit false
set_option relaxedAutoImplicit false

/-!
Reading JSON. A text is one value and nothing else, written as the standard says, in UTF-8, with at
most 127 lists and maps inside one another. A repeated key keeps its place and takes the last value.
-/

namespace Runbook.Json

/-- The most lists and maps that may lie inside one another. -/
def maxDepth : Nat := 127

/-- A list or map whose member is being read: the items so far, or the members so far and the key
of the member, each last first. -/
inductive Frame
  | list (items : List Value)
  | map (members : List (String × Value)) (key : String)

/-- What has to come next inside the innermost frame. -/
inductive Expected
  | value (orEnd : Bool)
  | member (members : List (String × Value)) (orEnd : Bool)
  | colon (members : List (String × Value)) (key : String)
  | separator (v : Value)

/-- The state of reading: the frames from the innermost outward, and what has to come next. -/
structure Reading where
  frames : List Frame
  expected : Expected

def Reading.step (r : Reading) (t : Token) : Option Reading :=
  match r.expected, t with
  | .value _, .scalar v => some ⟨r.frames, .separator v⟩
  | .value _, .text s => some ⟨r.frames, .separator (.str s)⟩
  | .value _, .openList =>
    if r.frames.length < maxDepth then some ⟨.list [] :: r.frames, .value true⟩ else none
  | .value _, .openMap =>
    if r.frames.length < maxDepth then some ⟨r.frames, .member [] true⟩ else none
  | .value true, .closeList =>
    match r.frames with
    | .list [] :: outer => some ⟨outer, .separator (.list [])⟩
    | _ => none
  | .member members _, .text key => some ⟨r.frames, .colon members key⟩
  | .member [] true, .closeMap => some ⟨r.frames, .separator (.map [])⟩
  | .colon members key, .colon => some ⟨.map members key :: r.frames, .value false⟩
  | .separator v, .comma =>
    match r.frames with
    | .list items :: outer => some ⟨.list (v :: items) :: outer, .value false⟩
    | .map members key :: outer => some ⟨outer, .member ((key, v) :: members) false⟩
    | [] => none
  | .separator v, .closeList =>
    match r.frames with
    | .list items :: outer => some ⟨outer, .separator (.list (v :: items).reverse)⟩
    | _ => none
  | .separator v, .closeMap =>
    match r.frames with
    | .map members key :: outer => some ⟨outer, .separator (.map ((key, v) :: members).reverse)⟩
    | _ => none
  | _, _ => none

def Reading.run (r : Reading) : List Token → Option Reading
  | [] => some r
  | t :: ts => (r.step t).bind (·.run ts)

/-- The value of a list of tokens that make up exactly one, with every declaration of a key. -/
def ofTokens? (ts : List Token) : Option Value :=
  match Reading.run ⟨[], .value false⟩ ts with
  | some ⟨[], .separator v⟩ => some v
  | _ => none

/-- The value of a JSON text with every declaration of a key. -/
def readDeclared? (s : String) : Option Value := (Token.lex? s.toList).bind ofTokens?

/-- The value of a JSON text. -/
def read? (s : String) : Option Value := (readDeclared? s).map Value.settle

def readBytes? (bytes : Text.Bytes) : Option Value := (Text.decode? bytes).bind read?

end Runbook.Json
