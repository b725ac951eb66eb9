import Runbook.Scope
import Runbook.Json.Printer

set_option autoImplicit false
set_option relaxedAutoImplicit false

/-!
Templates. A reference is a dotted path of identifiers between double braces. A text that is one
reference and nothing else becomes the value referred to, whatever its type; references inside a
longer text become the text of their values. Text that a value brings in is not read again.
-/

namespace Runbook.Template

def isIdentChar (c : Char) : Bool := c.isAlphanum || c == '_'

def isPathChar (c : Char) : Bool := isIdentChar c || c == '.'

/-- Whether a path is made of identifiers joined by single dots. -/
def isPath (cs : List Char) : Bool :=
  (Text.split '.' cs).all fun segment => !segment.isEmpty && segment.all isIdentChar

/-- The path of the reference that a text begins with. -/
def referenceAt? : List Char → Option (List Char)
  | '\x7b' :: '\x7b' :: cs =>
    let path := cs.takeWhile isPathChar
    match cs.dropWhile isPathChar with
    | '\x7d' :: '\x7d' :: _ => if isPath path then some path else none
    | _ => none
  | _ => none

/-- A character of a text, or a reference in it. -/
inductive Piece
  | literal (c : Char)
  | reference (path : List Char)
  deriving DecidableEq

/-- The pieces of a text after some characters of it that belong to a reference already met. -/
def piecesAfter : Nat → List Char → List Piece
  | _, [] => []
  | skip + 1, _ :: cs => piecesAfter skip cs
  | 0, c :: cs =>
    match referenceAt? (c :: cs) with
    | some path => .reference path :: piecesAfter (path.length + 3) cs
    | none => .literal c :: piecesAfter 0 cs

/-- The pieces of a text, from left to right. -/
def pieces (text : String) : List Piece := piecesAfter 0 text.toList

/-- The text of a value inside a longer text: null is empty, a text is itself, and anything else is
its compact JSON. -/
def textOf : Value → String
  | .null => ""
  | .str s => s
  | v => Json.print v

def pieceText (s : Scope) : Piece → List Char
  | .literal c => [c]
  | .reference path => (textOf (s.evaluate (String.ofList path))).toList

/-- A text with its references replaced. -/
def fill (s : Scope) (text : String) : Value :=
  match pieces text with
  | [.reference path] => s.evaluate (String.ofList path)
  | ps => .str (String.ofList (ps.flatMap (pieceText s)))

mutual

/-- A value with the references in all its texts replaced; keys are left alone. -/
def interpolate (s : Scope) : Value → Value
  | .str text => fill s text
  | .list items => .list (interpolateItems s items)
  | .map fields => .map (interpolateMembers s fields)
  | .null => .null
  | .bool b => .bool b
  | .num n => .num n

def interpolateItems (s : Scope) : List Value → List Value
  | [] => []
  | v :: vs => interpolate s v :: interpolateItems s vs

def interpolateMembers (s : Scope) : List (String × Value) → List (String × Value)
  | [] => []
  | (k, v) :: rest => (k, interpolate s v) :: interpolateMembers s rest

end

/-- The keys of an action that describe it rather than its request; they keep their templates. -/
def metadataKeys : List String := ["outputs", "title", "action_name"]

/-- The fields of an action with the references in all but its metadata replaced. -/
def interpolateFields (s : Scope) (fields : Fields) : Fields :=
  fields.map fun (key, v) => (key, if key ∈ metadataKeys then v else interpolate s v)

def pathsOf (text : String) : List String :=
  (pieces text).filterMap fun
    | .reference path => some (String.ofList path)
    | .literal _ => none

mutual

/-- The paths referred to in a value, in order, with repetitions. -/
def paths : Value → List String
  | .str text => pathsOf text
  | .list items => pathsInItems items
  | .map fields => pathsInMembers fields
  | .null => []
  | .bool _ => []
  | .num _ => []

def pathsInItems : List Value → List String
  | [] => []
  | v :: vs => paths v ++ pathsInItems vs

def pathsInMembers : List (String × Value) → List String
  | [] => []
  | (_, v) :: rest => paths v ++ pathsInMembers rest

end

/-- A list without the repetitions of earlier items. -/
def distinct (names : List String) : List String :=
  names.foldl (fun acc n => if n ∈ acc then acc else acc ++ [n]) []

/-- The paths referred to anywhere in a value, each once, in order of first appearance. -/
def references (v : Value) : List String := distinct (paths v)

example : pieces "a\x7b\x7bb.c\x7d\x7d\x7d" =
    [.literal 'a', .reference ['b', '.', 'c'], .literal '\x7d'] := by decide
example : pieces "\x7b\x7ba..b\x7d\x7d" = "\x7b\x7ba..b\x7d\x7d".toList.map .literal := by decide

end Runbook.Template
