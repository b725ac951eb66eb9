import Runbook.Yaml.Fold

set_option autoImplicit false
set_option relaxedAutoImplicit false

/-!
Plain scalars. One ends before a comment, before a colon that is followed by white space, before a
line that is not indented enough, and inside brackets before a bracket or comma.
-/

namespace Runbook.Yaml

/-- The brackets and the comma of collections in one line. -/
def isFlowIndicator (c : Char) : Bool :=
  c == ',' || c == '[' || c == ']' || c == '{' || c == '}'

/-- Whether a plain scalar ends where white space has been passed. -/
def endsAfterBlanks (inFlow : Bool) (indent : Int) (m : Mark) (cs : List Char) : Bool :=
  (!inFlow && (m.column : Int) < indent) || (m.column == 0 && isMarker cs) || cs.head? == some '#'

/-- Whether a plain scalar ends before a character and the one after it. -/
def endsPlain (inFlow : Bool) (c : Char) (next : Option Char) : Bool :=
  (c == ':' && isBlankOrEnd next) || (inFlow && isFlowIndicator c)

/-- Whether a colon inside brackets is followed by something that it must not be. -/
def isMisplacedColon (inFlow : Bool) (c : Char) (next : Option Char) : Bool :=
  inFlow && c == ':' && next.any fun n => isFlowIndicator n || n == '?'

/-- The rest of a plain scalar that is indented at least so far. -/
def plainFrom (inFlow : Bool) (indent : Int) :
    Folding → Mark → List Char → Option (Folding × Cursor)
  | f, m, [] => some (f, ⟨[], m⟩)
  | f, m, '\r' :: '\n' :: cs => plainFrom inFlow indent (f.lineBreak '\n') (m.newline 2) cs
  | f, m, c :: cs =>
    if isBreak c then plainFrom inFlow indent (f.lineBreak c) (m.newline 1) cs
    else if isBlank c then
      if f.broken && (m.column : Int) < indent && c == '\t' then none
      else plainFrom inFlow indent (f.blank c) (m.along 1) cs
    else if f.isWaiting && endsAfterBlanks inFlow indent m (c :: cs) then some (f, ⟨c :: cs, m⟩)
    else if isMisplacedColon inFlow c cs.head? then none
    else if endsPlain inFlow c cs.head? then some (f, ⟨c :: cs, m⟩)
    else plainFrom inFlow indent (f.push c) (m.along 1) cs

/-- A plain scalar: its text, whether lines were passed behind it, and the cursor there. -/
def plainScalar (inFlow : Bool) (indent : Int) (c : Cursor) : Option (String × Bool × Cursor) :=
  (plainFrom inFlow indent .start c.mark c.rest).map fun (f, after) => (f.result, f.broken, after)

end Runbook.Yaml
