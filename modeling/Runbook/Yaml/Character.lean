set_option autoImplicit false
set_option relaxedAutoImplicit false

/-!
Characters of YAML, and places between them.
-/

namespace Runbook.Yaml

/-- Line breaks. -/
def isBreak (c : Char) : Bool :=
  let n := c.toNat
  n == 0x0A || n == 0x0D || n == 0x85 || n == 0x2028 || n == 0x2029

/-- White space inside a line. -/
def isBlank (c : Char) : Bool := c == ' ' || c == '\t'

/-- Whether a line or word ends before what comes next. -/
def isBlankOrEnd : Option Char → Bool
  | none => true
  | some c => isBlank c || isBreak c

/-- Whether a line ends before what comes next. -/
def isBreakOrEnd : Option Char → Bool
  | none => true
  | some c => isBreak c

/-- What a line break means in a text: the two separators stand for themselves, the others for a
line feed. -/
def breakText (c : Char) : List Char :=
  if c.toNat == 0x2028 || c.toNat == 0x2029 then [c] else ['\n']

/-- Characters of names: ASCII letters and digits, underscores and dashes. -/
def isNameChar (c : Char) : Bool := c.isAlphanum || c == '_' || c == '-'

def isByteOrderMark (c : Char) : Bool := c.toNat == 0xFEFF

/-- Characters that a document may hold. -/
def isReadable (c : Char) : Bool :=
  let n := c.toNat
  n == 0x09 || n == 0x0A || n == 0x0D || (0x20 ≤ n && n ≤ 0x7E) || n == 0x85 ||
    (0xA0 ≤ n && n ≤ 0xD7FF) || (0xE000 ≤ n && n ≤ 0xFFFD) || 0x10000 ≤ n

/-- Whether a line begins with the start marker of a document. -/
def isStartMarker : List Char → Bool
  | '-' :: '-' :: '-' :: rest => isBlankOrEnd rest.head?
  | _ => false

/-- Whether a line begins with the end marker of a document. -/
def isEndMarker : List Char → Bool
  | '.' :: '.' :: '.' :: rest => isBlankOrEnd rest.head?
  | _ => false

def isMarker (cs : List Char) : Bool := isStartMarker cs || isEndMarker cs

/-- A place in a text: how many characters lie before it, in all and on its line, and how many
lines. -/
structure Mark where
  index : Nat
  line : Nat
  column : Nat

namespace Mark

/-- The place behind some characters of the same line. -/
def along (m : Mark) (count : Nat) : Mark := ⟨m.index + count, m.line, m.column + count⟩

/-- The place behind a line break of some characters. -/
def newline (m : Mark) (count : Nat) : Mark := ⟨m.index + count, m.line + 1, 0⟩

end Mark

/-- What is left of a text, and its place. -/
structure Cursor where
  rest : List Char
  mark : Mark

namespace Cursor

def next? (c : Cursor) : Option Char := c.rest.head?

/-- The character after so many. -/
def after? (c : Cursor) (count : Nat) : Option Char := c.rest[count]?

/-- Behind some characters of the same line. -/
def skip (c : Cursor) (count : Nat) : Cursor := ⟨c.rest.drop count, c.mark.along count⟩

/-- Behind the line break that comes next. -/
def skipBreak (c : Cursor) : Cursor :=
  match c.rest with
  | '\r' :: '\n' :: rest => ⟨rest, c.mark.newline 2⟩
  | _ :: rest => ⟨rest, c.mark.newline 1⟩
  | [] => c

/-- The characters of a kind that come next, and the cursor behind them. -/
def span (c : Cursor) (kind : Char → Bool) : List Char × Cursor :=
  let taken := c.rest.takeWhile kind
  (taken, c.skip taken.length)

/-- Behind the characters of a kind that come next. -/
def skipWhile (c : Cursor) (kind : Char → Bool) : Cursor := (c.span kind).2

end Cursor

end Runbook.Yaml
