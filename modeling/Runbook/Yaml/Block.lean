import Runbook.Yaml.Character

set_option autoImplicit false
set_option relaxedAutoImplicit false

/-!
Block scalars. The lines of a literal scalar are kept, those of a folded one are joined unless one
of them is indented further; the header says how deep the lines are indented and what becomes of
the line breaks at the end.
-/

namespace Runbook.Yaml

/-- What becomes of the line breaks at the end: none is kept, one, or all. -/
inductive Chomping
  | strip
  | clip
  | keep
  deriving DecidableEq

/-- The header of a block scalar: the indentation it states, zero if none, and the chomping. -/
structure BlockHeader where
  indent : Nat
  chomping : Chomping

/-- The chomping that a sign asks for. -/
def chomping? : Option Char → Option Chomping
  | some '+' => some .keep
  | some '-' => some .strip
  | _ => none

/-- The indentation that a digit states, which is not zero. -/
def indentDigit? : Option Char → Option Nat
  | some c => if c.isDigit then some (c.toNat - 48) else none
  | none => none

/-- The header of a block scalar, read up to the end of its line. -/
def blockHeader (c : Cursor) : Option (BlockHeader × Cursor) := do
  let (header, c) : BlockHeader × Cursor := match chomping? c.next?, indentDigit? c.next? with
    | some chomping, _ =>
      match indentDigit? (c.after? 1) with
      | some n => (⟨n, chomping⟩, c.skip 2)
      | none => (⟨0, chomping⟩, c.skip 1)
    | none, some n =>
      match chomping? (c.after? 1) with
      | some chomping => (⟨n, chomping⟩, c.skip 2)
      | none => (⟨n, .clip⟩, c.skip 1)
    | none, none => (⟨0, .clip⟩, c)
  let c := c.skipWhile isBlank
  let c := if c.next? == some '#' then c.skipWhile (!isBreak ·) else c
  if isBreakOrEnd c.next? then return (header, c.skipBreak) else none

/-- Whether a header states an indentation of zero. -/
def statesZero (c : Cursor) : Bool :=
  c.next? == some '0' || ((chomping? c.next?).isSome && c.after? 1 == some '0')

/-- A block scalar so far: its indentation, zero until it is known, the deepest column of an empty
line, the text, last character first, the break of the last line, the breaks of empty lines after
it, and whether the last line began with a blank. -/
structure BlockText where
  indent : Nat
  deepest : Nat
  text : List Char
  last : List Char
  empty : List Char
  spaced : Bool

namespace BlockText

def beginLine (b : BlockText) (folds : Bool) (indent : Nat) (c : Char) : BlockText :=
  let joins := folds && b.last.head? == some '\n' && !b.spaced && !isBlank c
  let between :=
    if joins then (if b.empty.isEmpty then [' '] else b.empty) else b.last ++ b.empty
  ⟨indent, b.deepest, c :: (between.reverse ++ b.text), [], [], isBlank c⟩

def endLine (b : BlockText) (c : Char) : BlockText := { b with last := breakText c, empty := [] }

/-- An empty line ends with a break. -/
def emptyLine (b : BlockText) (column : Nat) (c : Char) : BlockText :=
  { b with deepest := max b.deepest column, empty := b.empty ++ breakText c }

/-- Whether indentation is still being read at a column. -/
def isIndenting (b : BlockText) (column : Nat) : Bool := b.indent == 0 || column < b.indent

/-- The text with the breaks at its end chomped. -/
def result (b : BlockText) (chomping : Chomping) : String :=
  let ending := match chomping with
    | .strip => []
    | .clip => b.last
    | .keep => b.last ++ b.empty
  String.ofList (b.text.reverse ++ ending)

end BlockText

/-- The rest of a block scalar, inside a line or before one; an unknown indentation is that of the
first line, but no less than the least. -/
def blockFrom (folds : Bool) (least : Nat) :
    Bool → BlockText → Mark → List Char → Option (BlockText × Cursor)
  | _, b, m, [] => some (b, ⟨[], m⟩)
  | true, b, m, '\r' :: '\n' :: cs => blockFrom folds least false (b.endLine '\n') (m.newline 2) cs
  | false, b, m, '\r' :: '\n' :: cs =>
    blockFrom folds least false (b.emptyLine m.column '\n') (m.newline 2) cs
  | true, b, m, c :: cs =>
    if isBreak c then blockFrom folds least false (b.endLine c) (m.newline 1) cs
    else blockFrom folds least true { b with text := c :: b.text } (m.along 1) cs
  | false, b, m, c :: cs =>
    if c == ' ' && b.isIndenting m.column then blockFrom folds least false b (m.along 1) cs
    else if c == '\t' && b.isIndenting m.column then none
    else if isBreak c then
      blockFrom folds least false (b.emptyLine m.column c) (m.newline 1) cs
    else
      let indent := if b.indent == 0 then max (max b.deepest m.column) least else b.indent
      if m.column == indent then
        blockFrom folds least true (b.beginLine folds indent c) (m.along 1) cs
      else some (b, ⟨c :: cs, m⟩)

/-- A block scalar, from the character after its indicator, below an indentation. -/
def blockScalar (folds : Bool) (outer : Int) (c : Cursor) : Option (String × Cursor) := do
  if statesZero c then none
  let (header, c) ← blockHeader c
  let above := outer.toNat
  let indent := if header.indent == 0 then 0 else above + header.indent
  let least := max 1 (outer + 1).toNat
  let (b, after) ← blockFrom folds least false ⟨indent, 0, [], [], [], false⟩ c.mark c.rest
  return (b.result header.chomping, after)

end Runbook.Yaml
