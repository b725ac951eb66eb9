import Runbook.Yaml.Character

set_option autoImplicit false
set_option relaxedAutoImplicit false

/-!
Folding of lines in plain and quoted scalars. White space is held back until it is known what
follows: inside a line it is kept, around a line break it is dropped; a single line feed becomes a
space, and of several the first is dropped.
-/

namespace Runbook.Yaml

/-- The text of a scalar so far, last character first, and the white space held back: the blanks,
or after a line break the first break and the later ones. -/
structure Folding where
  text : List Char
  blanks : List Char
  broken : Bool
  first : List Char
  later : List Char

namespace Folding

def start : Folding := ⟨[], [], false, [], []⟩

/-- Whether white space is held back. -/
def isWaiting (f : Folding) : Bool := f.broken || !f.blanks.isEmpty

/-- What the white space held back comes to. -/
def waiting (f : Folding) : List Char :=
  if f.broken then
    if f.first.head? == some '\n' then
      if f.later.isEmpty then [' '] else f.later
    else f.first ++ f.later
  else f.blanks

/-- The white space held back is part of the text. -/
def settle (f : Folding) : Folding := ⟨f.waiting.reverse ++ f.text, [], false, [], []⟩

/-- A character follows. -/
def push (f : Folding) (c : Char) : Folding :=
  let g := f.settle
  { g with text := c :: g.text }

/-- A blank follows. -/
def blank (f : Folding) (c : Char) : Folding :=
  if f.broken then f else { f with blanks := f.blanks ++ [c] }

def lineBreak (f : Folding) (c : Char) : Folding :=
  if f.broken then { f with later := f.later ++ breakText c }
  else { f with blanks := [], broken := true, first := breakText c }

/-- A line break follows that is escaped. -/
def escapedBreak (f : Folding) : Folding := { f.settle with broken := true }

def result (f : Folding) : String := String.ofList f.text.reverse

end Folding

end Runbook.Yaml
