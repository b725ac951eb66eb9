import Runbook.Text.Hex
import Runbook.Yaml.Fold

set_option autoImplicit false
set_option relaxedAutoImplicit false

/-!
Quoted scalars. Between single quotes a quote is written twice; between double quotes a backslash
begins an escape. No line of either may begin with a document marker.
-/

namespace Runbook.Yaml

/-- The rest of a scalar in single quotes. -/
def singleFrom : Folding → Mark → List Char → Option (Folding × Cursor)
  | _, _, [] => none
  | f, m, '\r' :: '\n' :: cs => singleFrom (f.lineBreak '\n') (m.newline 2) cs
  | f, m, '\'' :: '\'' :: cs => singleFrom (f.push '\'') (m.along 2) cs
  | f, m, c :: cs =>
    if isBreak c then singleFrom (f.lineBreak c) (m.newline 1) cs
    else if isBlank c then singleFrom (f.blank c) (m.along 1) cs
    else if m.column == 0 && isMarker (c :: cs) then none
    else if c == '\'' then some (f.settle, ⟨cs, m.along 1⟩)
    else singleFrom (f.push c) (m.along 1) cs

/-- What has been read of an escape: nothing, the backslash, or some digits of a code. -/
inductive Escape
  | none
  | begun
  | code (left : Nat) (value : Nat)

/-- What a character after a backslash writes: a character, or a code of so many digits. -/
def escapeOf? (c : Char) : Option (Char ⊕ Nat) :=
  match c with
  | '0' => some (.inl (Char.ofNat 0))
  | 'a' => some (.inl (Char.ofNat 7))
  | 'b' => some (.inl (Char.ofNat 8))
  | 't' => some (.inl '\t')
  | '\t' => some (.inl '\t')
  | 'n' => some (.inl '\n')
  | 'v' => some (.inl (Char.ofNat 11))
  | 'f' => some (.inl (Char.ofNat 12))
  | 'r' => some (.inl '\r')
  | 'e' => some (.inl (Char.ofNat 27))
  | ' ' => some (.inl ' ')
  | '"' => some (.inl '"')
  | '/' => some (.inl '/')
  | '\\' => some (.inl '\\')
  | 'N' => some (.inl (Char.ofNat 0x85))
  | '_' => some (.inl (Char.ofNat 0xA0))
  | 'L' => some (.inl (Char.ofNat 0x2028))
  | 'P' => some (.inl (Char.ofNat 0x2029))
  | 'x' => some (.inr 2)
  | 'u' => some (.inr 4)
  | 'U' => some (.inr 8)
  | _ => none

/-- The character of a code, unless it is a surrogate or too large. -/
def charOfCode? (n : Nat) : Option Char :=
  if h : n.isValidChar then some (Char.ofNatAux n h) else none

/-- The rest of a scalar in double quotes. -/
def doubleFrom : Escape → Folding → Mark → List Char → Option (Folding × Cursor)
  | _, _, _, [] => none
  | .none, f, m, '\r' :: '\n' :: cs => doubleFrom .none (f.lineBreak '\n') (m.newline 2) cs
  | .begun, f, m, '\r' :: '\n' :: cs => doubleFrom .none f.escapedBreak (m.newline 2) cs
  | .none, f, m, c :: cs =>
    if isBreak c then doubleFrom .none (f.lineBreak c) (m.newline 1) cs
    else if isBlank c then doubleFrom .none (f.blank c) (m.along 1) cs
    else if m.column == 0 && isMarker (c :: cs) then none
    else if c == '"' then some (f.settle, ⟨cs, m.along 1⟩)
    else if c == '\\' then doubleFrom .begun f (m.along 1) cs
    else doubleFrom .none (f.push c) (m.along 1) cs
  | .begun, f, m, c :: cs =>
    if isBreak c then doubleFrom .none f.escapedBreak (m.newline 1) cs
    else
      match escapeOf? c with
      | some (.inl d) => doubleFrom .none (f.push d) (m.along 1) cs
      | some (.inr n) => doubleFrom (.code n 0) f (m.along 1) cs
      | none => none
  | .code left value, f, m, c :: cs =>
    match Text.hexValue? c with
    | none => none
    | some d =>
      if left ≤ 1 then
        match charOfCode? (value * 16 + d) with
        | some e => doubleFrom .none (f.push e) (m.along 1) cs
        | none => none
      else doubleFrom (.code (left - 1) (value * 16 + d)) f (m.along 1) cs

/-- A scalar in quotes, from the character after the first quote. -/
def quotedScalar (double : Bool) (c : Cursor) : Option (String × Cursor) :=
  let read :=
    if double then doubleFrom .none .start c.mark c.rest
    else singleFrom .start c.mark c.rest
  read.map fun (f, after) => (f.result, after)

end Runbook.Yaml
