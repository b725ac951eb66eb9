import Runbook.Json.Printer
import Runbook.Yaml.Character
import Runbook.Yaml.Scalar
import Runbook.Yaml.Token

set_option autoImplicit false
set_option relaxedAutoImplicit false

/-!
YAML text of values: one entry or item on a line, nested ones indented by two columns, texts
without quotes where they can be read back so.
-/

namespace Runbook.Yaml

open Runbook.Number

/-- A text being written: its characters, last first; the column; the indentation of the block
being written, negative outside all; whether white space or an indicator that needs none came last;
whether nothing but indentation stands on the line; and whether a scalar was left open at the
end. -/
structure Sheet where
  written : List Char
  column : Nat
  indent : Int
  spaced : Bool
  fresh : Bool
  openEnded : Bool

namespace Sheet

def blank : Sheet := ⟨[], 0, -1, true, true, false⟩

def put (s : Sheet) (c : Char) : Sheet :=
  { s with written := c :: s.written, column := s.column + 1 }

def putAll (s : Sheet) (cs : List Char) : Sheet := cs.foldl put s

def putBreak (s : Sheet) (c : Char) : Sheet := { s with written := c :: s.written, column := 0 }

/-- The text goes on at the indentation, on a new line if need be. -/
def indented (s : Sheet) : Sheet :=
  let width := s.indent.toNat
  let s := if !s.fresh || width < s.column || (s.column == width && !s.spaced) then s.putBreak '\n'
    else s
  { s.putAll (List.replicate (width - s.column) ' ') with spaced := true, fresh := true }

/-- An indicator is written, after a space if it needs one. -/
def indicator (s : Sheet) (cs : List Char) (needsSpace isSpace keepsFresh : Bool) : Sheet :=
  let s := if needsSpace && !s.spaced then s.put ' ' else s
  { s.putAll cs with spaced := isSpace, fresh := s.fresh && keepsFresh }

end Sheet

/-- Characters that may be written as they are. -/
def isPrintable (c : Char) : Bool :=
  let n := c.toNat
  n == 0x0A || (0x20 ≤ n && n ≤ 0x7E) || (0xA0 ≤ n && n ≤ 0xD7FF) ||
    (0xE000 ≤ n && n ≤ 0xFFFD && n != 0xFEFF)

/-- Whether two characters of some kinds stand side by side. -/
def hasPair (first second : Char → Bool) : List Char → Bool
  | c :: d :: cs => (first c && second d) || hasPair first second (d :: cs)
  | _ => false

/-- Whether a colon ends a word somewhere. -/
def hasEndingColon : List Char → Bool
  | [] => false
  | c :: cs => (c == ':' && isBlankOrEnd cs.head?) || hasEndingColon cs

/-- Whether a text begins like something other than a plain scalar. -/
def beginsAsIndicator : List Char → Bool
  | [] => false
  | c :: cs =>
    c ∈ ['#', ',', '[', ']', '{', '}', '&', '*', '!', '|', '>', '\'', '"', '%', '@',
      Char.ofNat 96] ||
    ((c == '?' || c == '-') && isBlankOrEnd cs.head?) ||
    ['-', '-', '-'].isPrefixOf (c :: cs) || ['.', '.', '.'].isPrefixOf (c :: cs)

/-- Which ways of writing a text are open, and whether it has several lines. -/
structure Manner where
  lines : Bool
  plain : Bool
  single : Bool
  block : Bool

def Manner.of (cs : List Char) : Manner :=
  let isSpace := fun c : Char => c == ' '
  let isEdge := fun c : Option Char => c.any fun c => isSpace c || isBreak c
  let lines := cs.any isBreak
  let special := hasPair isSpace isBreak cs || !cs.all isPrintable
  let broken := special || hasPair isBreak isSpace cs
  let marked := beginsAsIndicator cs || hasEndingColon cs ||
    hasPair (fun c => isBlank c || isBreak c) (· == '#') cs
  { lines
    plain := !(broken || lines || marked || isEdge cs.head? || isEdge cs.getLast?)
    single := !broken
    block := !(special || cs.isEmpty || cs.getLast?.any isSpace) }

/-- The style that a text asks for: one of several lines is literal, and one that would mean
something else is quoted. -/
def wantedStyle (s : String) : Style :=
  if s.toList.contains '\n' then .literal
  else if !(Meaning.of s).isText || isPaddedDigits s.toList then .single
  else .plain

/-- The style that a text gets. -/
def styleOf (m : Manner) : Style → Style
  | .plain => if m.plain then .plain else if m.single then .single else .double
  | .single => if m.single then .single else .double
  | .literal => if m.block then .literal else .double
  | .folded => if m.block then .folded else .double
  | .double => .double

def Sheet.plain (s : Sheet) (cs : List Char) : Sheet :=
  let s := if !s.spaced && !cs.isEmpty then s.put ' ' else s
  { s.putAll cs with spaced := false, fresh := false }

/-- The characters of a text in single quotes, of which the last was a break or not. -/
def Sheet.singleChars (s : Sheet) (broken : Bool) : List Char → Sheet
  | [] => if broken then s.indented else s
  | c :: cs =>
    if c == ' ' then (s.put c).singleChars broken cs
    else if isBreak c then ({ s.putBreak c with fresh := true }).singleChars true cs
    else
      let s := if broken then s.indented else s
      ({ s.putAll (if c == '\'' then [c, c] else [c]) with fresh := false }).singleChars false cs

def Sheet.single (s : Sheet) (cs : List Char) : Sheet :=
  ((s.indicator ['\''] true false false).singleChars false cs).indicator ['\''] false false false

/-- A character between double quotes. -/
def doubleChar (c : Char) : List Char :=
  let n := c.toNat
  if isPrintable c && !isBreak c && c != '"' && c != '\\' then [c]
  else
    let hex := fun (mark : Char) (width : Nat) => '\\' :: mark :: Text.upperHexDigits width n
    match n with
    | 0x00 => ['\\', '0']
    | 0x07 => ['\\', 'a']
    | 0x08 => ['\\', 'b']
    | 0x09 => ['\\', 't']
    | 0x0A => ['\\', 'n']
    | 0x0B => ['\\', 'v']
    | 0x0C => ['\\', 'f']
    | 0x0D => ['\\', 'r']
    | 0x1B => ['\\', 'e']
    | 0x22 => ['\\', '"']
    | 0x5C => ['\\', '\\']
    | 0x85 => ['\\', 'N']
    | 0xA0 => ['\\', '_']
    | 0x2028 => ['\\', 'L']
    | 0x2029 => ['\\', 'P']
    | _ => if n ≤ 0xFF then hex 'x' 2 else if n ≤ 0xFFFF then hex 'u' 4 else hex 'U' 8

def Sheet.double (s : Sheet) (cs : List Char) : Sheet :=
  ((s.indicator ['"'] true false false).putAll (cs.flatMap doubleChar)).indicator
    ['"'] false false false

/-- How many breaks end a text, no more than two being counted, and whether it is nothing else. -/
def endingBreaks (cs : List Char) : Nat × Bool :=
  match cs.reverse with
  | c :: d :: _ => (if isBreak c then (if isBreak d then 2 else 1) else 0, false)
  | [c] => (if isBreak c then 1 else 0, true)
  | [] => (0, true)

/-- The sign that a literal text needs for the breaks at its end. -/
def chompingSign (cs : List Char) : List Char :=
  match endingBreaks cs with
  | (0, _) => ['-']
  | (1, false) => []
  | _ => ['+']

/-- The lines of a literal text, of which the last character was a break or not. -/
def Sheet.literalChars (s : Sheet) (broken : Bool) : List Char → Sheet
  | [] => s
  | c :: cs =>
    if isBreak c then ({ s.putBreak c with fresh := true }).literalChars true cs
    else
      let s := if broken then s.indented else s
      ({ s.put c with fresh := false }).literalChars false cs

/-- Writes a text line by line, as it is. -/
def Sheet.literal (s : Sheet) (cs : List Char) : Sheet :=
  let hint := if cs.head?.any fun c => c == ' ' || isBreak c then ['2'] else []
  let sign := chompingSign cs
  let s := s.indicator ('|' :: hint ++ sign) true false false
  let s := { s.putBreak '\n' with openEnded := sign == ['+'], fresh := true, spaced := true }
  s.literalChars true cs

/-- The indentation one level further in. -/
def deeper (indent : Int) : Int := if indent < 0 then 0 else indent + 2

def Sheet.scalar (s : Sheet) (style : Style) (cs : List Char) : Sheet :=
  let inner := { s with indent := if s.indent < 0 then 2 else s.indent + 2 }
  let done := match style with
    | .plain => inner.plain cs
    | .single => inner.single cs
    | .double => inner.double cs
    | .literal => inner.literal cs
    | .folded => inner.literal cs
  { done with indent := s.indent }

def Sheet.text (s : Sheet) (t : String) : Sheet :=
  s.scalar (styleOf (Manner.of t.toList) (wantedStyle t)) t.toList

/-- The most octets of a key that stands before its colon on one line. -/
def maxSimpleKey : Nat := 128

/-- Whether a key stands before its colon on one line. -/
def isSimpleKey (t : String) : Bool :=
  t.utf8ByteSize ≤ maxSimpleKey && !(Manner.of t.toList).lines

/-- Numbers are positional from 1e-5 up to 1e16, and no sign marks a positive exponent. -/
def realLayout : Decimal.Layout := ⟨-4, 16, false⟩

def numberText : Num → List Char
  | .integer i _ _ => Json.intText i
  | .real x => (Decimal.text realLayout x).toList

/-- Writes a key and its colon, after which a value is to follow. -/
def Sheet.key (s : Sheet) (k : String) : Sheet :=
  let s := s.indented
  if isSimpleKey k then (s.text k).indicator [':'] false false false
  else (((s.indicator ['?'] true false true).text k).indented).indicator [':'] true false true

mutual

/-- Writes a value, as one of an entry or not. The items of a sequence that is the value of an entry
begin in the column of its key. -/
def Sheet.value (s : Sheet) (inEntry : Bool) : Value → Sheet
  | .null => s.scalar .plain "null".toList
  | .bool true => s.scalar .plain "true".toList
  | .bool false => s.scalar .plain "false".toList
  | .num n => s.scalar .plain (numberText n)
  | .str t => s.text t
  | .list [] => (s.indicator ['['] true true false).indicator [']'] false false false
  | .map [] => (s.indicator ['{'] true true false).indicator ['}'] false false false
  | .list items =>
    let inner := if inEntry && !s.fresh && 0 ≤ s.indent then s.indent else deeper s.indent
    { ({ s with indent := inner }).items items with indent := s.indent }
  | .map entries =>
    { ({ s with indent := deeper s.indent }).entries entries with indent := s.indent }

def Sheet.items (s : Sheet) : List Value → Sheet
  | [] => s
  | v :: vs => (((s.indented.indicator ['-'] true false true).value false v)).items vs

def Sheet.entries (s : Sheet) : List (String × Value) → Sheet
  | [] => s
  | (k, v) :: rest => ((s.key k).value true v).entries rest

end

/-- Ends a text; a scalar that was left open is closed by a marker. -/
def Sheet.finish (s : Sheet) : String :=
  let s := s.indented
  let s := if s.openEnded then (s.indicator ['.', '.', '.'] true false false).indented else s
  String.ofList s.written.reverse

/-- The YAML text of a value. -/
def print (v : Value) : String := (Sheet.blank.value false v).finish

end Runbook.Yaml
