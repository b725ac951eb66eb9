import Runbook.Value
import Runbook.Number.Shortest
import Runbook.Text.Utf8
import Runbook.Text.Hex

set_option autoImplicit false
set_option relaxedAutoImplicit false

/-!
JSON text of values: the compact form, without any white space, and the indented form, with one
member or item on a line.
-/

namespace Runbook.Json

open Runbook.Number

/-- A character inside a JSON text. -/
def escape (c : Char) : List Char :=
  match c with
  | '"' => ['\\', '"']
  | '\\' => ['\\', '\\']
  | '\n' => ['\\', 'n']
  | '\r' => ['\\', 'r']
  | '\t' => ['\\', 't']
  | c =>
    if c.toNat == 8 then ['\\', 'b']
    else if c.toNat == 12 then ['\\', 'f']
    else if c.toNat < 0x20 then
      ['\\', 'u', '0', '0', Text.lowerHex (c.toNat / 16), Text.lowerHex (c.toNat % 16)]
    else [c]

/-- A text in quotes. -/
def quote (s : String) : List Char := '"' :: s.toList.flatMap escape ++ ['"']

/-- Numbers are positional from 1e-5 up to 1e16 and carry the sign of their exponent elsewhere. -/
def realLayout : Decimal.Layout := ⟨-4, 16, true⟩

def intText (i : Int) : List Char :=
  if i < 0 then '-' :: Decimal.digitsOf i.natAbs else Decimal.digitsOf i.natAbs

def number : Num → List Char
  | .integer i _ _ => intText i
  | .real x => (Decimal.text realLayout x).toList

mutual

/-- The compact JSON text of a value. -/
def compact : Value → List Char
  | .null => "null".toList
  | .bool true => "true".toList
  | .bool false => "false".toList
  | .num n => number n
  | .str s => quote s
  | .list [] => ['[', ']']
  | .list (v :: vs) => '[' :: compact v ++ compactItems vs
  | .map [] => ['{', '}']
  | .map ((k, v) :: rest) => '{' :: quote k ++ ':' :: compact v ++ compactFields rest

/-- The items after the first, and the closing bracket. -/
def compactItems : List Value → List Char
  | [] => [']']
  | v :: vs => ',' :: compact v ++ compactItems vs

/-- The members after the first, and the closing brace. -/
def compactFields : List (String × Value) → List Char
  | [] => ['}']
  | (k, v) :: rest => ',' :: quote k ++ ':' :: compact v ++ compactFields rest

end

/-- A line break and the indentation of a level. -/
def newline (level : Nat) : List Char := '\n' :: List.replicate (2 * level) ' '

mutual

/-- The indented JSON text of a value at a level. -/
def indented (level : Nat) : Value → List Char
  | .list (v :: vs) =>
    '[' :: newline (level + 1) ++ indented (level + 1) v ++ indentedItems level vs
  | .map ((k, v) :: rest) =>
    '{' :: newline (level + 1) ++ quote k ++ ':' :: ' ' :: indented (level + 1) v ++
      indentedFields level rest
  | .null => compact .null
  | .bool b => compact (.bool b)
  | .num n => compact (.num n)
  | .str s => compact (.str s)
  | .list [] => compact (.list [])
  | .map [] => compact (.map [])

/-- The items after the first, and the closing bracket on a line of its own. -/
def indentedItems (level : Nat) : List Value → List Char
  | [] => newline level ++ [']']
  | v :: vs => ',' :: newline (level + 1) ++ indented (level + 1) v ++ indentedItems level vs

/-- The members after the first, and the closing brace on a line of its own. -/
def indentedFields (level : Nat) : List (String × Value) → List Char
  | [] => newline level ++ ['}']
  | (k, v) :: rest =>
    ',' :: newline (level + 1) ++ quote k ++ ':' :: ' ' :: indented (level + 1) v ++
      indentedFields level rest

end

def print (v : Value) : String := String.ofList (compact v)

def printIndented (v : Value) : String := String.ofList (indented 0 v)

/-- The octets of the compact JSON text. -/
def printBytes (v : Value) : Text.Bytes := Text.encode (print v)

end Runbook.Json
