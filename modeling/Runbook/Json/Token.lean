import Runbook.Value
import Runbook.Text.Hex
import Runbook.Text.Natural

set_option autoImplicit false
set_option relaxedAutoImplicit false

/-!
The tokens of a JSON text: brackets, separators, texts and scalars. White space between them is
dropped.
-/

namespace Runbook.Json

open Runbook.Number
open Runbook.Text (hexValue?)

inductive Token
  | openList
  | closeList
  | openMap
  | closeMap
  | comma
  | colon
  | text (s : String)
  | scalar (v : Value)

def hexValues? (a b c d : Char) : Option Nat := do
  let a ← hexValue? a
  let b ← hexValue? b
  let c ← hexValue? c
  let d ← hexValue? d
  return ((a * 16 + b) * 16 + c) * 16 + d

def escaped? : Char → Option Char
  | '"' => some '"'
  | '\\' => some '\\'
  | '/' => some '/'
  | 'b' => some (Char.ofNat 8)
  | 'f' => some (Char.ofNat 12)
  | 'n' => some '\n'
  | 'r' => some '\r'
  | 't' => some '\t'
  | _ => none

/-- The text between two quotes: control characters must be escaped, and surrogates must come in
pairs. -/
def unescape? : List Char → Option (List Char)
  | [] => some []
  | '\\' :: 'u' :: a :: b :: c :: d :: cs => do
    let n ← hexValues? a b c d
    if 0xDC00 ≤ n && n ≤ 0xDFFF then none
    else if 0xD800 ≤ n && n ≤ 0xDBFF then
      match cs with
      | '\\' :: 'u' :: e :: f :: g :: h :: rest => do
        let m ← hexValues? e f g h
        if 0xDC00 ≤ m && m ≤ 0xDFFF then
          let tail ← unescape? rest
          return Char.ofNat (0x10000 + (n - 0xD800) * 0x400 + (m - 0xDC00)) :: tail
        else none
      | _ => none
    else
      let tail ← unescape? cs
      return Char.ofNat n :: tail
  | '\\' :: c :: cs => do
    let c ← escaped? c
    let tail ← unescape? cs
    return c :: tail
  | c :: cs =>
    if c == '\\' || c.toNat < 0x20 then none
    else (unescape? cs).map (c :: ·)

/-- A number split into its parts. -/
structure Numeral where
  negative : Bool
  whole : List Char
  fraction : List Char
  exponentNegative : Bool
  exponent : List Char
  isInteger : Bool

/-- The digits after a mark, of which there must be at least one, and what follows them. -/
def digits? (cs : List Char) : Option (List Char × List Char) :=
  match cs.takeWhile Char.isDigit with
  | [] => none
  | ds => some (ds, cs.dropWhile Char.isDigit)

/-- The parts of a number, if it is written as JSON writes numbers. -/
def Numeral.parse? (cs : List Char) : Option Numeral := do
  let (negative, cs) := match cs with
    | '-' :: rest => (true, rest)
    | _ => (false, cs)
  let (whole, cs) ← digits? cs
  if whole.length > 1 && whole.head? == some '0' then none
  let (fraction, cs) ← match cs with
    | '.' :: rest => digits? rest
    | _ => some ([], cs)
  match cs with
  | [] => return ⟨negative, whole, fraction, false, [], fraction.isEmpty⟩
  | c :: rest =>
    if c != 'e' && c != 'E' then none
    let (minus, rest) := match rest with
      | '-' :: r => (true, r)
      | '+' :: r => (false, r)
      | _ => (false, rest)
    let (exponent, rest) ← digits? rest
    if rest.isEmpty then return ⟨negative, whole, fraction, minus, exponent, false⟩ else none

/-- As many leading digits as fit a word of 64 bits, read after a first part of it, and how many
digits were left over. -/
def wordPrefix (word : Nat) : List Char → Nat × Nat
  | [] => (word, 0)
  | c :: cs =>
    if word * 10 + (c.toNat - 48) < Text.bound64 then wordPrefix (word * 10 + (c.toNat - 48)) cs
    else (word, (c :: cs).length)

/-- The number nearest to a power of ten. -/
def powerOfTen (n : Nat) : Option Binary64 := Binary64.ofRatio? false (Nat.pow 10 n) 1

/-- A number times or over a power of ten, taken in steps of at most 308. -/
def scaleByTen : Nat → Binary64 → Int → Option Binary64
  | 0, x, _ => some x
  | n + 1, x, e =>
    if e.natAbs ≤ 308 then
      if 0 ≤ e then do x.mul? (← powerOfTen e.natAbs) else do x.div? (← powerOfTen e.natAbs)
    else if x.magnitude == 0 then some x
    else if 0 ≤ e then none
    else do scaleByTen n (← x.div? (← powerOfTen 308)) (e + 308)

/-- The number that a numeral with a point or an exponent writes: its leading digits as a word,
rounded, and scaled by a power of ten, rounded again. `none` if it is out of range. -/
def Numeral.real? (n : Numeral) : Option Binary64 := do
  let (word, left) := wordPrefix 0 n.whole
  let (word, unread) := wordPrefix word n.fraction
  let shift : Int := left - (n.fraction.length - unread : Nat)
  let magnitude := Text.decimal n.exponent
  if Nat.pow 2 31 ≤ magnitude then
    if word == 0 || n.exponentNegative then return Binary64.zero n.negative else none
  else
    let e : Int := if n.exponentNegative then shift - magnitude else shift + magnitude
    let start ← Binary64.ofRatio? n.negative word 1
    scaleByTen 8 start e

/-- The number of a numeral: an integer if it is written as one, is not minus zero and fits. -/
def Numeral.toNum? (n : Numeral) : Option Num :=
  let magnitude : Int := Text.decimal n.whole
  if n.isInteger && !(n.negative && magnitude == 0) then
    match Num.ofInt? (if n.negative then -magnitude else magnitude) with
    | some i => some i
    | none => n.real?.map .real
  else n.real?.map .real

/-- The value of a word or number. -/
def scalar? (cs : List Char) : Option Value :=
  if cs == "null".toList then some .null
  else if cs == "true".toList then some (.bool true)
  else if cs == "false".toList then some (.bool false)
  else (Numeral.parse? cs).bind fun n => n.toNum?.map .num

/-- An element begun but not finished: the characters of a text so far, last first, and whether the
last one is an open escape; or those of a word or number. -/
inductive Unfinished
  | none
  | text (seen : List Char) (escaped : Bool)
  | scalar (seen : List Char)

/-- The characters of words and numbers. -/
def isScalarChar (c : Char) : Bool := c.isAlphanum || c == '+' || c == '-' || c == '.'

/-- The one-character token of a character; white space has none. -/
def punctuation? : Char → Option (List Token)
  | '[' => some [.openList]
  | ']' => some [.closeList]
  | '{' => some [.openMap]
  | '}' => some [.closeMap]
  | ',' => some [.comma]
  | ':' => some [.colon]
  | ' ' => some []
  | '\n' => some []
  | '\r' => some []
  | '\t' => some []
  | _ => none

/-- The tokens a character completes outside an element, and the element it begins. -/
def Token.begin (c : Char) : Option (List Token × Unfinished) :=
  if c == '"' then some ([], .text [] false)
  else if isScalarChar c then some ([], .scalar [c])
  else (punctuation? c).map (·, .none)

/-- The tokens of a text that continues an unfinished element. -/
def Token.lexFrom : Unfinished → List Char → Option (List Token)
  | .none, [] => some []
  | .text _ _, [] => Option.none
  | .scalar seen, [] => (scalar? seen.reverse).map fun v => [.scalar v]
  | .none, c :: cs => do
    let (done, next) ← Token.begin c
    return done ++ (← Token.lexFrom next cs)
  | .text seen true, c :: cs => Token.lexFrom (.text (c :: seen) false) cs
  | .text seen false, c :: cs =>
    if c == '"' then do
      let s ← unescape? seen.reverse
      return .text (String.ofList s) :: (← Token.lexFrom .none cs)
    else Token.lexFrom (.text (c :: seen) (c == '\\')) cs
  | .scalar seen, c :: cs =>
    if isScalarChar c then Token.lexFrom (.scalar (c :: seen)) cs
    else do
      let v ← scalar? seen.reverse
      let (done, next) ← Token.begin c
      return .scalar v :: done ++ (← Token.lexFrom next cs)

def Token.lex? (cs : List Char) : Option (List Token) := Token.lexFrom .none cs

end Runbook.Json
