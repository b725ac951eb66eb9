import Runbook.Text.Hex
import Runbook.Text.Natural
import Runbook.Value

set_option autoImplicit false
set_option relaxedAutoImplicit false

/-!
What the text of an unmarked scalar means: null, a truth value, a number, or itself.
-/

namespace Runbook.Yaml

open Runbook.Number

/-- What a scalar means. An integer is out of range if it needs more than 64 bits, but no more than
128; beyond that it is read as a real number. -/
inductive Meaning
  | null
  | bool (b : Bool)
  | num (n : Num)
  | notFinite
  | outOfRange
  | text

/-- The spellings of null. -/
def isNull (s : String) : Bool := s ∈ ["null", "Null", "NULL", "~"]

/-- The spellings of truth values. -/
def bool? (s : String) : Option Bool :=
  if s ∈ ["true", "True", "TRUE"] then some true
  else if s ∈ ["false", "False", "FALSE"] then some false
  else none

/-- The natural that digits of a base write, of which there must be one. -/
def digits? (base : Nat) (cs : List Char) : Option Nat :=
  if cs.isEmpty then none
  else cs.foldlM (fun n c => (Text.hexValue? c).bind fun d =>
    if d < base then some (n * base + d) else none) 0

/-- Whether a text is digits that make no number, because of a zero in front of others. -/
def isPaddedDigits (cs : List Char) : Bool :=
  let ds := match cs with
    | '-' :: rest => rest
    | '+' :: rest => rest
    | _ => cs
  1 < ds.length && ds.head? == some '0' && ds.all Char.isDigit

/-- The natural that a text without a sign writes, in base ten or the one its beginning tells. -/
def magnitude? : List Char → Option Nat
  | '0' :: 'x' :: cs => digits? 16 cs
  | '0' :: 'o' :: cs => digits? 8 cs
  | '0' :: 'b' :: cs => digits? 2 cs
  | cs => if isPaddedDigits cs then none else digits? 10 cs

/-- The integer that a text writes. -/
def integer? : List Char → Option Int
  | '-' :: cs => (magnitude? cs).map fun n => -(n : Int)
  | '+' :: cs => (magnitude? cs).map fun n => (n : Int)
  | cs => (magnitude? cs).map fun n => (n : Int)

/-- A real number split into its digits before and after the point and its exponent. -/
structure Parts where
  whole : List Char
  fraction : List Char
  exponent : Int

/-- The exponent that ends a real number. -/
def exponent? : List Char → Option Int
  | [] => some 0
  | c :: cs =>
    if c == 'e' || c == 'E' then
      let (negative, ds) := match cs with
        | '-' :: rest => (true, rest)
        | '+' :: rest => (false, rest)
        | _ => (false, cs)
      if ds.isEmpty || !ds.all Char.isDigit then none
      else some (if negative then -(Text.decimal ds : Int) else Text.decimal ds)
    else none

/-- The parts of a real number without a sign; there must be a digit before or after the point. -/
def parts? (cs : List Char) : Option Parts := do
  let whole := cs.takeWhile Char.isDigit
  let cs := cs.dropWhile Char.isDigit
  let (fraction, cs) := match cs with
    | '.' :: rest => (rest.takeWhile Char.isDigit, rest.dropWhile Char.isDigit)
    | _ => ([], cs)
  if whole.isEmpty && fraction.isEmpty then none
  return ⟨whole, fraction, ← exponent? cs⟩

/-- The order of magnitude beyond which a number is surely too large or as good as zero. -/
def farExponent : Int := 400

/-- The number nearest to a real number, unless it is too large. -/
def Parts.nearest? (p : Parts) (negative : Bool) : Option Binary64 :=
  let ds := p.whole ++ p.fraction
  let digits := Text.decimal ds
  let e := p.exponent - p.fraction.length
  let size := e + (ds.dropWhile (· == '0')).length
  if digits = 0 || size < -farExponent then some (Binary64.zero negative)
  else if farExponent < size then none
  else Binary64.ofRatio? negative (digits * Nat.pow 10 e.toNat) (Nat.pow 10 (-e).toNat)

/-- The number that a text writes as a real one. -/
def real? : List Char → Option Binary64
  | '-' :: cs => (parts? cs).bind (·.nearest? true)
  | '+' :: cs => (parts? cs).bind (·.nearest? false)
  | cs => (parts? cs).bind (·.nearest? false)

/-- The spellings of numbers that are not finite. -/
def isNotFinite (s : String) : Bool :=
  s ∈ [".inf", ".Inf", ".INF", "+.inf", "+.Inf", "+.INF", "-.inf", "-.Inf", "-.INF",
    ".nan", ".NaN", ".NAN"]

/-- What a text means as an integer, if it is one. -/
def Meaning.ofInteger? (s : String) : Option Meaning := do
  let i ← integer? s.toList
  match Num.ofInt? i with
  | some n => return .num n
  | none =>
    let bound := if i < 0 then Nat.pow 2 127 + 1 else Nat.pow 2 128
    if i.natAbs < bound then return .outOfRange else none

/-- What a text means as a real number, if it is one. -/
def Meaning.ofReal? (s : String) : Option Meaning :=
  if isNotFinite s then some .notFinite
  else (real? s.toList).map fun x => .num (.real x)

/-- What an unmarked text means. -/
def Meaning.of (s : String) : Meaning :=
  if s.isEmpty || isNull s then .null
  else match bool? s with
    | some b => .bool b
    | none =>
      match Meaning.ofInteger? s with
      | some m => m
      | none =>
        if isPaddedDigits s.toList then .text else (Meaning.ofReal? s).getD .text

def Meaning.isText : Meaning → Bool
  | .text => true
  | _ => false

/-- The value of a meaning, if it has one; numbers that are not finite are null. -/
def Meaning.value? (s : String) : Meaning → Option Value
  | .null => some .null
  | .bool b => some (.bool b)
  | .num n => some (.num n)
  | .notFinite => some .null
  | .outOfRange => none
  | .text => some (.str s)

end Runbook.Yaml
