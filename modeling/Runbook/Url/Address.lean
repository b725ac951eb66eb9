import Runbook.Text.Hex
import Runbook.Text.Split

set_option autoImplicit false
set_option relaxedAutoImplicit false

/-!
Internet addresses as hosts. A version 4 address is up to four numbers, decimal, octal or
hexadecimal, of which the last fills all remaining octets; a version 6 address is eight words of
which one run of zeros may be left out.
-/

namespace Runbook.Url

open Runbook.Text (hexValue? split)

/-- The number that digits write in a base. -/
def numberIn (base : Nat) (cs : List Char) : Nat :=
  cs.foldl (fun n c => n * base + (hexValue? c).getD 0) 0

/-- Whether a text has digits of a base alone. -/
def allDigits (base : Nat) (cs : List Char) : Bool :=
  cs.all fun c => match hexValue? c with
    | some d => d < base
    | none => false

/-- The number of a part of a version 4 address: hexadecimal after `0x`, octal after a zero. -/
def ipv4Number? (cs : List Char) : Option Nat :=
  let (base, digits) : Nat × List Char := match cs with
    | '0' :: 'x' :: rest => (16, rest)
    | '0' :: 'X' :: rest => (16, rest)
    | '0' :: c :: rest => (8, c :: rest)
    | _ => (10, cs)
  if cs.isEmpty then none
  else if allDigits base digits then some (numberIn base digits)
  else none

/-- Whether a domain has to be a version 4 address, which it has if its last label, an empty one
after a final dot apart, is a number. -/
def endsInNumber (domain : List Char) : Bool :=
  let last := match (split '.' domain).reverse with
    | [] :: label :: _ => label
    | label :: _ => label
    | [] => []
  (!last.isEmpty && last.all Char.isDigit) || (ipv4Number? last).isSome

/-- The octets that come before the last number, as the high octets of an address. -/
def highOctets : Nat → List Nat → Nat
  | _, [] => 0
  | place, n :: ns => n * Nat.pow 256 place + highOctets (place - 1) ns

/-- The version 4 address of a domain. -/
def ipv4? (domain : List Char) : Option Nat := do
  let parts := split '.' domain
  let parts := if parts.getLast? == some [] then parts.dropLast else parts
  if 4 < parts.length then none
  let numbers ← parts.mapM ipv4Number?
  let last ← numbers.getLast?
  let others := numbers.dropLast
  if Nat.pow 256 (4 - others.length) ≤ last then none
  else if others.any (255 < ·) then none
  else return highOctets 3 others + last

def ipv4Text (n : Nat) : List Char :=
  ((List.range 4).reverse.map fun place => n / Nat.pow 256 place % 256).map (Nat.toDigits 10)
    |> List.intercalate ['.']

/-- The text split at the first double colon. -/
def splitAtGap : List Char → Option (List Char × List Char)
  | ':' :: ':' :: rest => some ([], rest)
  | c :: rest => (splitAtGap rest).map fun (left, right) => (c :: left, right)
  | [] => none

/-- A word of a version 6 address. -/
def ipv6Word? (cs : List Char) : Option Nat :=
  if cs.isEmpty || 4 < cs.length || !allDigits 16 cs then none else some (numberIn 16 cs)

/-- An octet of a version 4 address inside a version 6 one: decimal, without a leading zero. -/
def ipv4Octet? (cs : List Char) : Option Nat :=
  if cs.isEmpty || !cs.all Char.isDigit || (1 < cs.length && cs.head? == some '0') then none
  else if numberIn 10 cs ≤ 255 then some (numberIn 10 cs)
  else none

/-- The two words of a version 4 address inside a version 6 one. -/
def ipv4Words? (cs : List Char) : Option (List Nat) := do
  match ← (split '.' cs).mapM ipv4Octet? with
  | [a, b, c, d] => return [a * 256 + b, c * 256 + d]
  | _ => none

/-- The words of a run of a version 6 address; only the last run of it may end in a version 4
address. -/
def ipv6Run? (isLast : Bool) (cs : List Char) : Option (List Nat) :=
  if cs.isEmpty then some []
  else
    let parts := split ':' cs
    match parts.getLast? with
    | some tail =>
      if isLast && tail.contains '.' then do
        return (← parts.dropLast.mapM ipv6Word?) ++ (← ipv4Words? tail)
      else parts.mapM ipv6Word?
    | none => none

/-- The eight words of a version 6 address. -/
def ipv6? (cs : List Char) : Option (List Nat) :=
  match splitAtGap cs with
  | none =>
    if cs.isEmpty then none
    else (ipv6Run? true cs).bind fun words => if words.length == 8 then some words else none
  | some (left, right) => do
    let high ← ipv6Run? false left
    let low ← ipv6Run? true right
    if 7 < high.length + low.length then none
    else return high ++ List.replicate (8 - high.length - low.length) 0 ++ low

/-- The start and length of the longest run of zeros, the first one of several. -/
def longestZeros (words : List Nat) : Nat × Nat :=
  let runs := (List.range words.length).map fun i =>
    (i, ((words.drop i).takeWhile (· == 0)).length)
  runs.foldl (fun best run => if best.2 < run.2 then run else best) (0, 0)

/-- Words in hexadecimal, joined by colons. -/
def ipv6Words (words : List Nat) : List Char :=
  List.intercalate [':'] (words.map (Nat.toDigits 16))

/-- The text of a version 6 address: the longest run of at least two zeros is left out. -/
def ipv6Text (words : List Nat) : List Char :=
  let (start, length) := longestZeros words
  if length < 2 then ipv6Words words
  else ipv6Words (words.take start) ++ ':' :: ':' :: ipv6Words (words.drop (start + length))

example : (ipv4? "0x7f.1".toList).map ipv4Text = some "127.0.0.1".toList := by decide +kernel
example : (ipv6? "::ffff:1.2.3.4".toList).map ipv6Text = some "::ffff:102:304".toList := by
  decide +kernel
example : ipv6? "1:2:3:4:5:6:7::8".toList = none := by decide +kernel

end Runbook.Url
