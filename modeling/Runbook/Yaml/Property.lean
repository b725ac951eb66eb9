import Runbook.Text.Hex
import Runbook.Yaml.Character
import Runbook.Yaml.Token

set_option autoImplicit false
set_option relaxedAutoImplicit false

/-!
Anchors, aliases, tags and directives.
-/

namespace Runbook.Yaml

open Runbook.Text (Bytes)

/-- Whether the name of an anchor or alias may end before what comes next. -/
def endsName (next : Option Char) : Bool :=
  isBlankOrEnd next || next.any fun c => c ∈ ['?', ':', ',', ']', '}', '%', '@', Char.ofNat 96]

/-- The name of an anchor or alias, after its indicator. -/
def anchorName (c : Cursor) : Option (String × Cursor) :=
  let (name, c) := c.span isNameChar
  if name.isEmpty || !endsName c.next? then none else some (String.ofList name, c)

/-- Characters of tags that stand for themselves. -/
def isTagChar (c : Char) : Bool := isNameChar c || c ∈ ";/?:@&=+$.!~*'()".toList

/-- Characters of tags written out in full. -/
def isUriChar (c : Char) : Bool := isTagChar c || c ∈ [',', '[', ']']

/-- How many octets a character has by its first one. -/
def octetCount? (n : Nat) : Option Nat :=
  if n < 0x80 then some 1
  else if 0xC0 ≤ n && n < 0xE0 then some 2
  else if 0xE0 ≤ n && n < 0xF0 then some 3
  else if 0xF0 ≤ n && n < 0xF8 then some 4
  else none

/-- An octet of an escaped character: a first one says how many follow. -/
def continueEscape? (missing octet : Nat) : Option Nat :=
  if missing = 0 then (octetCount? octet).map (· - 1)
  else if 0x80 ≤ octet && octet < 0xC0 then some (missing - 1)
  else none

/-- The octets of a tag and what follows them; escapes write the octets of a character, of which
some may be missing. -/
def tagFrom (isChar : Char → Bool) : Nat → List Char → Option (Bytes × List Char)
  | missing, '%' :: a :: b :: cs => do
    let octet := (← Text.hexValue? a) * 16 + (← Text.hexValue? b)
    let missing ← continueEscape? missing octet
    let (rest, after) ← tagFrom isChar missing cs
    return (UInt8.ofNat octet :: rest, after)
  | _, '%' :: _ => none
  | 0, c :: cs =>
    if isChar c then do
      let (rest, after) ← tagFrom isChar 0 cs
      return (UInt8.ofNat c.toNat :: rest, after)
    else some ([], c :: cs)
  | 0, [] => some ([], [])
  | _ + 1, _ => none

/-- The octets of a tag, and the cursor behind it. -/
def tagText (isChar : Char → Bool) (c : Cursor) : Option (Bytes × Cursor) := do
  let (octets, after) ← tagFrom isChar 0 c.rest
  return (octets, c.skip (c.rest.length - after.length))

/-- A handle, from its exclamation mark: a name and perhaps a second mark. -/
def tagHandle (c : Cursor) : Option (List Char × Cursor) :=
  if c.next? == some '!' then
    let (name, after) := (c.skip 1).span isNameChar
    if after.next? == some '!' then some ('!' :: name ++ ['!'], after.skip 1)
    else some ('!' :: name, after)
  else none

def octets (cs : List Char) : Bytes := cs.map fun c => UInt8.ofNat c.toNat

/-- Whether a tag may end before what comes next. -/
def endsTag (inFlow : Bool) (next : Option Char) : Bool :=
  isBlankOrEnd next || (inFlow && next == some ',')

/-- A tag that is written out in full between angle brackets, after the first of them. -/
def fullTag (c : Cursor) : Option (Token × Cursor) := do
  let (suffix, c) ← tagText isUriChar c
  if suffix.isEmpty || c.next? != some '>' then none
  return (.tag [] suffix, c.skip 1)

/-- A tag with a handle, from its exclamation mark. A handle that does not close belongs to the
suffix of the primary handle, and a lone mark is a tag by itself. -/
def shortTag (c : Cursor) : Option (Token × Cursor) := do
  let (handle, c) ← tagHandle c
  let (suffix, c) ← tagText isTagChar c
  if 1 < handle.length && handle.getLast? == some '!' then
    if suffix.isEmpty then none else return (.tag (octets handle) suffix, c)
  else
    let suffix := octets (handle.drop 1) ++ suffix
    if suffix.isEmpty then return (.tag [] (octets ['!']), c)
    else return (.tag (octets ['!']) suffix, c)

def tag (inFlow : Bool) (c : Cursor) : Option (Token × Cursor) := do
  let (token, after) ← if c.after? 1 == some '<' then fullTag (c.skip 2) else shortTag c
  if endsTag inFlow after.next? then return (token, after) else none

def versionNumber (c : Cursor) : Option (Nat × Cursor) :=
  let (ds, after) := c.span Char.isDigit
  if ds.isEmpty || 9 < ds.length then none
  else some (ds.foldl (fun n d => 10 * n + (d.toNat - 48)) 0, after)

/-- The version that a directive states, after its name. -/
def versionDirective (c : Cursor) : Option (Token × Cursor) := do
  let (major, c) ← versionNumber (c.skipWhile isBlank)
  if c.next? != some '.' then none
  let (minor, c) ← versionNumber (c.skip 1)
  return (.version major minor, c)

/-- The handle and what it stands for that a directive states, after its name. -/
def tagDirective (c : Cursor) : Option (Token × Cursor) := do
  let (handle, c) ← tagHandle (c.skipWhile isBlank)
  if handle.getLast? != some '!' || !c.next?.any isBlank then none
  let (leading, c) ← tagText isUriChar (c.skipWhile isBlank)
  if leading.isEmpty || !isBlankOrEnd c.next? then none
  return (.tagDirective (octets handle) leading, c)

/-- A directive, after its percent sign, and the rest of its line. -/
def directive (c : Cursor) : Option (Token × Cursor) := do
  let (name, c) := c.span isNameChar
  if name.isEmpty || !isBlankOrEnd c.next? then none
  let (token, c) ←
    if name == "YAML".toList then versionDirective c
    else if name == "TAG".toList then tagDirective c
    else none
  let c := c.skipWhile isBlank
  let c := if c.next? == some '#' then c.skipWhile (!isBreak ·) else c
  if isBreakOrEnd c.next? then return (token, c.skipBreak) else none

end Runbook.Yaml
