import Runbook.Url.Basic
import Runbook.Url.Percent

set_option autoImplicit false
set_option relaxedAutoImplicit false

/-!
Reading the path of a URL. Segments that are a single dot vanish and a double dot takes the segment
before it away. In a `file` URL a drive letter, such as `C:`, stays where it is.
-/

namespace Runbook.Url

/-- A drive letter: a letter and a colon or bar. -/
def isDriveLetter : List Char → Bool
  | [a, b] => a.isAlpha && (b == ':' || b == '|')
  | _ => false

/-- A drive letter with a colon. -/
def isNormalDriveLetter : List Char → Bool
  | [a, b] => a.isAlpha && b == ':'
  | _ => false

/-- Whether a text begins with a drive letter that ends there or before a separator. -/
def startsWithDriveLetter : List Char → Bool
  | a :: b :: rest =>
    a.isAlpha && (b == ':' || b == '|') &&
      (match rest with
        | [] => true
        | c :: _ => c == '/' || c == '\\' || c == '?' || c == '#')
  | _ => false

/-- A path up to and with its last slash, and what follows. -/
def splitLastSlash (path : List Char) : List Char × List Char :=
  let last := (path.reverse.takeWhile (· != '/')).reverse
  (path.take (path.length - last.length), last)

/-- A path without its last segment. -/
def popSegment (kind : SchemeKind) (path : List Char) : List Char :=
  let (parents, last) := splitLastSlash path
  if kind == .file && isNormalDriveLetter last then path else parents

/-- Whether the slash at the end of a path has a segment before it that a double dot may take. -/
def isRemovable (path : List Char) : Bool :=
  match (splitLastSlash path.dropLast).1 with
  | [] => false
  | parents => !startsWithDriveLetter (path.drop parents.length)

def isSingleDot (segment : List Char) : Bool :=
  segment == ['.'] || segment.map Char.toLower == "%2e".toList

def isDoubleDot (segment : List Char) : Bool :=
  [ "..", "%2e%2e", "%2e.", ".%2e" ].any (·.toList == segment.map Char.toLower)

/-- A path being read: the text before the open segment, the open segment, last character first,
and whether the host still stands. -/
structure OpenPath where
  done : List Char
  segment : List Char
  keepsHost : Bool

/-- The path with a character of the input added to the open segment. -/
def OpenPath.push (kind : SchemeKind) (p : OpenPath) (c : Char) : OpenPath :=
  let encoded := (percentEncode inPathSet c).reverse
  let text := p.done ++ p.segment.reverse
  if kind == .file && isNormalDriveLetter (text.drop 1) then
    match p.segment.reverse with
    | [] => { p with done := p.done ++ ['/'], segment := encoded }
    | first :: rest =>
      { p with done := p.done ++ [first], segment := encoded ++ '/' :: rest.reverse }
  else { p with segment := encoded ++ p.segment }

/-- The path with the open segment closed, by a slash or by the end of the path. -/
def OpenPath.close (kind : SchemeKind) (p : OpenPath) (slash : Bool) : OpenPath :=
  let segment := p.segment.reverse
  let tail := if slash then ['/'] else []
  if isDoubleDot segment then
    let trimmed :=
      if p.done.getLast? == some '/' && isRemovable p.done then p.done.dropLast else p.done
    let path := if trimmed.isEmpty then trimmed else popSegment kind trimmed
    ⟨if slash && path.getLast? != some '/' then path ++ ['/'] else path, [], p.keepsHost⟩
  else if isSingleDot segment then
    ⟨if p.done.getLast? == some '/' then p.done else p.done ++ ['/'], [], p.keepsHost⟩
  else if kind == .file && p.done.length == 1 && isDriveLetter segment then
    ⟨p.done ++ segment.take 1 ++ ':' :: tail, [], false⟩
  else ⟨p.done ++ segment ++ tail, [], p.keepsHost⟩

/-- The path that an input continues, and the input after it. Outside a URL of its own a path holds
question marks and number signs too. -/
def OpenPath.walk (kind : SchemeKind) (stops : Bool) : OpenPath → List Char → OpenPath × List Char
  | p, [] => (p.close kind false, [])
  | p, c :: cs =>
    if c == '/' || (c == '\\' && kind.isSpecial) then
      OpenPath.walk kind stops (p.close kind true) cs
    else if stops && (c == '?' || c == '#') then (p.close kind false, c :: cs)
    else OpenPath.walk kind stops (p.push kind c) cs

/-- What reading a path gives: its text, whether the host still stands, and the input after it. -/
structure ReadPath where
  text : List Char
  keepsHost : Bool
  rest : List Char

/-- The path that an input adds to a text; one of a `file` URL has a single slash in front. -/
def readPath (kind : SchemeKind) (stops : Bool) (start input : List Char) : ReadPath :=
  let (p, rest) := OpenPath.walk kind stops ⟨start, [], true⟩ input
  let text := if kind == .file then '/' :: p.done.dropWhile (· == '/') else p.done
  ⟨text, p.keepsHost, rest⟩

/-- The path after an authority; a special URL always has one. -/
def readPathStart (kind : SchemeKind) (hasHost stops : Bool) (input : List Char) : ReadPath :=
  match kind, input with
  | .general, [] => ⟨[], true, []⟩
  | .general, c :: cs =>
    if c == '?' || c == '#' then ⟨[], true, c :: cs⟩
    else if c == '/' then readPath .general stops [] (c :: cs)
    else readPath .general stops ['/'] (c :: cs)
  | kind, input =>
    if kind == .file && !hasHost then readPath kind stops [] input
    else match input with
      | c :: cs =>
        if c == '/' || c == '\\' then readPath kind stops ['/'] cs
        else readPath kind stops ['/'] (c :: cs)
      | [] => readPath kind stops ['/'] []

end Runbook.Url
