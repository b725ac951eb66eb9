import Runbook.Url.Path
import Runbook.Url.Domain
import Runbook.Url.Form

set_option autoImplicit false
set_option relaxedAutoImplicit false

/-!
Reading URLs, on their own or against a base, as the URL standard lays down.
-/

namespace Runbook.Url

/-- The text of a URL as it is read: without controls and spaces at the ends, and without tabs and
line breaks anywhere. -/
def clean (cs : List Char) : List Char :=
  let outer := fun c : Char => c.toNat ≤ 0x20
  ((cs.dropWhile outer).reverse.dropWhile outer).reverse.filter
    fun c => c != '\t' && c != '\n' && c != '\r'

def isSchemeChar (c : Char) : Bool := c.isAlphanum || c == '+' || c == '-' || c == '.'

/-- The scheme of a text, in small letters, and what follows its colon. -/
def scheme? (cs : List Char) : Option (String × List Char) :=
  match cs.head?, cs.dropWhile isSchemeChar with
  | some c, ':' :: rest =>
    if c.isAlpha then some (String.ofList ((cs.takeWhile isSchemeChar).map Char.toLower), rest)
    else none
  | _, _ => none

/-- Slashes, and backslashes in special URLs. -/
def isSlash (c : Char) : Bool := c == '/' || c == '\\'

def endsAuthority (kind : SchemeKind) (c : Char) : Bool :=
  c == '/' || c == '?' || c == '#' || (kind.isSpecial && c == '\\')

/-- A text in percent-encoding. -/
def encodeAll (inSet : Char → Bool) (cs : List Char) : String :=
  String.ofList (cs.flatMap (percentEncode inSet))

/-- The characters that no host outside special URLs holds. -/
def isForbiddenInHost (c : Char) : Bool :=
  c.toNat == 0 || "\t\n\r #/:<>?@[\\]^|".toList.contains c

def bracketHost (cs : List Char) : Except Fault Host :=
  if cs.getLast? == some ']' then
    match ipv6? (cs.drop 1).dropLast with
    | some words => .ok (.ipv6 words)
    | none => .error .ipv6
  else .error .ipv6

/-- The host of a special URL: a version 6 address, a version 4 address or a domain. -/
def specialHost (cs : List Char) : Except Fault Host :=
  if cs.head? == some '[' then bracketHost cs
  else
    match (Text.decode? (percentDecode (Text.encode (String.ofList cs)))).bind
        (domainToAscii? ·.toList) with
    | none => .error .domain
    | some [] => .error .emptyHost
    | some name =>
      if endsInNumber name then
        match ipv4? name with
        | some address => .ok (.ipv4 address)
        | none => .error .ipv4
      else .ok (.domain (String.ofList name))

/-- The host of any other URL, which may be missing. -/
def generalHost (cs : List Char) : Except Fault (Option Host) :=
  if cs.head? == some '[' then (bracketHost cs).map some
  else if cs.any isForbiddenInHost then .error .hostCharacter
  else if cs.isEmpty then .ok none
  else .ok (some (.domain (encodeAll isControl cs)))

/-- A text cut where its host ends: at a colon outside brackets or at the end of the authority. -/
def hostSpan (kind : SchemeKind) : Bool → List Char → List Char × List Char
  | _, [] => ([], [])
  | inside, c :: cs =>
    if (c == ':' && !inside) || endsAuthority kind c then ([], c :: cs)
    else
      let inside := if c == '[' then true else if c == ']' then false else inside
      let (host, rest) := hostSpan kind inside cs
      (c :: host, rest)

/-- The port after a colon, unless it is missing or the default one, and what follows it. -/
def readPort (scheme : String) (cs : List Char) : Except Fault (Option Nat × List Char) :=
  let digits := cs.takeWhile Char.isDigit
  let rest := cs.dropWhile Char.isDigit
  let port := numberIn 10 digits
  let ends := match rest with
    | [] => true
    | c :: _ => isSlash c || c == '?' || c == '#'
  if 65535 < port || !ends then .error .port
  else if digits.isEmpty || some port == defaultPort? scheme then .ok (none, rest)
  else .ok (some port, rest)

/-- The user name and password of an authority, and what follows their at sign. -/
def readUserinfo (kind : SchemeKind) (cs : List Char) :
    Except Fault (String × Option String × List Char) :=
  let authority := cs.takeWhile (!endsAuthority kind ·)
  if !authority.contains '@' then .ok ("", none, cs)
  else
    let host := (authority.reverse.takeWhile (· != '@')).reverse
    let user := authority.take (authority.length - host.length - 1)
    let rest := cs.drop (user.length + 1)
    if user.isEmpty then
      match rest.head? with
      | some c => if endsAuthority kind c then .error .emptyHost else .ok ("", none, rest)
      | none => .ok ("", none, rest)
    else
      let name := user.takeWhile (· != ':')
      let password := (user.dropWhile (· != ':')).drop 1
      let encoded := if password.isEmpty then none else some (encodeAll inUserinfoSet password)
      .ok (encodeAll inUserinfoSet name, encoded, rest)

/-- The authority after two slashes, and what follows it. -/
def readAuthority (scheme : String) (cs : List Char) : Except Fault (Authority × List Char) := do
  let kind := SchemeKind.of scheme
  let (username, password, rest) ← readUserinfo kind cs
  let (hostText, rest) := hostSpan kind false rest
  let host ←
    if kind == .general then generalHost hostText
    else if hostText.isEmpty then .error .emptyHost
    else (specialHost hostText).map some
  if host.isNone && rest.head? == some ':' then throw .emptyHost
  let (port, rest) ← match rest with
    | ':' :: digits => readPort scheme digits
    | _ => .ok (none, rest)
  if host.isNone && (username != "" || password.isSome) then throw .emptyHost
  return (⟨username, password, host, port⟩, rest)

/-- The query and fragment at the end of a URL. -/
def readTail (kind : SchemeKind) : List Char → Option String × Option String
  | '?' :: rest =>
    let inSet := if kind.isSpecial then inSpecialQuerySet else inQuerySet
    let query := encodeAll inSet (rest.takeWhile (· != '#'))
    match rest.dropWhile (· != '#') with
    | _ :: fragment => (some query, some (encodeAll inFragmentSet fragment))
    | [] => (some query, none)
  | '#' :: fragment => (none, some (encodeAll inFragmentSet fragment))
  | _ => (none, none)

/-- A URL with a hierarchical path that was read, and its query and fragment. -/
def withPath (scheme : String) (authority : Option Authority) (p : ReadPath) : Url :=
  let (query, fragment) := readTail (SchemeKind.of scheme) p.rest
  ⟨scheme, authority, .hierarchy (String.ofList p.text), query, fragment⟩

def readAfterSlashes (scheme : String) (cs : List Char) : Except Fault Url := do
  let (authority, rest) ← readAuthority scheme cs
  return withPath scheme (some authority) (readPathStart (SchemeKind.of scheme) true true rest)

def fileAuthority (host : Option Host) : Option Authority := some ⟨"", none, host, none⟩

/-- The URL of a host and path after `file://`. A drive letter in the place of the host belongs to
the path, and takes a host in front of it away. -/
def readFileHost (cs : List Char) : Except Fault Url := do
  let hostText := cs.takeWhile fun c => !(isSlash c || c == '?' || c == '#')
  if isDriveLetter hostText then
    return withPath "file" (fileAuthority none) (readPath .file true ['/'] cs)
  else
    let host ←
      if hostText.isEmpty then .ok none
      else (specialHost hostText).map fun host =>
        if host = .domain "localhost" then none else some host
    let p := readPathStart .file host.isSome true (cs.drop hostText.length)
    return withPath "file" (fileAuthority (if p.keepsHost then host else none)) p

def pathText (u : Url) : List Char := u.path.text.toList

def host? (u : Url) : Option Host := u.authority.bind (·.host)

def withFragment (u : Url) (cs : List Char) : Url :=
  { u with fragment := some (encodeAll inFragmentSet cs) }

/-- A URL with another query and fragment. -/
def withTail (u : Url) (cs : List Char) : Url :=
  let (query, fragment) := readTail (SchemeKind.of u.scheme) cs
  { u with query, fragment }

/-- The URL of the text after `file:`, or of a text against a base that is a `file` URL. -/
def readFile (base : Option Url) (cs : List Char) : Except Fault Url :=
  match cs with
  | c :: rest =>
    if isSlash c then
      match rest with
      | d :: after =>
        if isSlash d then readFileHost after else .ok (rooted c rest)
      | [] => .ok (rooted c rest)
    else match base with
      | none => .ok (withPath "file" (fileAuthority none) (readPath .file true ['/'] cs))
      | some b =>
        if c == '?' then .ok (b.withTail cs)
        else if c == '#' then .ok (b.withFragment rest)
        else if startsWithDriveLetter cs then
          .ok (withPath "file" (fileAuthority none) (readPath .file true ['/'] cs))
        else
          let start := popSegment .file b.pathText
          .ok (withPath "file" b.authority (readPath .file true start cs))
  | [] => match base with
    | none => .ok (withPath "file" (fileAuthority none) (readPath .file true ['/'] []))
    | some b => .ok { b with fragment := none }
where
  /-- The URL of a path from the root: the drive letter or host of the base stays. -/
  rooted (c : Char) (rest : List Char) : Url :=
    let plain := withPath "file" (fileAuthority none) (readPath .file true [] (c :: rest))
    match base with
    | none => plain
    | some b =>
      if startsWithDriveLetter rest then plain
      else
        let first := (b.pathText.drop 1).takeWhile (· != '/')
        if isNormalDriveLetter first then
          withPath "file" (fileAuthority none) (readPath .file true ('/' :: first) (c :: rest))
        else withPath "file" (fileAuthority b.host?) (readPath .file true [] (c :: rest))

/-- The URL of a text without a scheme, against a base that is no `file` URL. -/
def readRelative (b : Url) (cs : List Char) : Except Fault Url :=
  let kind := SchemeKind.of b.scheme
  match cs with
  | [] => .ok { b with fragment := none }
  | c :: rest =>
    if c == '?' then .ok (b.withTail cs)
    else if c == '#' then .ok (b.withFragment rest)
    else if isSlash c then
      match rest with
      | d :: after =>
        if c == '/' && d == '/' then readAfterSlashes b.scheme after
        else if isSlash d then readAfterSlashes b.scheme (after.dropWhile isSlash)
        else .ok (withPath b.scheme b.authority (readPath kind true ['/'] rest))
      | [] => .ok (withPath b.scheme b.authority (readPath kind true ['/'] []))
    else
      let start := match popSegment kind b.pathText with
        | [] => ['/']
        | path => path
      .ok (withPath b.scheme b.authority (readPath kind true start cs))

/-- The URL of a scheme outside the special ones. -/
def readGeneral (scheme : String) (cs : List Char) : Except Fault Url :=
  match cs with
  | '/' :: '/' :: rest => readAfterSlashes scheme rest
  | '/' :: rest => .ok (withPath scheme none (readPath .general true ['/'] rest))
  | _ =>
    let isPlain := fun c : Char => c != '?' && c != '#'
    let (query, fragment) := readTail .general (cs.dropWhile isPlain)
    .ok ⟨scheme, none, .plain (encodeAll isControl (cs.takeWhile isPlain)), query, fragment⟩

/-- The URL of a text, read against a base if there is one. -/
def readAgainst (base : Option Url) (input : String) : Except Fault Url :=
  let cs := clean input.toList
  match scheme? cs with
  | some (scheme, rest) =>
    match SchemeKind.of scheme with
    | .file => readFile (base.filter (·.scheme == "file")) rest
    | .general => readGeneral scheme rest
    | .special =>
      let slashes := (rest.takeWhile isSlash).length
      match base with
      | some b =>
        if slashes < 2 && b.scheme == scheme then readRelative b rest
        else readAfterSlashes scheme (rest.drop slashes)
      | none => readAfterSlashes scheme (rest.drop slashes)
  | none =>
    match base with
    | none => .error .noBase
    | some b =>
      if cs.head? == some '#' then .ok (b.withFragment (cs.drop 1))
      else match b.path with
        | .plain _ => .error .plainBase
        | .hierarchy _ =>
          if b.scheme == "file" then readFile (some b) cs else readRelative b cs

def read (input : String) : Except Fault Url := readAgainst none input

/-- The URL that a text means from a base. -/
def join (base : Url) (reference : String) : Except Fault Url := readAgainst (some base) reference

/-- The URL with a port, unless it has no host or its scheme uses none. -/
def setPort? (u : Url) (port : Nat) : Option Url :=
  match u.authority with
  | some a =>
    if a.host.isNone || u.scheme == "file" then none
    else
      let port := if some port == defaultPort? u.scheme then none else some port
      some { u with authority := some { a with port } }
  | none => none

def setPath (u : Url) (path : String) : Url :=
  let cs := path.toList.filter fun c => c != '\t' && c != '\n' && c != '\r'
  match u.path with
  | .plain _ =>
    let text := match path.toList with
      | '/' :: _ => "%2F" ++ encodeAll isControl (cs.drop 1)
      | _ => encodeAll isControl cs
    { u with path := .plain text }
  | .hierarchy _ =>
    let p := readPathStart (SchemeKind.of u.scheme) u.host?.isSome false cs
    { u with path := .hierarchy (String.ofList p.text) }

def appendPairs (u : Url) (pairs : List (String × String)) : Url :=
  { u with query := some (String.ofList (formAppend (u.query.getD "").toList pairs)) }

end Runbook.Url
