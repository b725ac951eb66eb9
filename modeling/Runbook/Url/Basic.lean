import Runbook.Url.Address

set_option autoImplicit false
set_option relaxedAutoImplicit false

/-!
Absolute URLs and their text.
-/

namespace Runbook

inductive Url.Host
  | domain (name : String)
  | ipv4 (address : Nat)
  | ipv6 (words : List Nat)
  deriving DecidableEq

/-- What stands between two slashes and the path. A port that is the default of the scheme is left
out. -/
structure Url.Authority where
  username : String
  password : Option String
  host : Option Url.Host
  port : Option Nat
  deriving DecidableEq

/-- The path of a URL: a hierarchy of segments as text, empty or beginning with a slash, or plain
text that nothing can be resolved against. -/
inductive Url.Path
  | hierarchy (text : String)
  | plain (text : String)
  deriving DecidableEq

/-- An absolute URL, every part of it percent-encoded. -/
structure Url where
  scheme : String
  authority : Option Url.Authority
  path : Url.Path
  query : Option String
  fragment : Option String
  deriving DecidableEq

namespace Url

/-- What may be wrong with the text of a URL. -/
inductive Fault
  | emptyHost
  | domain
  | port
  | ipv4
  | ipv6
  | hostCharacter
  | noBase
  | plainBase
  deriving DecidableEq

def Fault.message : Fault → String
  | .emptyHost => "empty host"
  | .domain => "invalid international domain name"
  | .port => "invalid port number"
  | .ipv4 => "invalid IPv4 address"
  | .ipv6 => "invalid IPv6 address"
  | .hostCharacter => "invalid domain character"
  | .noBase => "relative URL without a base"
  | .plainBase => "relative URL with a cannot-be-a-base base"

/-- How a scheme treats slashes, hosts and drive letters. -/
inductive SchemeKind
  | file
  | special
  | general
  deriving DecidableEq

def SchemeKind.of (scheme : String) : SchemeKind :=
  if scheme == "file" then .file
  else if scheme ∈ ["http", "https", "ws", "wss", "ftp"] then .special
  else .general

/-- Whether backslashes are slashes. -/
def SchemeKind.isSpecial (kind : SchemeKind) : Bool := kind != .general

/-- The port that a scheme uses when none is given. -/
def defaultPort? (scheme : String) : Option Nat :=
  match scheme with
  | "http" => some 80
  | "ws" => some 80
  | "https" => some 443
  | "wss" => some 443
  | "ftp" => some 21
  | _ => none

def Host.text : Host → String
  | .domain name => name
  | .ipv4 address => String.ofList (ipv4Text address)
  | .ipv6 words => String.ofList ('[' :: ipv6Text words ++ [']'])

def Authority.text (a : Authority) : String :=
  let user := match a.username, a.password with
    | "", none => ""
    | name, none => name ++ "@"
    | name, some password => name ++ ":" ++ password ++ "@"
  let port := match a.port with
    | some n => ":" ++ toString n
    | none => ""
  user ++ (a.host.map Host.text).getD "" ++ port

def Path.text : Path → String
  | .hierarchy text => text
  | .plain text => text

/-- The text of the authority with its slashes; a path that begins with two slashes where no
authority stands is kept apart from one by a dot. -/
def authorityText (u : Url) : String :=
  match u.authority, u.path with
  | some a, _ => "//" ++ a.text
  | none, .hierarchy text => if text.toList.take 2 == ['/', '/'] then "/." else ""
  | none, .plain _ => ""

def text (u : Url) : String :=
  u.scheme ++ ":" ++ u.authorityText ++ u.path.text ++
    (u.query.map ("?" ++ ·)).getD "" ++ (u.fragment.map ("#" ++ ·)).getD ""

end Url

end Runbook
