import Runbook.Headers
import Runbook.Text.Blank
import Runbook.Text.Hex
import Runbook.Value

set_option autoImplicit false
set_option relaxedAutoImplicit false

/-!
Settings of a project.
-/

namespace Runbook

/-- What a project settles for all its requests and sessions. The default headers are in order of
their names, each name once. -/
structure Settings where
  timeout : Nat
  followRedirects : Bool
  maxRedirects : Nat
  validateSsl : Bool
  defaultHeaders : Headers
  defaultContexts : Option (List String)
  deriving DecidableEq

namespace Settings

/-- Header lines in order of names with one set; a name that is there gets the new value. -/
def insertHeader (line : String × String) : Headers → Headers
  | [] => [line]
  | first :: rest =>
    if line.1 < first.1 then line :: first :: rest
    else if line.1 = first.1 then line :: rest
    else first :: insertHeader line rest

/-- Header lines in order of names with others set. -/
def mergeHeaders (headers others : Headers) : Headers :=
  others.foldl (fun acc line => insertHeader line acc) headers

/-- The settings of a project that has none of its own. -/
def standard : Settings where
  timeout := 30000
  followRedirects := true
  maxRedirects := 10
  validateSsl := true
  defaultHeaders := [("User-Agent", "rest-flow/0.2.0")]
  defaultContexts := none

/-- Settings under others, which win; default headers are put together. -/
def merge (s others : Settings) : Settings :=
  { others with
    defaultHeaders := mergeHeaders s.defaultHeaders others.defaultHeaders
    defaultContexts := others.defaultContexts.or s.defaultContexts }

/-- What settings must not be. -/
inductive Fault
  | zeroTimeout
  | blankHeaderName (name : String)
  deriving DecidableEq

/-- White space as it is shown in a message. -/
def shownBlank (c : Char) : List Char :=
  match c with
  | ' ' => [' ']
  | '\t' => ['\\', 't']
  | '\n' => ['\\', 'n']
  | '\r' => ['\\', 'r']
  | c => "\\u\x7b".toList ++ Nat.toDigits 16 c.toNat ++ "\x7d".toList

def Fault.message : Fault → String
  | .zeroTimeout => "timeout must be greater than 0"
  | .blankHeaderName name =>
    "defaultHeaders contains an empty header name: \"" ++
      String.ofList (name.toList.flatMap shownBlank) ++ "\""

def fault? (s : Settings) : Option Fault :=
  if s.timeout = 0 then some .zeroTimeout
  else (s.defaultHeaders.find? fun line => Text.isAllBlank line.1).map fun line =>
    .blankHeaderName line.1

def toValue (s : Settings) : Value :=
  .map [
    ("timeout", .natural s.timeout),
    ("followRedirects", .bool s.followRedirects),
    ("maxRedirects", .natural s.maxRedirects),
    ("validateSsl", .bool s.validateSsl),
    ("defaultHeaders", .map (s.defaultHeaders.map fun line => (line.1, .str line.2))),
    ("defaultContexts", .optional (s.defaultContexts.map .texts))]

end Settings

end Runbook
