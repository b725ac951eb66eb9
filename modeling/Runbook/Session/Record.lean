import Runbook.Session.Basic

set_option autoImplicit false
set_option relaxedAutoImplicit false

/-!
Records of requests. Each request of a saved session has a directory named by a number and its
action; a new request gets the number after the highest that is recorded or was executed.
-/

namespace Runbook

open Runbook.Files

/-- A directory that records a request. -/
structure Recorded where
  identifier : Nat
  actionName : String
  directory : Path
  deriving DecidableEq

namespace Recorded

/-- A character in the name of a directory: an ASCII letter, digit, underscore or dash stands for
itself, and a dash for any other. -/
def safeChar (c : Char) : Char := if c.isAlphanum || c == '_' || c == '-' then c else '-'

/-- The name of an action as part of the name of a directory. -/
def safeName (action : String) : String := String.ofList (action.toList.map safeChar)

def directoryName (identifier : Nat) (action : String) : String :=
  toString identifier ++ "-" ++ safeName action

/-- The number and action in the name of a directory, if it begins with a number of 32 bits. -/
def parseName? (name : String) : Option (Nat × String) := do
  let digits := name.toList.takeWhile Char.isDigit
  let identifier ← Text.natural? Text.bound32 digits
  let rest := match name.toList.dropWhile Char.isDigit with
    | '-' :: rest => rest
    | rest => rest
  return (identifier, String.ofList rest)

/-- The record in a directory, if its name is one of a record. -/
def ofDirectory? (dir : Path) (name : String) : Option Recorded :=
  (parseName? name).map fun (identifier, action) => ⟨identifier, action, dir.join name⟩

end Recorded

namespace Session

def requestsPath? (s : Session) : Option Path := s.directory.map (·.join "requests")

/-- The records of a session, in order of their numbers. -/
def recorded (s : Session) (t : Tree) : List Recorded :=
  match s.requestsPath? with
  | none => []
  | some dir =>
    ((t.directoriesOf dir).filterMap (Recorded.ofDirectory? dir)).mergeSort fun a b =>
      decide (a.identifier ≤ b.identifier)

/-- The highest number that is recorded or was executed. -/
def highest (s : Session) (t : Tree) : Nat :=
  ((s.recorded t).map (·.identifier) ++ s.executed.map (·.identifier)).foldl max 0

def nextIdentifier (s : Session) (t : Tree) : Except Error Nat :=
  if s.highest t + 1 < Text.bound32 then .ok (s.highest t + 1)
  else .error (.invalidRequest (.identifiersExhausted s.name))

end Session

end Runbook
