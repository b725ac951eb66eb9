import Runbook.Json.Printer
import Runbook.Session.Record
import Runbook.Transport
import Runbook.Url.Percent

set_option autoImplicit false
set_option relaxedAutoImplicit false

/-!
A viewer of a project's sessions. Three kinds of pages are shown, and every one of them is made from
what the files hold at that moment.
-/

namespace Runbook.Viewer

open Runbook.Files

/-- What may be asked for: the list of sessions, one session, or one recorded exchange. -/
inductive Route
  | sessions
  | session (name : String)
  | exchange (name : String) (identifier : Nat)
  deriving DecidableEq

/-- Why nothing is shown. -/
inductive Refusal
  | badRequest
  | notFound
  | failed
  deriving DecidableEq

def Refusal.status : Refusal → Nat
  | .badRequest => 400
  | .notFound => 404
  | .failed => 500

def Refusal.ofError : Error → Refusal
  | .notFound _ _ => .notFound
  | _ => .failed

/-- The outcome of an operation as the answer to a request. -/
def answered {α : Type} : Except Error α → Except Refusal α
  | .ok a => .ok a
  | .error e => .error (.ofError e)

/-- The text that a segment of a path writes. -/
def segmentText (cs : List Char) : Except Refusal String :=
  match Text.decode? (Url.percentDecode (Text.encode (String.ofList cs))) with
  | some s => .ok s
  | none => .error .badRequest

/-- The identifier that a segment of a path writes: a natural of 32 bits. -/
def segmentIdentifier (cs : List Char) : Except Refusal Nat := do
  match Text.natural? Text.bound32 (← segmentText cs).toList with
  | some n => return n
  | none => throw .badRequest

/-- The first segment of every route. -/
def rootSegment : List Char := "sessions".toList

/-- The segment before an identifier. -/
def requestsSegment : List Char := "requests".toList

/-- The route of a list of segments, of which none may be empty. -/
def Route.ofSegments : List (List Char) → Except Refusal Route
  | [top] => if top = rootSegment then .ok .sessions else .error .notFound
  | [top, name] =>
    if top = rootSegment ∧ name ≠ [] then (segmentText name).map .session else .error .notFound
  | [top, name, kind, identifier] =>
    if top = rootSegment ∧ name ≠ [] ∧ kind = requestsSegment ∧ identifier ≠ [] then do
      return .exchange (← segmentText name) (← segmentIdentifier identifier)
    else .error .notFound
  | _ => .error .notFound

/-- The path of a target, without query and fragment. -/
def pathOf (target : String) : List Char := target.toList.takeWhile fun c => c != '?' && c != '#'

def Route.parse (target : String) : Except Refusal Route :=
  match Text.split '/' (pathOf target) with
  | [] :: segments => Route.ofSegments segments
  | _ => .error .notFound

/-- An entry in the list of sessions: what the session is like, or why it cannot be opened. -/
structure Entry where
  name : String
  content : Except Error (Option String × Nat)

inductive Page
  | sessions (project : String) (entries : List Entry)
  | session (session : Session) (recorded : List Recorded)
  | exchange (record : Recorded) (request response : String)

/-- The entry of a session. -/
def entry (p : Project) (t : Tree) (name : String) : Entry :=
  ⟨name, (Session.openNamed p t name).map fun s => (s.title, (s.recorded t).length)⟩

def listed (p : Project) (t : Tree) (name : String) : Except Refusal Session :=
  if name ∈ p.sessionNames t then answered (Session.openNamed p t name) else .error .notFound

/-- The text of a message file; one that cannot be read is shown empty. -/
def messageText (t : Tree) (file : Path) : String :=
  match t.read file with
  | .ok content => Text.decodeLossy content
  | .error _ => ""

def exchangePage (t : Tree) (r : Recorded) : Page :=
  let files := DumpPaths.ofDirectory r.directory
  .exchange r (messageText t files.request) (messageText t files.response)

def page (p : Project) (t : Tree) : Route → Except Refusal Page
  | .sessions => .ok (.sessions p.name ((p.sessionNames t).map (entry p t)))
  | .session name => do
    let s ← listed p t name
    return .session s (s.recorded t)
  | .exchange name identifier => do
    let s ← listed p t name
    match (s.recorded t).find? (·.identifier == identifier) with
    | some r => return exchangePage t r
    | none => throw .notFound

/-- The answer to a request for a target, in the project of a directory. -/
def answer (t : Tree) (root : Path) (target : String) : Except Refusal Page := do
  let route ← Route.parse target
  let p ← answered (Project.load t root)
  page p t route

/-- The members of a title, if there is one. -/
def titleFields (title : Option String) : Fields :=
  (title.map fun s => ("title", Value.str s)).toList

def Entry.toValue (e : Entry) : Value :=
  match e.content with
  | .ok (title, requests) =>
    .map ([("name", .str e.name)] ++ titleFields title ++ [("requests", .natural requests)])
  | .error cause =>
    .map [("name", .str e.name), ("requests", .natural 0), ("error", .str cause.message)]

def recordValue (r : Recorded) : Value :=
  .map [
    ("identifier", .natural r.identifier),
    ("action_name", .str r.actionName),
    ("directory", .str r.directory.text)]

def Page.toValue : Page → Value
  | .sessions project entries =>
    .map [("project", .str project), ("sessions", .list (entries.map Entry.toValue))]
  | .session s recorded =>
    .map ([("name", .str s.name)] ++ titleFields s.title ++ [
      ("contexts", .texts s.contextNames),
      ("variables", .map s.vars),
      ("requests", .list (recorded.map recordValue))])
  | .exchange r request response =>
    .map [
      ("identifier", .natural r.identifier),
      ("action_name", .str r.actionName),
      ("request", .str request),
      ("response", .str response)]

end Runbook.Viewer
