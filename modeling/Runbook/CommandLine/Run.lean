import Runbook.CommandLine.Help
import Runbook.Json.Printer

set_option autoImplicit false
set_option relaxedAutoImplicit false

/-!
Running a command over a tree of files. What is shown, what is told and how the files are changed is
the outcome; requests go to a transport that is not connected.
-/

namespace Runbook.CommandLine

open Runbook.Files

/-- Why a command was given up. A sum that does not fit stops the program after what it has
shown. -/
inductive Failure
  | project (path : String) (cause : Error)
  | sessionExists (name : String)
  | other (cause : Error)
  | overflow (shown : String)

namespace Failure

/-- What is shown before a command is given up. -/
def shown : Failure → String
  | .overflow shown => shown
  | _ => ""

/-- What is told of it. -/
def message : Failure → String
  | .project path cause =>
    "Error: failed to open project at " ++ path ++ ": " ++ cause.fullMessage
  | .sessionExists name => "Error: session '" ++ name ++ "' already exists"
  | .other cause => "Error: " ++ cause.fullMessage
  | .overflow _ => "attempt to add with overflow"

/-- The exit code of a command that was given up, or stopped. -/
def exit : Failure → Nat
  | .overflow _ => 101
  | _ => 1

end Failure

/-- Work on the files, with notices on the way, that may be given up. -/
abbrev Work (α : Type) := ExceptT Failure (StateM (Bench Unit)) α

def files : Work Tree := do return (← get).tree

/-- A notice is given. -/
def tell (level : Level) (text : String) : Work Unit := modify fun b => b.note level text

/-- The outcome of an operation that leaves the files alone. -/
def attempt {α : Type} (outcome : Except Error α) : Work α :=
  match outcome with
  | .ok a => return a
  | .error cause => throw (.other cause)

/-- The outcome of an operation that changes the files. -/
def changing {α : Type} (operation : Tree → Except Error α × Tree) : Work α := do
  let (outcome, t) := operation (← files)
  modify fun b => b.withTree t
  attempt outcome

/-- The outcome of an operation of a session, and the session after it. -/
def performing {α : Type} (operation : Bench Unit → Except Error α × Session × Bench Unit) :
    Work (α × Session) := do
  let (outcome, s, b) := operation (← get)
  set b
  return (← attempt outcome, s)

def line (text : String) : String := text ++ "\n"

def lines (texts : List String) : String := String.join (texts.map line)

def openSession (p : Project) (name : Option String) : Work Session := do
  let t ← files
  let s ← attempt <| match name with
    | some name => Session.openNamed p t name
    | none => Session.openDefault p t
  tell .info ("using session '" ++ s.name ++ "'")
  return s

/-- The notice that is given before anything is sent. -/
def tellTrust (p : Project) : Work Unit :=
  if p.settings.validateSsl then return () else tell .warn "TLS certificate validation is disabled"

def executedText (e : Executed) : String :=
  let first := "#" ++ toString e.identifier ++ " " ++ e.actionName ++ " " ++
    e.request.method.text ++ " " ++ e.request.target.text
  lines ([first, e.response.statusLine] ++
    e.response.headers.map (fun header => header.1 ++ ": " ++ header.2) ++
    ["", Text.decodeLossy e.response.body])

def contextText (name : String) (variants : List String) : String :=
  name ++ " (" ++ ", ".intercalate variants ++ ")"

def showContexts (p : Project) : Work String := do
  let t ← files
  let shown ← (p.contextNames t).mapM fun name => do
    return contextText name (← attempt (p.variants t name))
  return lines shown

def sendRequest (p : Project) (action : String) (against : Against) : Work String := do
  let s ← openSession p against.session
  tellTrust p
  let (executed, _) ← performing (s.perform .unconnected (.named action) against.options)
  return executedText executed

def runFlow (p : Project) (name : String) (session : Option String) : Work String := do
  let s ← openSession p session
  tellTrust p
  let (run, s) ← performing (s.performFlow .unconnected name)
  let shown := String.join (run.executed.map executedText)
  match s.totalReceived with
  | none => throw (.overflow shown)
  | some received =>
    let last := "flow '" ++ run.flowName ++ "': " ++ toString s.executed.length ++ " requests, " ++
      toString received ++ " bytes received"
    return shown ++ line last

/-- The references of an action that stand for nothing in a scope. -/
def unresolved (fields : Fields) (s : Scope) : List String :=
  let templated := fields.filter fun field => field.1 ∉ Template.metadataKeys
  (Template.references (.map templated)).filter fun path => (s.evaluate path).isNull

/-- Shows the fields of an action with their references replaced. -/
def showInterpolated (p : Project) (action : String) (against : Against) : Work String := do
  let s ← openSession p against.session
  let filled ← attempt (s.fill (← files) (.named action) against.options)
  for path in unresolved filled.action.fields filled.scope do
    tell .warn ("'" ++ path ++ "' does not resolve in this scope")
  return line (Json.printIndented (.map filled.fields))

/-- Creates a session, which must not be there. -/
def createSession (p : Project) (name : String) (title : Option String) (contexts : List String)
    (vars : Fields) : Work String := do
  let path := p.sessionPath name
  if (← files).has path then throw (.sessionExists name)
  match title with
  | some title =>
    let _ ← changing fun t => Session.createTitled p t name title contexts vars
  | none =>
    let s ← changing fun t => Session.create p t name contexts vars
    tell .info ("created session '" ++ s.name ++ "'")
  return line ("created session " ++ path.text)

def createContext (p : Project) (name : String) (vars : Fields) : Work String := do
  let path ← changing fun t => p.createContext t name vars
  return line ("created context " ++ path.text)

def perform (p : Project) : Command → Work String
  | .actions => do return lines (← attempt (p.listActions (← files)))
  | .flows => do return lines (← attempt (p.listFlows (← files)))
  | .sessions => do return lines (p.sessionNames (← files))
  | .contexts => showContexts p
  | .request action against => sendRequest p action against
  | .flow name session => runFlow p name session
  | .interpolate action against => showInterpolated p action against
  | .createSession name title contexts vars => createSession p name title contexts vars
  | .createContext name vars => createContext p name vars

def openProject (directory : Path) (path : String) : Work Project := do
  match Project.load (← files) (directory.join path) with
  | .error cause => throw (.project path cause)
  | .ok p =>
    tell .info ("project '" ++ p.name ++ "' at " ++ p.root.text)
    return p

def Invocation.work (i : Invocation) (directory : Path) : Work String := do
  perform (← openProject directory i.path) i.command

/-- What is seen of a run: the exit code, the text shown, the lines told, and the files after it. -/
structure Outcome where
  exit : Nat
  shown : String
  told : List String
  tree : Tree

/-- The exit code of arguments that make no sense. -/
def refusalExit : Nat := 2

def Invocation.run (i : Invocation) (directory : Path) (t : Tree) : Outcome :=
  let (result, b) := (i.work directory).run ⟨t, (), []⟩
  let notices := (b.notices.filter (·.isShown (.ofVerbosity i.verbosity))).map Notice.line
  match result with
  | .ok text => ⟨0, text, notices, b.tree⟩
  | .error failure => ⟨failure.exit, failure.shown, notices ++ [failure.message], b.tree⟩

/-- The outcome of arguments that make no invocation. -/
def Stop.outcome (environment : Option String) (t : Tree) : Stop → Outcome
  | .refused => ⟨refusalExit, "", [usage none], t⟩
  | .help verb => ⟨0, explanation environment verb, [], t⟩
  | .version => ⟨0, line (programName ++ " " ++ programVersion), [], t⟩

def run (environment : Option String) (directory : Path) (arguments : List String) (t : Tree) :
    Outcome :=
  match Invocation.read environment arguments with
  | .ok i => i.run directory t
  | .error stop => stop.outcome environment t

end Runbook.CommandLine
