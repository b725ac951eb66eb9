import Runbook.Flow
import Runbook.Project.Basic
import Runbook.Yaml.Printer

set_option autoImplicit false
set_option relaxedAutoImplicit false

/-!
What a project stores: actions, flows and contexts, by their names.
-/

namespace Runbook.Project

open Runbook.Files

def actionNames (p : Project) (t : Tree) : List String := t.yamlNames p.actionsPath

def flowNames (p : Project) (t : Tree) : List String := t.yamlNames p.flowsPath

/-- Names that are listed below a directory, if all the directories there can be entered. -/
def listed (t : Tree) (dir : Path) (names : List String) : Except Error (List String) :=
  ((t.enterBelow dir).map fun _ => names).mapError .io

def listActions (p : Project) (t : Tree) : Except Error (List String) :=
  listed t p.actionsPath (p.actionNames t)

def listFlows (p : Project) (t : Tree) : Except Error (List String) :=
  listed t p.flowsPath (p.flowNames t)

def sessionNames (p : Project) (t : Tree) : List String :=
  sortNames (t.directoriesOf p.sessionsPath)

/-- The names of the contexts, in order; hidden directories are none. -/
def contextNames (p : Project) (t : Tree) : List String :=
  sortNames ((t.directoriesOf p.contextsPath).filter (!isHidden ·))

/-- The fields of an action and its name among them, if there is such an action. -/
def actionData (p : Project) (t : Tree) (name : String) : Except Error (Option Fields) :=
  let file := p.actionFile name
  if t.isFile file then
    (loadFields t file).map fun fields => some (fields.insert "action_name" (.str name))
  else .ok none

def action (p : Project) (t : Tree) (name : String) : Except Error Action := do
  match ← p.actionData t name with
  | some fields => return ⟨name, fields⟩
  | none => throw (.notFound .action name)

def resolveAction (p : Project) (t : Tree) : ActionRef → Except Error Action
  | .named name => p.action t name
  | .inline fields => .ok (.ofFields fields)

def flow (p : Project) (t : Tree) (name : String) : Except Error Flow :=
  let file := p.flowFile name
  if t.isFile file then do
    match Flow.ofFields? name (← loadFields t file) with
    | some f => return f
    | none => throw (.malformed file .misshapen)
  else .error (.notFound .flow name)

def variants (p : Project) (t : Tree) (context : String) : Except Error (List String) :=
  let dir := p.contextsPath.join context
  if t.isDirectory dir then .ok (sortNames ((t.filesOf dir).filterMap yamlStem?))
  else .error (.notFound .context context)

/-- The variables of a context variant; one that is missing has none. -/
def variantVars (p : Project) (t : Tree) (name : String) : Except Error Fields :=
  let file := p.variantFile name
  if t.isFile file then loadFields t file else .ok []

/-- The variables of a context variant, which must be there. -/
def contextVariables (p : Project) (t : Tree) (name : String) : Except Error Fields :=
  let file := p.variantFile name
  if t.isFile file then loadFields t file else .error (.notFound .context name)

/-- The scope of a context variant, which must be there. -/
def contextScope (p : Project) (t : Tree) (name : String) : Except Error Scope :=
  (p.contextVariables t name).map fun fields => .node fields []

/-- The contexts that stand behind the explicit ones of every session. -/
def defaultContexts (p : Project) (t : Tree) : List String :=
  p.settings.defaultContexts.getD (p.contextNames t)

/-- Names of contexts without those of a context that was named before, in whatever variant. -/
def firstOfEach : List String → List String
  | [] => []
  | name :: rest => name :: (firstOfEach rest).filter fun other => contextOf other != contextOf name

/-- The default contexts that are not among explicit ones in whatever variant. -/
def remainingDefaults (p : Project) (t : Tree) (explicit : List String) : List String :=
  (p.defaultContexts t).filter fun name => !(explicit.map contextOf).contains (contextOf name)

/-- The scopes of a session: the explicit contexts, which must be there, and behind them the default
ones, of which those that are missing are empty. -/
def composeContexts (p : Project) (t : Tree) (explicit : List String) :
    Except Error (List Scope) := do
  let first ← (firstOfEach explicit).mapM (p.contextScope t)
  let rest ← (p.remainingDefaults t explicit).mapM fun name => do
    return Scope.node (← p.variantVars t name) []
  return first ++ rest

/-- Writes a text to a file and makes the directories above it. -/
def write (t : Tree) (file : Path) (text : String) : Except Error Path × Tree :=
  match t.save file (Text.encode text) with
  | (.ok (), t) => (.ok file, t)
  | (.error fault, t) => (.error (.io fault), t)

def writeAction (p : Project) (t : Tree) (name text : String) : Except Error Path × Tree :=
  write t (p.actionFile name) text

def writeFlow (p : Project) (t : Tree) (name text : String) : Except Error Path × Tree :=
  write t (p.flowFile name) text

def writeContext (p : Project) (t : Tree) (name text : String) : Except Error Path × Tree :=
  write t (p.variantFile name) text

/-- Writes a context variant that holds variables. -/
def createContext (p : Project) (t : Tree) (name : String) (vars : Fields) :
    Except Error Path × Tree :=
  p.writeContext t name (Yaml.print (.map vars))

end Runbook.Project
