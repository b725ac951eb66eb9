import Runbook.Extract
import Runbook.Project.Store
import Runbook.Record
import Runbook.Request.Build
import Runbook.Transport

set_option autoImplicit false
set_option relaxedAutoImplicit false

/-!
Sessions: variables over contexts, kept in a file between runs. One that is not saved has no
directory and leaves the files alone.
-/

namespace Runbook

open Runbook.Files

/-- A request that went through a transport, and what came back. -/
structure Executed where
  identifier : Nat
  actionName : String
  request : Request.Descriptor
  response : Response
  dumpDirectory : Option Path
  deriving DecidableEq

structure Session where
  project : Project
  name : String
  title : Option String
  directory : Option Path
  contextNames : List String
  vars : Fields
  parents : List Scope
  executed : List Executed

structure SessionFile where
  title : Option String
  contexts : List String
  vars : Fields
  deriving DecidableEq

namespace SessionFile

/-- What a directory without a session file holds. -/
def empty : SessionFile := ⟨none, [], []⟩

/-- The value of a session file; a title is left out if there is none. -/
def toValue (f : SessionFile) : Value :=
  .map ((f.title.map fun s => ("title", Value.str s)).toList ++
    [("contexts", .texts f.contexts), ("variables", .map f.vars)])

/-- The session file that fields describe. Contexts may be called environments. -/
def ofFields? (fields : Fields) : Option SessionFile := do
  let title ← Record.declared? fields ["title"]
  let contexts ← Record.declared? fields ["contexts", "environments"]
  let vars ← Record.declared? fields ["variables"]
  return {
    title := ← Record.default? (Record.nullable? Value.asText?) none title
    contexts := ← Record.default? Record.texts? [] contexts
    vars := ← Record.default? Value.asMap? [] vars }

end SessionFile

namespace Session

def fileName : String := "session.yaml"

/-- The name of sessions that are not saved. -/
def unsavedName : String := "unsaved"

/-- A session over contexts, without a directory. -/
def compose (p : Project) (t : Tree) (name : String) (contexts : List String)
    (vars : Fields) : Except Error Session := do
  let parents ← p.composeContexts t contexts
  return {
    project := p, name, title := none, directory := none, contextNames := contexts, vars
    parents, executed := [] }

def unsaved (p : Project) (t : Tree) (contexts : List String) (vars : Fields) :
    Except Error Session :=
  compose p t unsavedName contexts vars

/-- A session with a directory that nothing is written to yet. -/
def new (p : Project) (t : Tree) (name : String) (contexts : List String) (vars : Fields) :
    Except Error Session :=
  (compose p t name contexts vars).map fun s =>
    { s with directory := some (p.sessionPath name) }

def file (s : Session) : SessionFile := ⟨s.title, s.contextNames, s.vars⟩

/-- Writes the session file, if the session has a directory. -/
def save (s : Session) (t : Tree) : Tree.Change :=
  match s.directory with
  | none => (.ok (), t)
  | some dir => t.save (dir.join fileName) (Text.encode (Yaml.print s.file.toValue))

/-- A session just opened, saved at once. -/
def saved (opened : Except Error Session) (t : Tree) : Except Error Session × Tree :=
  match opened with
  | .error e => (.error e, t)
  | .ok s =>
    match s.save t with
    | (.ok (), t) => (.ok s, t)
    | (.error fault, t) => (.error (.io fault), t)

/-- A new session that is saved at once. -/
def create (p : Project) (t : Tree) (name : String) (contexts : List String)
    (vars : Fields) : Except Error Session × Tree :=
  saved (new p t name contexts vars) t

/-- A new session with a title that is saved at once. -/
def createTitled (p : Project) (t : Tree) (name title : String) (contexts : List String)
    (vars : Fields) : Except Error Session × Tree :=
  saved ((new p t name contexts vars).map fun s => { s with title := some title }) t

/-- What the session file in a directory holds. -/
def loadFile (t : Tree) (dir : Path) : Except Error SessionFile :=
  let p := dir.join fileName
  if t.isFile p then do
    match SessionFile.ofFields? (← loadFields t p) with
    | some f => return f
    | none => throw (.malformed p .misshapen)
  else .ok .empty

def load (p : Project) (t : Tree) (dir : Path) : Except Error Session :=
  let name := dir.fileName?.getD ""
  if t.isDirectory dir then do
    let f ← loadFile t dir
    let parents ← p.composeContexts t f.contexts
    return {
      project := p, name, title := f.title, directory := some dir, contextNames := f.contexts
      vars := f.vars, parents, executed := [] }
  else .error (.notFound .session name)

def openNamed (p : Project) (t : Tree) (name : String) : Except Error Session :=
  load p t (p.sessionPath name)

def defaultName : String := "default"

/-- The title of that session before it is saved. -/
def defaultTitle : String := "Default Session"

/-- The session that is used when none is named: the saved one if there is one. -/
def openDefault (p : Project) (t : Tree) : Except Error Session :=
  if t.isDirectory (p.sessionPath defaultName) then openNamed p t defaultName
  else (new p t defaultName [] []).map fun s => { s with title := some defaultTitle }

def set (s : Session) (name : String) (v : Value) : Session :=
  { s with vars := s.vars.insert name v }

/-- A session with variables set, in their order. -/
def merge (s : Session) (vars : Fields) : Session :=
  { s with vars := s.vars.merge vars }

/-- The scope of a session: its variables over its contexts. -/
def scope (s : Session) : Scope := .node s.vars s.parents

/-- A sum of lengths, unless it does not fit into a 64-bit word. -/
def addLength? (n length : Nat) : Option Nat :=
  if n + length < Text.bound64 then some (n + length) else none

/-- The sum of the lengths of all that came back. Where a sum on the way does not fit into a 64-bit
word there is none, and whatever asks for it stops. -/
def totalReceived (s : Session) : Option Nat :=
  s.executed.foldlM (fun n e => addLength? n e.response.contentLength) 0

end Session

end Runbook
