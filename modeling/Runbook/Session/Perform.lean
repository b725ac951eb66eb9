import Runbook.Session.Record

set_option autoImplicit false
set_option relaxedAutoImplicit false

/-!
Requests of a session: they are built against the session and the options given with them, sent,
recorded, and their outputs become variables of the session. A request that could not be sent is
recorded like one that was answered without a status.
-/

namespace Runbook

open Runbook.Files

/-- What is given with one request: contexts and variables in front of those of the session. -/
structure BuildOptions where
  contexts : List String
  vars : Fields
  deriving DecidableEq

def BuildOptions.none : BuildOptions := ⟨[], []⟩

/-- An action with its references replaced, and the scope it was done in. -/
structure Filled where
  action : Action
  fields : Fields
  scope : Scope

structure Built where
  action : Action
  fields : Fields
  descriptor : Request.Descriptor

structure Prepared where
  built : Built
  identifier : Nat
  dumpDirectory : Option Path

/-- The requests of a flow, in order. -/
structure FlowRun where
  flowName : String
  executed : List Executed

namespace Session

variable {σ : Type}

/-- The scope of a request: its variables over its contexts and the session. -/
def requestScope (s : Session) (t : Tree) (o : BuildOptions) : Except Error Scope := do
  let contexts ← o.contexts.mapM (s.project.contextScope t)
  return .node o.vars (contexts ++ [s.scope])

def fill (s : Session) (t : Tree) (ref : ActionRef) (o : BuildOptions) : Except Error Filled := do
  let action ← s.project.resolveAction t ref
  let scope ← s.requestScope t o
  return ⟨action, action.interpolate scope, scope⟩

def build (s : Session) (t : Tree) (ref : ActionRef) (o : BuildOptions) : Except Error Built := do
  let filled ← s.fill t ref o
  match Request.describe filled.fields filled.scope s.project.settings with
  | .ok descriptor => return ⟨filled.action, filled.fields, descriptor⟩
  | .error fault => throw (.invalidRequest fault)

/-- A request that is ready to be sent, with its number and the directory of its record. -/
def prepare (s : Session) (t : Tree) (ref : ActionRef) (o : BuildOptions) :
    Except Error Prepared := do
  let built ← s.build t ref o
  let identifier ← s.nextIdentifier t
  let dumpDirectory := s.requestsPath?.map
    (·.join (Recorded.directoryName identifier built.action.name))
  return ⟨built, identifier, dumpDirectory⟩

/-- Makes the directory of a record, if there is to be one. -/
def makeRecord (t : Tree) : Option Path → Tree.Change
  | none => (.ok (), t)
  | some dir => t.makeDirectories dir

/-- Writes the response to a request that could not be sent, unless the transport wrote one. -/
def recordFailure (t : Tree) (dumps : Option DumpPaths) (r : Response) : Tree.Change :=
  match dumps with
  | none => (.ok (), t)
  | some paths => if t.has paths.response then (.ok (), t) else paths.writeResponse t r

/-- Sends a request; that it could not be sent makes a response too. -/
def exchange (transport : Transport σ) (p : Prepared) (b : Bench σ) :
    Except Error Response × Bench σ :=
  let dumps := p.dumpDirectory.map DumpPaths.ofDirectory
  match transport p.built.descriptor dumps b.wire b.tree with
  | (.ok response, wire, tree) => (.ok response, { b with wire, tree })
  | (.error fault, wire, tree) =>
    let b := { b with wire, tree }.note .warn
      ("request " ++ toString p.identifier ++ " failed: " ++ fault.message)
    let response := Response.failure fault.message
    match recordFailure b.tree dumps response with
    | (.ok (), tree) => (.ok response, b.withTree tree)
    | (.error fault, tree) => (.error (.io fault), b.withTree tree)

/-- A session with the outputs that an action takes from a response. -/
def takeOutputs (s : Session) (fields : Fields) (r : Response) : Session :=
  match Action.outputsOf fields with
  | none => s
  | some templates => s.merge (Extract.outputs templates r s.scope)

/-- The record of a request and what came back. -/
def executedOf (p : Prepared) (r : Response) : Executed :=
  ⟨p.identifier, p.built.action.name, p.built.descriptor, r, p.dumpDirectory⟩

/-- A session after a response: it takes the outputs, is saved, and knows the request. -/
def conclude (s : Session) (p : Prepared) (r : Response) (b : Bench σ) :
    Except Error Executed × Session × Bench σ :=
  let s := s.takeOutputs p.built.fields r
  match s.save b.tree with
  | (.error fault, tree) => (.error (.io fault), s, b.withTree tree)
  | (.ok (), tree) =>
    let e := executedOf p r
    (.ok e, { s with executed := s.executed ++ [e] }, b.withTree tree)

/-- The notice that a request is sent. -/
def sendingText (p : Prepared) : String :=
  let d := p.built.descriptor
  "[" ++ toString p.identifier ++ "] " ++ d.method.text ++ " " ++ d.target.text ++ " (" ++
    p.built.action.name ++ ")"

/-- The notice of what came back. -/
def answeredText (p : Prepared) (r : Response) : String :=
  "[" ++ toString p.identifier ++ "] " ++ r.statusLine

def perform (transport : Transport σ) (s : Session) (ref : ActionRef) (o : BuildOptions)
    (b : Bench σ) : Except Error Executed × Session × Bench σ :=
  match s.prepare b.tree ref o with
  | .error e => (.error e, s, b)
  | .ok p =>
    match makeRecord b.tree p.dumpDirectory with
    | (.error fault, tree) => (.error (.io fault), s, b.withTree tree)
    | (.ok (), tree) =>
      match exchange transport p ((b.withTree tree).note .info (sendingText p)) with
      | (.error e, b) => (.error e, s, b)
      | (.ok r, b) => s.conclude p r (b.note .info (answeredText p r))

/-- Performs steps in order, up to the first that is given up. -/
def performSteps (transport : Transport σ) :
    List ActionRef → Session → Bench σ → Except Error (List Executed) × Session × Bench σ
  | [], s, b => (.ok [], s, b)
  | step :: rest, s, b =>
    match perform transport s step .none b with
    | (.error e, s, b) => (.error e, s, b)
    | (.ok executed, s, b) =>
      match performSteps transport rest s b with
      | (.error e, s, b) => (.error e, s, b)
      | (.ok more, s, b) => (.ok (executed :: more), s, b)

/-- The notice that a flow begins. -/
def flowText (f : Flow) : String :=
  "running flow '" ++ f.name ++ "' (" ++ toString f.steps.length ++ " steps)"

def performFlow (transport : Transport σ) (s : Session) (name : String) (b : Bench σ) :
    Except Error FlowRun × Session × Bench σ :=
  match s.project.flow b.tree name with
  | .error e => (.error e, s, b)
  | .ok flow =>
    match performSteps transport flow.steps s (b.note .info (flowText flow)) with
    | (.error e, s, b) => (.error e, s, b)
    | (.ok executed, s, b) => (.ok ⟨flow.name, executed⟩, s, b)

end Session

end Runbook
