import Runbook.CommandLine.Option
import Runbook.Record
import Runbook.Session.Perform

set_option autoImplicit false
set_option relaxedAutoImplicit false

/-!
Reading the command line. Arguments are taken from left to right. The value of an option is part of
its argument or the next argument, and it is not looked at before something else follows it.
-/

namespace Runbook.CommandLine

/-- Where a command is to run against: a session, and contexts and variables in front of it. -/
structure Against where
  session : Option String
  options : BuildOptions

/-- What is to be done. -/
inductive Command
  | actions
  | flows
  | sessions
  | contexts
  | request (action : String) (against : Against)
  | flow (name : String) (session : Option String)
  | interpolate (action : String) (against : Against)
  | createSession (name : String) (title : Option String) (contexts : List String)
    (vars : Fields)
  | createContext (name : String) (vars : Fields)

/-- A command, the project it is for, and how much is to be told. -/
structure Invocation where
  path : String
  verbosity : Nat
  command : Command

/-- Why there is nothing to be done: the arguments make no sense, or they ask for an explanation or
for the version. -/
inductive Stop
  | refused
  | help (verb : Option Verb)
  | version
  deriving DecidableEq

/-- What may be met before the verb, or after one. -/
structure Stage where
  verb : Option Verb

namespace Stage

def options (stage : Stage) : List Opt := (stage.verb.map Verb.options).getD outerOptions

def operands (stage : Stage) : Nat := ((stage.verb.bind Verb.operand?).map fun _ => 1).getD 0

def isVerb (stage : Stage) (word : String) : Bool :=
  stage.verb.isNone && (word == helpWord || (Verb.named? word).isSome)

def long? (stage : Stage) (name : List Char) : Option Opt :=
  stage.options.find? fun o => o.long.toList == name

def short? (stage : Stage) (c : Char) : Option Opt :=
  stage.options.find? fun o => o.short? == some c

end Stage

inductive Form
  | terminator
  | long (name : List Char) (attached : Option (List Char))
  | cluster (letters : List Char)
  | plain
  deriving DecidableEq

/-- The form of an argument; a dash alone is plain. -/
def Form.of (argument : String) : Form :=
  match argument.toList with
  | ['-', '-'] => .terminator
  | '-' :: '-' :: cs =>
    match Text.splitOnce? '=' cs with
    | some (name, value) => .long name (some value)
    | none => .long cs none
  | '-' :: c :: cs => .cluster (c :: cs)
  | _ => .plain

/-- What has been found at a stage: the values of options, how often more was asked to be told, the
operands, the option that is not looked at yet, and whether options have come to an end. -/
structure Found where
  values : List (Opt × String)
  verbosity : Nat
  operands : List String
  pending : Option (Opt × Option String)
  closed : Bool

namespace Found

def nothing : Found := ⟨[], 0, [], none, false⟩

/-- Whether the next argument is the value of an option. -/
def awaits (f : Found) : Bool := f.pending.any (·.2.isNone)

def take (f : Found) (o : Opt) (value : String) : Except Stop Found :=
  if o.accepts value && (o.isRepeatable || !(f.values.map (·.1)).contains o) then
    .ok { f with values := f.values ++ [(o, value)] }
  else .error .refused

/-- Looks at the option that is not looked at yet. -/
def settle (f : Found) : Except Stop Found :=
  match f.pending with
  | none => .ok f
  | some (_, none) => .error .refused
  | some (o, some value) => { f with pending := none }.take o value

/-- An option without a value. -/
def flag (f : Found) (stage : Stage) (o : Opt) : Except Stop Found := do
  let f ← f.settle
  match o with
  | .help => throw (.help stage.verb)
  | .version => throw .version
  | _ => return { f with verbosity := f.verbosity + 1 }

/-- An option with a value, which may come in the next argument. -/
def option (f : Found) (o : Opt) (attached : Option (List Char)) : Except Stop Found := do
  let f ← f.settle
  match attached with
  | some value => f.take o (String.ofList value)
  | none => return { f with pending := some (o, none) }

def long (f : Found) (stage : Stage) (name : List Char) (attached : Option (List Char)) :
    Except Stop Found :=
  match stage.long? name with
  | none => .error .refused
  | some o =>
    if o.takesValue then f.option o attached
    else if attached.isSome then .error .refused
    else f.flag stage o

/-- The value after the letter of an option, without an equals sign in front; an empty rest is
none. -/
def attachedTo : List Char → Option (List Char)
  | [] => none
  | '=' :: value => some value
  | value => some value

/-- An argument of letters, of which one that takes a value ends the letters. -/
def cluster (stage : Stage) : List Char → Found → Except Stop Found
  | [], f => .ok f
  | c :: cs, f =>
    match stage.short? c with
    | none => .error .refused
    | some o =>
      if o.takesValue then f.option o (attachedTo cs)
      else do cluster stage cs (← f.flag stage o)

def operand (f : Found) (stage : Stage) (argument : String) : Except Stop Found :=
  if f.operands.length < stage.operands then do
    let f ← f.settle
    return { f with operands := f.operands ++ [argument] }
  else .error .refused

/-- An argument that is neither option nor verb. -/
def plain (f : Found) (stage : Stage) (argument : String) : Except Stop Found :=
  match f.pending with
  | some (o, none) => .ok { f with pending := some (o, some argument) }
  | _ => f.operand stage argument

def value? (f : Found) (o : Opt) : Option String := (f.values.find? (·.1 == o)).map (·.2)

def valuesOf (f : Found) (o : Opt) : List String := (f.values.filter (·.1 == o)).map (·.2)

def vars (f : Found) : Fields := Fields.ofPairs ((f.valuesOf .variable).filterMap assignment?)

def against (f : Found) : Against :=
  ⟨f.value? .session, ⟨f.valuesOf .context, f.vars⟩⟩

end Found

/-- Takes the arguments of a stage, up to a verb if there is one. -/
def scan (stage : Stage) :
    Found → List String → Except Stop (Found × Option (String × List String))
  | f, [] => .ok (f, none)
  | f, argument :: rest =>
    if f.closed then do scan stage (← f.operand stage argument) rest
    else if !f.awaits && stage.isVerb argument then .ok (f, some (argument, rest))
    else
      match Form.of argument with
      | .terminator => scan stage { f with closed := true } rest
      | .long name attached => do scan stage (← f.long stage name attached) rest
      | .cluster letters => do scan stage (← Found.cluster stage letters f) rest
      | .plain => do scan stage (← f.plain stage argument) rest

/-- What has been found at a stage after its last argument. The path of the environment, where it
counts, must be acceptable. -/
def finish (environment : Option String) (f : Found) : Except Stop Found := do
  let f ← f.settle
  if (f.value? .path).isNone && !environment.all (Opt.accepts .path) then throw .refused
  return f

def commandOf (f : Found) : Verb → Option Command
  | .actions => some .actions
  | .flows => some .flows
  | .sessions => some .sessions
  | .contexts => some .contexts
  | .request => f.operands.head?.map fun name => .request name f.against
  | .flow => f.operands.head?.map fun name => .flow name (f.value? .session)
  | .interpolate => f.operands.head?.map fun name => .interpolate name f.against
  | .createSession =>
    f.operands.head?.map fun name =>
      .createSession name (f.value? .title) (f.valuesOf .context) f.vars
  | .createContext => f.operands.head?.map fun name => .createContext name f.vars

/-- The project that is used when none is named: that of the working directory. -/
def defaultPath : String := "."

/-- The path of the project: named after the verb, before it, or by the environment. -/
def pathOf (environment : Option String) (inner outer : Found) : String :=
  (((inner.value? .path).or (outer.value? .path)).or environment).getD defaultPath

/-- What is explained for the words after the one that asks for it. -/
def explained : List String → Stop
  | [] => .help none
  | [word] =>
    match Verb.named? word with
    | some verb => .help (some verb)
    | none => .refused
  | _ => .refused

def Invocation.read (environment : Option String) (arguments : List String) :
    Except Stop Invocation := do
  match ← scan ⟨none⟩ .nothing arguments with
  | (_, none) => throw .refused
  | (outer, some (word, rest)) =>
    match Verb.named? word with
    | none => throw (explained rest)
    | some verb =>
      let (inner, _) ← scan ⟨some verb⟩ .nothing rest
      let inner ← finish environment inner
      match commandOf inner verb with
      | none => throw .refused
      | some command =>
        let outer ← finish environment outer
        return {
          path := pathOf environment inner outer
          verbosity := if inner.verbosity = 0 then outer.verbosity else inner.verbosity
          command }

end Runbook.CommandLine
