import Runbook.CommandLine.Arguments

set_option autoImplicit false
set_option relaxedAutoImplicit false

/-!
Explanations of the command line, in two columns: how a thing is written, and what it is for.
-/

namespace Runbook.CommandLine

/-- The word that the program is called by. -/
def programName : String := "rest-flow"

def programVersion : String := "0.2.0"

def programPurpose : String := "Run templated HTTP actions and flows against stateful sessions"

/-- The variable of the environment that names the project. -/
def pathVariable : String := "REST_FLOW_PATH"

def Verb.purpose : Verb → String
  | .actions => "List actions"
  | .flows => "List flows"
  | .sessions => "List sessions"
  | .contexts => "List contexts and their variants"
  | .request => "Send one request"
  | .flow => "Run a flow"
  | .interpolate => "Print the interpolated fields of an action without sending it"
  | .createSession => "Create a session"
  | .createContext => "Create a context variant"

def Verb.operandPurpose : Verb → String
  | .request => "Action name"
  | .interpolate => "Action name"
  | .flow => "Flow name"
  | .createContext => "`context` or `context/variant`"
  | _ => ""

/-- What a variable is for, given after a verb. -/
def variablePurpose : Option Verb → String
  | some .createSession => "Initial variable as NAME=VALUE"
  | some .createContext => "Variable as NAME=VALUE"
  | _ => "Request variable as NAME=VALUE; repeatable"

/-- What a context is for, given after a verb. -/
def contextPurpose : Option Verb → String
  | some .createSession => "Contexts to compose, in lookup order (`context` or `context/variant`)"
  | _ => "Extra context consulted before the session; repeatable"

def Opt.purpose (environment : Option String) (verb : Option Verb) : Opt → String
  | .path =>
    "Project directory [env: " ++ pathVariable ++ "=" ++ environment.getD "" ++ "] [default: " ++
      defaultPath ++ "]"
  | .verbose => "Increase log verbosity (-v info, -vv debug, -vvv trace)"
  | .help => "Print help"
  | .version => "Print version"
  | .session => "Session to run against (defaults to `default`)"
  | .context => contextPurpose verb
  | .variable => variablePurpose verb
  | .title => "Display title stored with the session"

def Opt.written (o : Opt) : String :=
  let letter := match o.short? with
    | some c => "-" ++ String.singleton c ++ ", "
    | none => "    "
  let value := match o.placeholder? with
    | some name => " <" ++ name ++ ">"
    | none => if o == .verbose then "..." else ""
  letter ++ "--" ++ o.long ++ value

def filled (width : Nat) (s : String) : String :=
  s ++ String.ofList (List.replicate (width - s.length) ' ')

/-- The line of an entry whose first column has a width. -/
def columns (width : Nat) (entry : String × String) : String :=
  "  " ++ filled width entry.1 ++ "  " ++ entry.2 ++ "\n"

/-- A headed list of entries, the columns as wide as they need to be. -/
def table (heading : String) (entries : List (String × String)) : String :=
  let width := (entries.map (·.1.length)).foldl max 0
  "\n" ++ heading ++ ":\n" ++ String.join (entries.map (columns width))

def optionTable (environment : Option String) (stage : Stage) : String :=
  table "Options" (stage.options.map fun o => (o.written, o.purpose environment stage.verb))

def verbTable : String :=
  table "Commands" (Verb.all.map (fun v => (v.text, v.purpose)) ++
    [(helpWord, "Print this message or the help of the given subcommand(s)")])

/-- The list of the operand of a verb, if it has one. -/
def operandTable (v : Verb) : String :=
  match v.operand? with
  | some name => table "Arguments" [("<" ++ name ++ ">", v.operandPurpose)]
  | none => ""

def usage : Option Verb → String
  | none => "Usage: " ++ programName ++ " [OPTIONS] <COMMAND>\n"
  | some v =>
    let operand := (v.operand?.map fun name => " <" ++ name ++ ">").getD ""
    "Usage: " ++ programName ++ " " ++ v.text ++ " [OPTIONS]" ++ operand ++ "\n"

def explanation (environment : Option String) : Option Verb → String
  | none => programPurpose ++ "\n\n" ++ usage none ++ verbTable ++ optionTable environment ⟨none⟩
  | some v =>
    v.purpose ++ "\n\n" ++ usage (some v) ++ operandTable v ++ optionTable environment ⟨some v⟩

end Runbook.CommandLine
