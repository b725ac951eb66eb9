import Runbook.CommandLine.Assignment

set_option autoImplicit false
set_option relaxedAutoImplicit false

/-!
What may stand on the command line: verbs with their operands, and options before or after the verb.
-/

namespace Runbook.CommandLine

inductive Opt
  | path
  | verbose
  | help
  | version
  | session
  | context
  | variable
  | title
  deriving DecidableEq

namespace Opt

/-- The name of an option after two dashes. -/
def long : Opt → String
  | .path => "path"
  | .verbose => "verbose"
  | .help => "help"
  | .version => "version"
  | .session => "session"
  | .context => "context"
  | .variable => "var"
  | .title => "title"

/-- The letter of an option after one dash. -/
def short? : Opt → Option Char
  | .path => some 'p'
  | .verbose => some 'v'
  | .help => some 'h'
  | .version => some 'V'
  | .session => some 's'
  | .context => some 'c'
  | .variable => none
  | .title => none

/-- What the value of an option is called; an option without one takes no value. -/
def placeholder? : Opt → Option String
  | .path => some "PATH"
  | .session => some "SESSION"
  | .context => some "CONTEXTS"
  | .variable => some "VARIABLES"
  | .title => some "TITLE"
  | .verbose => none
  | .help => none
  | .version => none

def takesValue (o : Opt) : Bool := o.placeholder?.isSome

def isRepeatable (o : Opt) : Bool := o == .context || o == .variable

/-- Whether a text may be the value of an option. -/
def accepts (o : Opt) (value : String) : Bool :=
  match o with
  | .path => !value.isEmpty
  | .variable => (assignment? value).isSome
  | _ => true

end Opt

inductive Verb
  | actions
  | flows
  | sessions
  | contexts
  | request
  | flow
  | interpolate
  | createSession
  | createContext
  deriving DecidableEq

namespace Verb

def all : List Verb :=
  [.actions, .flows, .sessions, .contexts, .request, .flow, .interpolate, .createSession,
    .createContext]

/-- The word of a verb. -/
def text : Verb → String
  | .actions => "actions"
  | .flows => "flows"
  | .sessions => "sessions"
  | .contexts => "contexts"
  | .request => "request"
  | .flow => "flow"
  | .interpolate => "interpolate"
  | .createSession => "create-session"
  | .createContext => "create-context"

def named? (word : String) : Option Verb := all.find? fun v => v.text == word

/-- What the operand of a verb is called; a verb without one takes no operand. -/
def operand? : Verb → Option String
  | .actions => none
  | .flows => none
  | .sessions => none
  | .contexts => none
  | .request => some "ACTION"
  | .flow => some "FLOW"
  | .interpolate => some "ACTION"
  | .createSession => some "NAME"
  | .createContext => some "NAME"

/-- The options of a verb, in the order in which they are explained. -/
def options : Verb → List Opt
  | .actions => [.path, .verbose, .help]
  | .flows => [.path, .verbose, .help]
  | .sessions => [.path, .verbose, .help]
  | .contexts => [.path, .verbose, .help]
  | .request => [.path, .session, .context, .verbose, .variable, .help]
  | .flow => [.path, .session, .verbose, .help]
  | .interpolate => [.path, .session, .context, .verbose, .variable, .help]
  | .createSession => [.path, .title, .context, .verbose, .variable, .help]
  | .createContext => [.path, .variable, .verbose, .help]

theorem named?_verb_text (v : Verb) : named? v.text = some v := by cases v <;> decide

end Verb

def outerOptions : List Opt := [.path, .verbose, .help, .version]

def helpWord : String := "help"

end Runbook.CommandLine
