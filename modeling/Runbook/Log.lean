set_option autoImplicit false
set_option relaxedAutoImplicit false

/-!
Notices for whoever runs the program.
-/

namespace Runbook

/-- How much a notice matters, most first. -/
inductive Level
  | warn
  | info
  | debug
  | trace
  deriving DecidableEq

namespace Level

def text : Level → String
  | .warn => "WARN"
  | .info => "INFO"
  | .debug => "DEBUG"
  | .trace => "TRACE"

/-- The place of a level, from the one that matters most. -/
def rank : Level → Nat
  | .warn => 0
  | .info => 1
  | .debug => 2
  | .trace => 3

/-- The last level shown when more is asked for so many times. -/
def ofVerbosity : Nat → Level
  | 0 => .warn
  | 1 => .info
  | 2 => .debug
  | _ => .trace

end Level

structure Notice where
  level : Level
  text : String
  deriving DecidableEq

namespace Notice

def isShown (n : Notice) (last : Level) : Bool := n.level.rank ≤ last.rank

/-- A line break inside a notice is followed by four spaces. -/
def indent (c : Char) : List Char := if c == '\n' then "\n    ".toList else [c]

def line (n : Notice) : String :=
  n.level.text ++ " " ++ String.ofList (n.text.toList.flatMap indent)

end Notice

end Runbook
