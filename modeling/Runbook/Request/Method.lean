import Runbook.Text.Blank
import Runbook.Text.Letter

set_option autoImplicit false
set_option relaxedAutoImplicit false

/-!
Request methods.
-/

namespace Runbook.Request

inductive Method
  | get
  | post
  | put
  | delete
  | patch
  | options
  | head
  | trace
  | connect
  deriving DecidableEq

namespace Method

def text : Method → String
  | .get => "GET"
  | .post => "POST"
  | .put => "PUT"
  | .delete => "DELETE"
  | .patch => "PATCH"
  | .options => "OPTIONS"
  | .head => "HEAD"
  | .trace => "TRACE"
  | .connect => "CONNECT"

def all : List Method := [.get, .post, .put, .delete, .patch, .options, .head, .trace, .connect]

def named? (name : String) : Option Method := all.find? fun m => m.text == name

/-- The method that a text names, whatever its case and the white space around it. -/
def parse? (s : String) : Option Method :=
  named? (String.ofList (Text.upper (Text.trimBlanks s.toList)))

theorem mem_all (m : Method) : m ∈ all := by cases m <;> decide

theorem named?_text (m : Method) : named? m.text = some m := by cases m <;> decide

example : parse? " pAtCh\t" = some .patch := by decide
example : parse? "po\u017ft" = some .post := by decide
example : parse? "gets" = none := by decide

end Method

end Runbook.Request
