import Runbook.Request.Fault
import Runbook.Url.Reader
import Runbook.Url.Form
import Runbook.Text.Blank
import Runbook.Text.Natural

set_option autoImplicit false
set_option relaxedAutoImplicit false

/-!
Targets of requests. A target is an absolute URL or a relative reference, which is kept as it was
written until a base resolves it.
-/

namespace Runbook.Request

inductive Target
  | absolute (url : Url)
  | relative (reference : String)
  deriving DecidableEq

namespace Target

def text : Target → String
  | .absolute url => url.text
  | .relative reference => reference

/-- The target of a text: a text without a scheme is relative. -/
def parse (input : String) : Except Fault Target :=
  match Url.read input with
  | .ok url => .ok (.absolute url)
  | .error .noBase => .ok (.relative input)
  | .error cause => .error (.uri input cause)

/-- The text of a component; null is as good as none. -/
def component? (components : Fields) (key : String) : Option String :=
  match components.get? key with
  | none => none
  | some .null => none
  | some (.str s) => some s
  | some v => some (Json.print v)

/-- The port among the components: a number of 16 bits or a text that writes one. -/
def portOf (components : Fields) : Except Fault (Option Nat) :=
  match components.get? "port" with
  | none => .ok none
  | some .null => .ok none
  | some (.num (.integer i lower upper)) =>
    if 0 ≤ i ∧ i < Text.bound16 then .ok (some i.toNat)
    else .error (.port (.num (.integer i lower upper)))
  | some (.str s) =>
    match Text.natural? Text.bound16 (Text.trimBlanks s.toList) with
    | some n => .ok (some n)
    | none => .error (.port (.str s))
  | some v => .error (.port v)

/-- The scheme of components that name a host and no scheme. -/
def defaultScheme : String := "https"

/-- The target of components; without a host it is the path, and scheme and port do not count. -/
def ofComponents (components : Fields) : Except Fault Target :=
  let path := (component? components "path").getD ""
  match component? components "host" with
  | none => .ok (.relative path)
  | some "" => .ok (.relative path)
  | some host =>
    let scheme := (component? components "scheme").getD defaultScheme
    match Url.read (scheme ++ "://" ++ host) with
    | .error cause => .error (.host host cause)
    | .ok url => do
      let url ← match ← portOf components with
        | none => .ok url
        | some port =>
          match url.setPort? port with
          | some changed => .ok changed
          | none => .error (.portRefused port url)
      return .absolute (if path.isEmpty then url else url.setPath path)

/-- The target that a value names; null names none. -/
def ofValue : Value → Except Fault (Option Target)
  | .null => .ok none
  | .str s => (parse s).map some
  | .map components => (ofComponents components).map some
  | v => .error (.notATarget v)

/-- A relative target resolved against an absolute base; any other is left alone. -/
def resolve (target : Target) (base : Option Target) : Except Fault Target :=
  match target, base with
  | .relative reference, some (.absolute url) =>
    match url.join reference with
    | .ok joined => .ok (.absolute joined)
    | .error cause => .error (.unresolvable reference url cause)
  | other, _ => .ok other

def appendQuery (target : Target) (pairs : List (String × String)) : Target :=
  match pairs, target with
  | [], other => other
  | pairs, .absolute url => .absolute (url.appendPairs pairs)
  | pairs, .relative reference =>
    let mark := if reference.toList.contains '?' then "&" else "?"
    .relative (reference ++ mark ++ String.ofList (Url.formAppend [] pairs))

end Target

end Runbook.Request
