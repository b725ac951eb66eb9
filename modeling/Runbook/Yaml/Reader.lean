import Runbook.Yaml.Document
import Runbook.Yaml.Scalar

set_option autoImplicit false
set_option relaxedAutoImplicit false

/-!
Values of documents. Aliases are followed, so often at most that the value stays in proportion to
the document; collections may lie inside one another up to a limit.
-/

namespace Runbook.Yaml

open Runbook.Text (Bytes)

/-- The tags of the four kinds of scalars that are no texts. -/
def boolTag : Bytes := word "tag:yaml.org,2002:bool"

def intTag : Bytes := word "tag:yaml.org,2002:int"

def floatTag : Bytes := word "tag:yaml.org,2002:float"

def nullTag : Bytes := word "tag:yaml.org,2002:null"

/-- Whether a tag is of the application's own. -/
def Properties.isLocal (p : Properties) : Bool :=
  p.tag.any fun t => t.head? == (word "!").head?

/-- The value of a scalar: a tag says what to read its text as, and without one only a plain text
may be anything but a text. -/
def scalarValue? (p : Properties) (style : Style) (s : String) : Option Value :=
  match p.tag with
  | none => if style = .plain then (Meaning.of s).value? s else some (.str s)
  | some t =>
    if p.isLocal then none
    else if t = boolTag then (bool? s).map .bool
    else if t = intTag then (Meaning.ofInteger? s).bind (·.value? s)
    else if t = floatTag then (Meaning.ofReal? s).bind (·.value? s)
    else if t = nullTag then (if isNull s then some .null else none)
    else some (.str s)

/-- A walk through a document, counting the aliases followed. -/
abbrev Walk := StateT Nat Option

namespace Document

/-- How many aliases may be followed for each unit of a document's size. -/
def aliasFactor : Nat := 100

/-- How many collections may lie inside one another. -/
def maxDepth : Nat := 128

/-- The node that a node means: itself, or the one it is an alias of. -/
def follow (d : Document) : Node Nat → Walk (Node Nat)
  | .alias number => do
    let followed ← modifyGet fun n => (n + 1, n + 1)
    if d.size * aliasFactor < followed then failure
    match d.anchors.node? number with
    | some target => return target
    | none => failure
  | n => return n

/-- The text of a scalar, whatever it means. -/
def textOf (d : Document) (n : Node Nat) : Walk String := do
  match ← d.follow n with
  | .scalar _ _ s => return s
  | _ => failure

/-- The value of a node, with so many collections inside one another. -/
def value (d : Document) : Nat → Node Nat → Walk Value
  | 0, n => do
    match ← d.follow n with
    | .scalar p style s => (scalarValue? p style s).getM
    | _ => failure
  | depth + 1, n => do
    match ← d.follow n with
    | .scalar p style s => (scalarValue? p style s).getM
    | .sequence p items =>
      if p.isLocal then failure
      return .list (← items.mapM (d.value depth))
    | .mapping p entries =>
      if p.isLocal then failure
      let members ← entries.mapM fun (k, v) => do
        return (← d.textOf k, ← d.value depth v)
      return .map (Fields.ofPairs members)
    | .alias _ => failure

end Document

/-- The value of a text; one without a document is null. -/
def read? (s : String) : Option Value := do
  match ← Document.read? s with
  | none => return .null
  | some d => (d.value Document.maxDepth d.root).run' 0

end Runbook.Yaml
