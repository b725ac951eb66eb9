import Runbook.Record
import Runbook.Settings.Basic
import Runbook.Text.Blank
import Runbook.Yaml.Reader

set_option autoImplicit false
set_option relaxedAutoImplicit false

/-!
Settings read from values and from YAML text. Every setting may be left out, and what is not known
is passed over. In YAML a setting may be declared once only, and texts are read as they are
written, whatever they mean otherwise.
-/

namespace Runbook.Settings

open Runbook.Yaml

/-- The keys of the settings, in their order. -/
def keys : List String :=
  ["timeout", "followRedirects", "maxRedirects", "validateSsl", "defaultHeaders",
    "defaultContexts"]

/-- Header lines in order of their names, of which the last of a name counts. -/
def headerTable (lines : Headers) : Headers := mergeHeaders [] lines

def headers? : Value → Option Headers
  | .map members =>
    (members.mapM fun m : String × Value => m.2.asText?.map fun s => (m.1, s)).map headerTable
  | _ => none

def ofValue? (v : Value) : Option Settings := do
  match ← Record.fields? (keys.map ([·])) v with
  | [timeout, followRedirects, maxRedirects, validateSsl, defaultHeaders, defaultContexts] =>
    return {
      timeout := ← Record.default? (Record.natural? Text.bound64) standard.timeout timeout
      followRedirects := ← Record.default? Record.bool? standard.followRedirects followRedirects
      maxRedirects :=
        ← Record.default? (Record.natural? Text.bound32) standard.maxRedirects maxRedirects
      validateSsl := ← Record.default? Record.bool? standard.validateSsl validateSsl
      defaultHeaders := ← Record.default? headers? standard.defaultHeaders defaultHeaders
      defaultContexts := ← Record.default? (Record.nullable? Record.texts?) none defaultContexts }
  | _ => none

/-- Whether a scalar is read for what it means: a plain one is, and a literal one that is tagged as
what is read. -/
def isReadAs (tag : Text.Bytes) (p : Properties) (style : Style) : Bool :=
  style == .plain || (style == .literal && p.tag == some tag)

/-- Whether a scalar is not written at all, apart from its properties. -/
def isAbsent (style : Style) (s : String) : Bool := style == .plain && s.isEmpty

def naturalAt (d : Document) (bound : Nat) (n : Node Nat) : Walk Nat := do
  match ← d.follow n with
  | .scalar p style s =>
    if !isReadAs intTag p style || s.toList.head? == some '-' then failure
    match integer? s.toList with
    | some (.ofNat k) => if k < bound then return k else failure
    | _ => failure
  | _ => failure

/-- The truth value that a node is. -/
def boolAt (d : Document) (n : Node Nat) : Walk Bool := do
  match ← d.follow n with
  | .scalar p style s => if isReadAs boolTag p style then (bool? s).getM else failure
  | _ => failure

def headersAt (d : Document) (n : Node Nat) : Walk Headers := do
  match ← d.follow n with
  | .mapping _ entries =>
    return headerTable (← entries.mapM fun (k, v) => do return (← d.textOf k, ← d.textOf v))
  | .scalar _ style s => if isAbsent style s then return [] else failure
  | _ => failure

def contextsAt (d : Document) (n : Node Nat) : Walk (Option (List String)) := do
  match ← d.follow n with
  | .sequence _ items => return some (← items.mapM d.textOf)
  | .scalar p style s =>
    if style != .plain then failure
    else if p.tag.isNone || p.tag == some nullTag then
      if isNull s || (p.tag.isNone && s.isEmpty) then return none else failure
    else if s.isEmpty then return some []
    else failure
  | _ => failure

/-- A field that may be left out. -/
def fieldAt {α : Type} (read : Node Nat → Walk α) (absent : α) : Option (Node Nat) → Walk α
  | none => pure absent
  | some n => read n

def ofNodes (d : Document) : List (Option (Node Nat)) → Walk Settings
  | [timeout, followRedirects, maxRedirects, validateSsl, defaultHeaders, defaultContexts] =>
    return {
      timeout := ← fieldAt (naturalAt d Text.bound64) standard.timeout timeout
      followRedirects := ← fieldAt (boolAt d) standard.followRedirects followRedirects
      maxRedirects := ← fieldAt (naturalAt d Text.bound32) standard.maxRedirects maxRedirects
      validateSsl := ← fieldAt (boolAt d) standard.validateSsl validateSsl
      defaultHeaders := ← fieldAt (headersAt d) standard.defaultHeaders defaultHeaders
      defaultContexts := ← fieldAt (contextsAt d) none defaultContexts }
  | _ => failure

def ofDocument (d : Document) : Walk Settings := do
  match ← d.follow d.root with
  | .mapping _ entries =>
    let members ← entries.mapM fun (k, v) => do return (← d.textOf k, v)
    ofNodes d (← (keys.mapM fun key => Record.declared? members [key]).getM)
  | .sequence _ items =>
    if keys.length < items.length then failure
    ofNodes d (items.map some ++ List.replicate (keys.length - items.length) none)
  | .scalar _ style s => if isAbsent style s then return standard else failure
  | .alias _ => failure

/-- Why a text holds no settings: it cannot be read, or they are not acceptable. -/
inductive TextFault
  | unreadable
  | unacceptable (fault : Fault)
  deriving DecidableEq

/-- The settings of a text, put over the standard ones. -/
def parse (text : String) : Except TextFault Settings := do
  if Text.isAllBlank text then return standard
  let own ← match Document.read? text with
    | none => throw .unreadable
    | some none => pure standard
    | some (some d) =>
      match (ofDocument d).run' 0 with
      | some s => pure s
      | none => throw .unreadable
  let s := standard.merge own
  match s.fault? with
  | some fault => throw (.unacceptable fault)
  | none => return s

end Runbook.Settings
