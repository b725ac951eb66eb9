import Runbook.Value
import Runbook.Text.Split

set_option autoImplicit false
set_option relaxedAutoImplicit false

/-!
Scopes. A scope holds variables of its own over an ordered list of parents; a name means the first
thing met in a walk that visits a scope before its parents and a parent before the next. A variable
that is null still hides the ones behind it.
-/

namespace Runbook

/-- Variables over an ordered list of parent scopes. -/
inductive Scope
  | node (locals : Fields) (parents : List Scope)

namespace Scope

def empty : Scope := .node [] []

def locals : Scope → Fields
  | .node fields _ => fields

/-- The scope's parents, in the order they are asked. -/
def parents : Scope → List Scope
  | .node _ ps => ps

/-- A scope whose variables are the members of a value; a value that is no map has none. -/
def ofValue (v : Value) (parents : List Scope) : Scope := .node v.fields parents

mutual

/-- The variable that a name means, if it means one. -/
def find? : Scope → String → Option Value
  | .node fields ps, name =>
    match Fields.get? fields name with
    | some v => some v
    | none => findIn? ps name

/-- The variable that a name means in the first of several scopes that know it. -/
def findIn? : List Scope → String → Option Value
  | [], _ => none
  | p :: ps, name =>
    match find? p name with
    | some v => some v
    | none => findIn? ps name

end

def has (s : Scope) (name : String) : Bool := (s.find? name).isSome

/-- The value of a variable; an unknown one is null. -/
def resolve (s : Scope) (name : String) : Value := (s.find? name).getD .null

/-- The member of a value that a list of keys leads to; a step into anything but a map, or to a
missing key, leads to null. -/
def member (v : Value) : List (List Char) → Value
  | [] => v
  | key :: keys =>
    match v with
    | .map fields => member ((Fields.get? fields (String.ofList key)).getD .null) keys
    | _ => .null

/-- The value of a dotted path: a variable, then members of it. -/
def evaluate (s : Scope) (path : String) : Value :=
  let (first, rest) := Text.segments '.' path.toList
  member (s.resolve (String.ofList first)) rest

@[simp] theorem find?_node (fields : Fields) (ps : List Scope) (name : String) :
    find? (.node fields ps) name = (Fields.get? fields name).or (findIn? ps name) := by
  rw [find?]
  cases Fields.get? fields name <;> rfl

@[simp] theorem findIn?_nil (name : String) : findIn? [] name = none := by rw [findIn?]

@[simp] theorem findIn?_cons (p : Scope) (ps : List Scope) (name : String) :
    findIn? (p :: ps) name = (find? p name).or (findIn? ps name) := by
  rw [findIn?]
  cases find? p name <;> rfl

@[simp] theorem member_null (keys : List (List Char)) : member .null keys = .null := by
  cases keys <;> rfl

end Scope

end Runbook
