import Runbook.Proofs.Fields
import Runbook.Proofs.Template.References

set_option autoImplicit false
set_option relaxedAutoImplicit false

/-!
Scopes as flat maps. The variables met in a walk through a scope and all that is above it, the first
value of each name kept, make one map that says as much as the scope: about which names are known,
about every path, and about every template. Asking the parents which of them knows a name, and then
that one for its value, comes to the same.
-/

namespace Runbook

namespace Fields

/-- Fields with an entry behind them, unless they have its key. -/
def addNew (kept : Fields) (entry : String × Value) : Fields :=
  if kept.has entry.1 then kept else kept ++ [entry]

theorem get?_addNew (kept : Fields) (entry : String × Value) (name : String) :
    get? (addNew kept entry) name = (get? kept name).or (get? [entry] name) := by
  unfold addNew
  split_ifs with known
  · obtain ⟨old, there⟩ := Option.isSome_iff_exists.mp known
    by_cases same : entry.1 = name
    · rw [← same, there]
      rfl
    · simp [get?, same]
  · exact get?_append kept [entry] name

/-- What was kept stays, and the first of several entries with a key decides. -/
theorem get?_foldl_addNew (kept entries : Fields) (name : String) :
    get? (entries.foldl addNew kept) name = (get? kept name).or (get? entries name) := by
  induction entries generalizing kept with
  | nil => simp [get?]
  | cons entry entries ih =>
    have front : get? (entry :: entries) name = (get? [entry] name).or (get? entries name) :=
      get?_append [entry] entries name
    rw [List.foldl_cons, ih, get?_addNew, front, Option.or_assoc]

theorem nodup_keys_addNew {kept : Fields} (once : (keys kept).Nodup) (entry : String × Value) :
    (keys (addNew kept entry)).Nodup := by
  unfold addNew
  split_ifs with known
  · exact once
  · have absent : entry.1 ∉ keys kept := fun member =>
      known ((isSome_get?_iff kept entry.1).mpr member)
    have added : keys (kept ++ [entry]) = keys kept ++ [entry.1] := by simp [keys]
    rw [added, List.nodup_append]
    refine ⟨once, by simp, ?_⟩
    rintro key member other last rfl
    exact absent (List.mem_singleton.mp last ▸ member)

theorem nodup_keys_foldl_addNew {kept : Fields} (once : (keys kept).Nodup) (entries : Fields) :
    (keys (entries.foldl addNew kept)).Nodup := by
  induction entries generalizing kept with
  | nil => exact once
  | cons entry entries ih => exact ih (nodup_keys_addNew once entry)

end Fields

namespace Scope

mutual

/-- The variables of a scope and of all that is above it, one list for each scope met: a scope comes
before its parents, and a parent with all that is above it before the next one. -/
def visited : Scope → List Fields
  | .node fields ps => fields :: visitedIn ps

def visitedIn : List Scope → List Fields
  | [] => []
  | p :: ps => visited p ++ visitedIn ps

end

/-- The one map of a scope: the first value met for each name. -/
def flat (s : Scope) : Fields := s.visited.flatten.foldl Fields.addNew []

mutual

/-- Whether a scope or one above it declares a name. -/
def knows : Scope → String → Bool
  | .node fields ps, name => fields.has name || anyKnows ps name

def anyKnows : List Scope → String → Bool
  | [], _ => false
  | p :: ps, name => knows p name || anyKnows ps name

end

mutual

/-- The value of a name where it is declared, and else in the first parent that knows the name. -/
def ask : Scope → String → Value
  | .node fields ps, name =>
    match Fields.get? fields name with
    | some v => v
    | none => askFirst ps name

def askFirst : List Scope → String → Value
  | [], _ => .null
  | p :: ps, name => if knows p name then ask p name else askFirst ps name

end

mutual

theorem find?_eq_get?_visited (s : Scope) (name : String) :
    s.find? name = Fields.get? s.visited.flatten name := by
  match s with
  | .node fields ps =>
    rw [find?_node, visited, List.flatten_cons, Fields.get?_append, findIn?_eq_get?_visitedIn]

theorem findIn?_eq_get?_visitedIn (ps : List Scope) (name : String) :
    findIn? ps name = Fields.get? (visitedIn ps).flatten name := by
  match ps with
  | [] => exact findIn?_nil name
  | p :: ps =>
    rw [findIn?_cons, visitedIn, List.flatten_append, Fields.get?_append,
      find?_eq_get?_visited p, findIn?_eq_get?_visitedIn ps]

end

theorem get?_flat (s : Scope) (name : String) : Fields.get? s.flat name = s.find? name := by
  have first := Fields.get?_foldl_addNew [] s.visited.flatten name
  rw [flat, first, find?_eq_get?_visited]
  rfl

mutual

theorem knows_eq_isSome_find? (s : Scope) (name : String) :
    s.knows name = (s.find? name).isSome := by
  match s with
  | .node fields ps =>
    rw [knows, find?_node, Option.isSome_or, anyKnows_eq_isSome_findIn?, Fields.has]

theorem anyKnows_eq_isSome_findIn? (ps : List Scope) (name : String) :
    anyKnows ps name = (findIn? ps name).isSome := by
  match ps with
  | [] => rw [anyKnows, findIn?_nil, Option.isSome_none]
  | p :: ps =>
    rw [anyKnows, findIn?_cons, Option.isSome_or, knows_eq_isSome_find? p,
      anyKnows_eq_isSome_findIn? ps]

end

mutual

/-- The parent that is asked is the one where the walk stops, also if the value there is null. -/
theorem ask_eq_getD_find? (s : Scope) (name : String) :
    s.ask name = (s.find? name).getD .null := by
  match s with
  | .node fields ps =>
    rw [ask, find?_node, askFirst_eq_getD_findIn?]
    cases Fields.get? fields name <;> rfl

theorem askFirst_eq_getD_findIn? (ps : List Scope) (name : String) :
    askFirst ps name = (findIn? ps name).getD .null := by
  match ps with
  | [] => rw [askFirst, findIn?_nil, Option.getD_none]
  | p :: ps =>
    rw [askFirst, findIn?_cons, knows_eq_isSome_find? p, ask_eq_getD_find? p,
      askFirst_eq_getD_findIn? ps]
    cases find? p name <;> rfl

end

theorem find?_flat (s : Scope) (name : String) :
    find? (.node s.flat []) name = s.find? name := by
  rw [find?_node, findIn?_nil, Option.or_none, get?_flat]

theorem evaluate_flat (s : Scope) (path : String) :
    evaluate (.node s.flat []) path = s.evaluate path := by
  have first : ∀ name, resolve (.node s.flat []) name = s.resolve name := by
    intro name
    rw [resolve, resolve, find?_flat]
  unfold evaluate
  simp only [first]

/-- A scope and its one map, in which each name has one value, know the same names, give every path
the same value and replace references alike; and a lookup that first seeks a parent that knows the
name and then asks it agrees with both. Whether two parents are one scope does not matter, for only
what they hold counts. -/
theorem flat_equivalent (s : Scope) :
    s.flat.keys.Nodup ∧
    (∀ name, s.has name = true ↔ name ∈ s.flat.keys) ∧
    (∀ name, s.knows name = s.has name ∧ s.ask name = s.resolve name) ∧
    (∀ path, s.evaluate path = evaluate (.node s.flat []) path) ∧
    ∀ v, Template.interpolate s v = Template.interpolate (.node s.flat []) v := by
  have paths : ∀ path, s.evaluate path = evaluate (.node s.flat []) path :=
    fun path => (evaluate_flat s path).symm
  refine ⟨?_, ?_, ?_, paths, ?_⟩
  · have none_kept : (Fields.keys []).Nodup := List.nodup_nil
    exact Fields.nodup_keys_foldl_addNew none_kept s.visited.flatten
  · intro name
    rw [has, ← get?_flat, Fields.isSome_get?_iff]
  · intro name
    exact ⟨knows_eq_isSome_find? s name, ask_eq_getD_find? s name⟩
  · intro v
    exact Template.interpolate_congr fun path _ => paths path

/-- A name that is null in a near scope hides the one behind it, and one that only a far scope knows
is found through the first parent that leads there. -/
example :
    let far : Scope := .node [("deep", .str "1"), ("token", .str "2")] []
    let s : Scope := .node [("own", .str "0")] [.node [("token", .null)] [far], far]
    s.flat = [("own", .str "0"), ("token", .null), ("deep", .str "1")] := by
  decide

end Scope

end Runbook
