import Runbook.Proofs.Text.Split
import Runbook.Scope

set_option autoImplicit false
set_option relaxedAutoImplicit false

/-!
Dotted paths. What stands behind a dot is looked up in the value of what stands before it, and in
nothing else: a scope is asked for the first name of a path only, and a value that is no map has
null behind it wherever it comes in a path.
-/

namespace Runbook

theorem Text.segments_append_cut (cut : Char) (first rest : List Char) :
    Text.segments cut (first ++ cut :: rest) =
      ((Text.segments cut first).1, (Text.segments cut first).2 ++ Text.split cut rest) := by
  have pieces := Text.split_append_cut cut first rest
  simp only [Text.split, List.cons_append] at pieces
  obtain ⟨head, tail⟩ := List.cons.inj pieces
  exact Prod.ext head tail

namespace Scope

/-- The variable that a path begins with. -/
def firstName (path : String) : String := String.ofList (Text.segments '.' path.toList).1

theorem evaluate_eq_member (s : Scope) (path : String) :
    s.evaluate path = member (s.resolve (firstName path)) (Text.segments '.' path.toList).2 := rfl

/-- Keys that lead on from a member are those of a longer way. The induction is on the first keys,
after which the value is another one. -/
theorem member_append (v : Value) (keys more : List (List Char)) :
    member v (keys ++ more) = member (member v keys) more := by
  induction keys generalizing v with
  | nil => rfl
  | cons key keys ih =>
    cases v with
    | map fields => exact ih ((Fields.get? fields (String.ofList key)).getD .null)
    | _ => exact (member_null more).symm

/-- In the scope of one value, all keys of a path are looked up in that value. -/
theorem evaluate_ofValue (v : Value) (path : String) :
    evaluate (.ofValue v []) path = member v (Text.split '.' path.toList) := by
  have first : ∀ fields : Fields, resolve (.node fields []) (firstName path) =
      (Fields.get? fields (firstName path)).getD .null := by
    intro fields
    rw [resolve, find?_node, findIn?_nil, Option.or_none]
  rw [evaluate_eq_member, ofValue, first]
  cases v with
  | map fields => rfl
  | _ => exact member_null _

theorem segments_dotted (p q : String) : Text.segments '.' (p ++ "." ++ q).toList =
    ((Text.segments '.' p.toList).1,
      (Text.segments '.' p.toList).2 ++ Text.split '.' q.toList) := by
  have text : (p ++ "." ++ q).toList = p.toList ++ '.' :: q.toList := by simp
  rw [text, Text.segments_append_cut]

theorem firstName_dotted (p q : String) : firstName (p ++ "." ++ q) = firstName p := by
  rw [firstName, segments_dotted, firstName]

theorem evaluate_dotted (s : Scope) (p q : String) :
    s.evaluate (p ++ "." ++ q) = evaluate (.ofValue (s.evaluate p) []) q := by
  calc s.evaluate (p ++ "." ++ q)
      = member (s.resolve (firstName p))
          ((Text.segments '.' p.toList).2 ++ Text.split '.' q.toList) := by
        rw [evaluate_eq_member, firstName_dotted, segments_dotted]
    _ = member (s.evaluate p) (Text.split '.' q.toList) := by
        rw [member_append, ← evaluate_eq_member]
    _ = evaluate (.ofValue (s.evaluate p) []) q := (evaluate_ofValue _ q).symm

/-- Of a scope, a path asks nothing but the variable it begins with. -/
theorem evaluate_eq_of_firstName (s : Scope) (path : String) :
    s.evaluate path = evaluate (.node [(firstName path, s.resolve (firstName path))] []) path := by
  have known : resolve (.node [(firstName path, s.resolve (firstName path))] []) (firstName path) =
      s.resolve (firstName path) := by
    simp [resolve, Fields.get?]
  rw [evaluate_eq_member s, evaluate_eq_member (.node _ _), known]

/-- A value is a map, or it has no variables to look up. -/
theorem exists_map_or_null (v : Value) :
    (∃ fields, v = .map fields) ∨ ∀ path, evaluate (.ofValue v []) path = .null := by
  cases v with
  | map fields => exact .inl ⟨fields, rfl⟩
  | _ =>
    right
    intro path
    rw [evaluate_ofValue, Text.split]
    rfl

/-- Several paths, one behind the other, are looked up one after the other. -/
theorem evaluate_intercalate (s : Scope) (p : String) (rest : List String) :
    s.evaluate (".".intercalate (p :: rest)) =
      rest.foldl (fun v q => evaluate (.ofValue v []) q) (s.evaluate p) := by
  induction rest generalizing s p with
  | nil => rw [String.intercalate_singleton, List.foldl_nil]
  | cons q rest ih =>
    rw [String.intercalate_cons_cons, evaluate_dotted, ih, List.foldl_cons]

/-- A path behind another one means what it means over the value of the first one alone, which has
no parents and, if it is no map, no variables, so that the whole means null. Outer scopes count for
the name that the whole begins with and for nothing behind it; and so on for any number of paths. -/
theorem paths_compose (s : Scope) (p q : String) :
    s.evaluate (p ++ "." ++ q) = evaluate (.ofValue (s.evaluate p) []) q ∧
    ((∃ fields, s.evaluate p = .map fields) ∨ s.evaluate (p ++ "." ++ q) = .null) ∧
    s.evaluate (p ++ "." ++ q) =
      evaluate (.node [(firstName p, s.resolve (firstName p))] []) (p ++ "." ++ q) ∧
    ∀ rest, s.evaluate (".".intercalate (p :: rest)) =
      rest.foldl (fun v q => evaluate (.ofValue v []) q) (s.evaluate p) := by
  refine ⟨evaluate_dotted s p q, ?_, ?_, evaluate_intercalate s p⟩
  · rw [evaluate_dotted]
    exact (exists_map_or_null (s.evaluate p)).imp_right fun nothing => nothing q
  · have own := evaluate_eq_of_firstName s (p ++ "." ++ q)
    rwa [firstName_dotted] at own

/-- A variable without the member hides one behind it that has it. -/
example :
    let far : Scope := .node [("a", .map [("b", .str "1")])] []
    evaluate (.node [("a", .map [("", .null)])] [far]) "a.b" = .null ∧
      evaluate (.node [("a", .map [("", .null)])] [far]) "a.." = .null ∧
      evaluate (.node [] [far]) "a.b" = .str "1" := by
  decide

end Scope

end Runbook
