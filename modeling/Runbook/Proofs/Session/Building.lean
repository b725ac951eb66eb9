import Runbook.Proofs.Session.Course

set_option autoImplicit false
set_option relaxedAutoImplicit false

/-!
Built requests. The fields of an action are filled in a scope, but its metadata stay as they were
declared: the outputs of a request are those of its action, whatever was given with the request.
-/

namespace Runbook

theorem Template.get?_interpolateFields (s : Scope) (fields : Fields) (key : String) :
    Fields.get? (interpolateFields s fields) key =
      (Fields.get? fields key).map fun v => if key ∈ metadataKeys then v else interpolate s v := by
  unfold interpolateFields
  induction fields with
  | nil => rfl
  | cons entry rest ih =>
    obtain ⟨k, v⟩ := entry
    by_cases same : k = key
    · subst same
      simp [Fields.get?]
    · simpa [Fields.get?, same] using ih

theorem Action.outputsOf_interpolate (a : Action) (s : Scope) :
    outputsOf (a.interpolate s) = a.outputs := by
  have verbatim : "outputs" ∈ Template.metadataKeys := by decide
  unfold outputs outputsOf interpolate
  rw [Template.get?_interpolateFields]
  simp only [verbatim, if_true, Option.map_id']

namespace Session

open Runbook.Files

variable {s : Session} {t : Tree} {ref : ActionRef} {o : BuildOptions}

/-- A request is built from an action that is there, in a scope that is there. -/
theorem build_eq_ok {built : Built} : s.build t ref o = .ok built ↔
    ∃ action scope descriptor, s.project.resolveAction t ref = .ok action ∧
      s.requestScope t o = .ok scope ∧
      Request.describe (action.interpolate scope) scope s.project.settings = .ok descriptor ∧
      built = ⟨action, action.interpolate scope, descriptor⟩ := by
  unfold build fill
  simp only [Outcome.bind_eq_ok, pure, Except.pure, Except.ok.injEq]
  constructor
  · rintro ⟨filled, ⟨action, resolved, scope, found, rfl⟩, described⟩
    dsimp only at described
    split at described
    · next descriptor made =>
      exact ⟨action, scope, descriptor, resolved, found, made, (Except.ok.inj described).symm⟩
    · cases described
  · rintro ⟨action, scope, descriptor, resolved, found, made, rfl⟩
    refine ⟨_, ⟨action, resolved, scope, found, rfl⟩, ?_⟩
    dsimp only
    rw [made]

/-- A request that is ready has the outputs that its action declares. -/
theorem outputsOf_of_prepare {p : Prepared} (h : s.prepare t ref o = .ok p) :
    s.project.resolveAction t ref = .ok p.built.action ∧
      Action.outputsOf p.built.fields = p.built.action.outputs := by
  obtain ⟨built, identifier, hbuilt, -, rfl⟩ := prepare_eq_ok.mp h
  obtain ⟨action, scope, descriptor, resolved, -, -, rfl⟩ := build_eq_ok.mp hbuilt
  exact ⟨resolved, Action.outputsOf_interpolate action scope⟩

end Session

end Runbook
