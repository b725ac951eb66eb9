import Runbook.Proofs.Fields
import Runbook.Proofs.Session.Building

set_option autoImplicit false
set_option relaxedAutoImplicit false

/-!
Outputs of a request. The templates that an action declares are read over the response and the
session as it was before the request, so none of them sees another; their values replace variables
in place or come behind them, and no other variable is touched.
-/

namespace Runbook

open Runbook.Files

/-- How the variables of a session become those after a response: each output has the value of its
template over the response and the scope as it was, any other variable is left alone, the names that
were there keep their places, and new ones come behind them in the order of the outputs. -/
structure TookOutputs (before : Fields) (scope : Scope) (r : Response) (outs after : Fields) :
    Prop where
  taken : ∀ name template, outs.get? name = some template →
    after.get? name =
      some (Template.interpolate (.node (Extract.responseVars r) [scope]) template)
  kept : ∀ name, name ∉ outs.keys → after.get? name = before.get? name
  order : after.keys = before.keys ++ outs.keys.filter (· ∉ before.keys)

namespace Session

variable {σ : Type} {transport : Transport σ} {s s' : Session} {ref : ActionRef} {o : BuildOptions}
  {b b' : Bench σ} {e : Executed}

theorem vars_takeOutputs_of_none {fields : Fields} (undeclared : Action.outputsOf fields = none)
    (s : Session) (r : Response) : (s.takeOutputs fields r).vars = s.vars := by
  unfold takeOutputs
  rw [undeclared]

theorem vars_takeOutputs_of_some {fields pairs : Fields}
    (declared : Action.outputsOf fields = some pairs) (s : Session) (r : Response) :
    (s.takeOutputs fields r).vars = s.vars.merge (Extract.outputs pairs r s.scope) := by
  unfold takeOutputs
  rw [declared]
  rfl

/-- What a name means after outputs were taken: its output, or else what it meant before. -/
theorem get?_merge_outputs (vars pairs : Fields) (r : Response) (scope : Scope) (name : String) :
    (vars.merge (Extract.outputs pairs r scope)).get? name =
      (((Fields.ofPairs pairs).get? name).map
        (Template.interpolate (Extract.scope r scope))).or (vars.get? name) := by
  rw [Fields.get?_merge]
  unfold Extract.outputs
  rw [Fields.ofPairs_map, Fields.get?_map]

private theorem tookOutputs_merge (vars pairs : Fields) (r : Response) (scope : Scope) :
    TookOutputs vars scope r (Fields.ofPairs pairs)
      (vars.merge (Extract.outputs pairs r scope)) where
  taken name template declared := by
    rw [get?_merge_outputs, declared]
    rfl
  kept name undeclared := by
    rw [get?_merge_outputs, (Fields.get?_eq_none_iff _ _).mpr undeclared]
    rfl
  order := by
    rw [Fields.keys_merge]
    unfold Extract.outputs
    rw [Fields.ofPairs_map]
    simp [Fields.keys, Function.comp_def]

/-- After a request, the variables are those with the outputs that its action declares. -/
theorem vars_of_perform (done : perform transport s ref o b = (.ok e, s', b')) :
    ∃ action, s.project.resolveAction b.tree ref = .ok action ∧
      (action.outputs = none → s'.vars = s.vars) ∧
      ∀ pairs, action.outputs = some pairs →
        s'.vars = s.vars.merge (Extract.outputs pairs e.response s.scope) := by
  obtain ⟨p, begun, r, left, prepared, -, -, -, rfl, rfl⟩ := perform_eq_ok done
  obtain ⟨resolved, declares⟩ := outputsOf_of_prepare prepared
  refine ⟨p.built.action, resolved, ?_, ?_⟩
  · intro undeclared
    exact vars_takeOutputs_of_none (declares.trans undeclared) s r
  · intro pairs declared
    exact vars_takeOutputs_of_some (declares.trans declared) s r

end Session

open Session

/-- A request that is done leaves the variables alone if its action declares no outputs, and
otherwise takes those outputs, of which a repeated name has its last template. What a name means
afterwards depends on its own template only, not on the other outputs nor on their order. -/
theorem perform_takes_outputs {σ : Type} {transport : Transport σ} {s s' : Session}
    {ref : ActionRef} {o : BuildOptions} {b b' : Bench σ} {e : Executed}
    (done : perform transport s ref o b = (.ok e, s', b')) :
    ∃ action, s.project.resolveAction b.tree ref = .ok action ∧
      (action.outputs = none → s'.vars = s.vars) ∧
      ∀ pairs, action.outputs = some pairs →
        TookOutputs s.vars s.scope e.response (Fields.ofPairs pairs) s'.vars ∧
        ∀ {τ : Type} {other : Transport τ} {ref₂ : ActionRef} {o₂ : BuildOptions}
          {c c' : Bench τ} {e₂ : Executed} {s₂ : Session} {action₂ : Action} {pairs₂ : Fields},
          perform other s ref₂ o₂ c = (.ok e₂, s₂, c') → e₂.response = e.response →
          s.project.resolveAction c.tree ref₂ = .ok action₂ → action₂.outputs = some pairs₂ →
          (∀ name, (Fields.ofPairs pairs₂).get? name = (Fields.ofPairs pairs).get? name →
            s₂.vars.get? name = s'.vars.get? name) ∧
          ((Fields.ofPairs pairs₂).Perm (Fields.ofPairs pairs) →
            ∀ name, s₂.vars.get? name = s'.vars.get? name) := by
  obtain ⟨action, resolved, undeclared, taken⟩ := vars_of_perform done
  refine ⟨action, resolved, undeclared, ?_⟩
  intro pairs declared
  rw [taken pairs declared]
  refine ⟨tookOutputs_merge s.vars pairs e.response s.scope, ?_⟩
  intro τ other ref₂ o₂ c c' e₂ s₂ action₂ pairs₂ done₂ response resolved₂ declared₂
  obtain ⟨_, found, -, taken₂⟩ := vars_of_perform done₂
  obtain rfl := Except.ok.inj (resolved₂.symm.trans found)
  rw [taken₂ pairs₂ declared₂, response]
  have own : ∀ name, (Fields.ofPairs pairs₂).get? name = (Fields.ofPairs pairs).get? name →
      (s.vars.merge (Extract.outputs pairs₂ e.response s.scope)).get? name =
        (s.vars.merge (Extract.outputs pairs e.response s.scope)).get? name := by
    intro name same
    rw [get?_merge_outputs, get?_merge_outputs, same]
  refine ⟨own, ?_⟩
  intro perm name
  exact own name (Fields.get?_of_perm (Fields.nodup_keys_ofPairs pairs) perm.symm name)

/-- A session that is not saved, with two variables. -/
private def pagedSession : Session :=
  ⟨⟨⟨"/p"⟩, .standard⟩, unsavedName, none, none, [], [("id", .str "4"), ("page", .str "2")], [], []⟩

/-- Outputs of which one replaces a variable, one reads that variable and one reads an output. -/
private def chainedOutputs : Fields :=
  [("next", .str "\x7b\x7btoken\x7d\x7d-\x7b\x7bid\x7d\x7d"), ("id", .str "\x7b\x7btoken\x7d\x7d"),
    ("seen", .str "\x7b\x7bnext\x7d\x7d")]

private def chainedAnswer : Response :=
  ⟨200, "OK", "HTTP/1.1", [("Content-Type", "application/json")],
    Text.encode "\x7b\"token\": \"5\"\x7d"⟩

private def takingChained (outs : Fields) : ActionRef :=
  .inline [("url", .str "x"), ("outputs", .map outs)]

private theorem chained_perform (outs : Fields)
    (answered : (perform (.replying chainedAnswer) pagedSession (takingChained outs) .none
      ⟨.directory [], (), []⟩).1.toOption.map (·.response) = some chainedAnswer) :
    ∃ e s' b', perform (.replying chainedAnswer) pagedSession (takingChained outs) .none
      ⟨.directory [], (), []⟩ = (.ok e, s', b') ∧ e.response = chainedAnswer := by
  generalize perform (.replying chainedAnswer) pagedSession (takingChained outs) .none
    ⟨.directory [], (), []⟩ = course at answered ⊢
  obtain ⟨e, done, response⟩ := Outcome.exists_of_toOption_map answered
  exact ⟨e, course.2.1, course.2.2, Prod.ext done rfl, response⟩

/-- An output reads a variable that another output replaces as it was, does not see the other one,
and in the opposite order all of them are the same. -/
theorem perform_takes_outputs_sample : ∃ e s' b' e₂ s₂ b₂,
    perform (.replying chainedAnswer) pagedSession (takingChained chainedOutputs) .none
      ⟨.directory [], (), []⟩ = (.ok e, s', b') ∧
    perform (.replying chainedAnswer) pagedSession (takingChained chainedOutputs.reverse) .none
      ⟨.directory [], (), []⟩ = (.ok e₂, s₂, b₂) ∧
    s'.vars.get? "next" = some (.str "5-4") ∧ s'.vars.get? "id" = some (.str "5") ∧
    s'.vars.get? "seen" = some .null ∧ s'.vars.get? "page" = some (.str "2") ∧
    s'.vars.keys = ["id", "page", "next", "seen"] ∧ s₂.vars.get? "next" = some (.str "5-4") := by
  obtain ⟨e, s', b', done, response⟩ := chained_perform chainedOutputs (by decide +kernel)
  obtain ⟨e₂, s₂, b₂, done₂, response₂⟩ := chained_perform chainedOutputs.reverse (by decide +kernel)
  obtain ⟨action, resolved, -, taken⟩ := perform_takes_outputs done
  obtain rfl := Except.ok.inj resolved
  obtain ⟨outputs, others⟩ := taken chainedOutputs rfl
  rw [response] at outputs
  have next : s'.vars.get? "next" = some (.str "5-4") :=
    (outputs.taken "next" _ rfl).trans (by decide +kernel)
  have perm : (Fields.ofPairs chainedOutputs.reverse).Perm (Fields.ofPairs chainedOutputs) := by
    decide +kernel
  have reversed := (others done₂ (response₂.trans response.symm) rfl rfl).2 perm "next"
  refine ⟨e, s', b', e₂, s₂, b₂, done, done₂, next, ?_, ?_, ?_, ?_, reversed.trans next⟩
  · exact (outputs.taken "id" _ rfl).trans (by decide +kernel)
  · exact (outputs.taken "seen" _ rfl).trans (by decide +kernel)
  · exact (outputs.kept "page" (by decide +kernel)).trans (by decide +kernel)
  · exact outputs.order.trans (by decide +kernel)

end Runbook
