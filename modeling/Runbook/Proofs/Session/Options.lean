import Runbook.Proofs.Session.Numbering
import Runbook.Proofs.Session.Outputs

set_option autoImplicit false
set_option relaxedAutoImplicit false

/-!
What is given with a request. Contexts and variables of a request take part in filling its fields,
and nothing of them stays: with the same answer, the session, its file, and the number and name of
the request are the same, whatever was given.
-/

namespace Runbook

open Runbook.Files

namespace Session

/-- The response that is recorded for an answer: that it could not be sent makes one too. -/
def recordedResponse : Except SendFault Response → Response
  | .ok r => r
  | .error fault => .failure fault.message

/-- What the transport answers to a request, if the request gets as far as being sent. -/
def answer? {σ : Type} (transport : Transport σ) (s : Session) (ref : ActionRef) (o : BuildOptions)
    (b : Bench σ) : Option (Except SendFault Response) :=
  match s.prepare b.tree ref o with
  | .error _ => none
  | .ok p =>
    match makeRecord b.tree p.dumpDirectory with
    | (.error _, _) => none
    | (.ok (), begun) =>
      some (transport p.built.descriptor (p.dumpDirectory.map DumpPaths.ofDirectory) b.wire begun).1

variable {σ : Type} {transport : Transport σ} {s s' : Session} {ref : ActionRef} {o : BuildOptions}
  {b b' : Bench σ} {e : Executed}

theorem answer?_of_begun {p : Prepared} {begun : Tree}
    (prepared : s.prepare b.tree ref o = .ok p)
    (recorded : makeRecord b.tree p.dumpDirectory = (.ok (), begun)) :
    answer? transport s ref o b = some (transport p.built.descriptor
      (p.dumpDirectory.map DumpPaths.ofDirectory) b.wire begun).1 := by
  unfold answer?
  rw [prepared]
  dsimp only
  rw [recorded]

theorem response_of_exchange {p : Prepared} {r : Response} {left : Bench σ}
    (h : exchange transport p b = (.ok r, left)) :
    r = recordedResponse (transport p.built.descriptor
      (p.dumpDirectory.map DumpPaths.ofDirectory) b.wire b.tree).1 := by
  unfold exchange at h
  dsimp only at h
  split at h
  · next response _ _ answered =>
    obtain ⟨same, -⟩ := Prod.mk.inj h
    rw [answered]
    exact (Except.ok.inj same).symm
  · next fault _ _ answered =>
    rw [answered]
    split at h
    · obtain ⟨same, -⟩ := Prod.mk.inj h
      exact (Except.ok.inj same).symm
    · cases (Prod.mk.inj h).1

/-- The response of a request that is done is the one for what the transport answered. -/
theorem response_of_perform (done : perform transport s ref o b = (.ok e, s', b')) :
    ∃ answer, answer? transport s ref o b = some answer ∧ e.response = recordedResponse answer := by
  obtain ⟨p, begun, r, left, prepared, recorded, answered, -, rfl, -⟩ := perform_eq_ok done
  exact ⟨_, answer?_of_begun prepared recorded, response_of_exchange answered⟩

/-- The number of a request and the name of its action do not depend on what was given with it. -/
theorem named_of_perform (done : perform transport s ref o b = (.ok e, s', b')) :
    s.nextIdentifier b.tree = .ok e.identifier ∧
      ∃ action, s.project.resolveAction b.tree ref = .ok action ∧ e.actionName = action.name := by
  obtain ⟨p, -, -, -, prepared, -, -, -, rfl, -⟩ := perform_eq_ok done
  obtain ⟨resolved, -⟩ := outputsOf_of_prepare prepared
  obtain ⟨built, identifier, -, next, rfl⟩ := prepare_eq_ok.mp prepared
  exact ⟨next, built.action, resolved, rfl⟩

/-- After a request that is done, the session file holds the session. -/
theorem read_of_perform {dir : Path} (place : s.directory = some dir)
    (done : perform transport s ref o b = (.ok e, s', b')) :
    b'.tree.read (dir.join fileName) = .ok (Text.encode (Yaml.print s'.file.toValue)) := by
  obtain ⟨t, saved⟩ := saved_of_perform done
  have kept := directory_perform transport s ref o b
  rw [done] at kept
  unfold save at saved
  rw [kept.trans place] at saved
  exact (Tree.read_of_save (by decide : Plain fileName) saved).2.2

theorem title_contextNames_of_perform (done : perform transport s ref o b = (.ok e, s', b')) :
    s'.title = s.title ∧ s'.contextNames = s.contextNames := by
  obtain ⟨p, -, r, left, -, -, -, -, -, rfl⟩ := perform_eq_ok done
  exact ⟨rfl, rfl⟩

end Session

open Session

/-- Two requests for one action, in one session and over the same files, that get the same answer
and are done, leave the session with the same variables, title and contexts and its file with the
same content, and have the same number and name, whatever was given with each of them. -/
theorem perform_forgets_options {σ τ : Type} {first : Transport σ} {second : Transport τ}
    {s s₁ s₂ : Session} {ref : ActionRef} {o₁ o₂ : BuildOptions} {b b' : Bench σ} {c c' : Bench τ}
    {e₁ e₂ : Executed} (files : c.tree = b.tree)
    (answers : answer? first s ref o₁ b = answer? second s ref o₂ c)
    (done₁ : perform first s ref o₁ b = (.ok e₁, s₁, b'))
    (done₂ : perform second s ref o₂ c = (.ok e₂, s₂, c')) :
    s₁.vars = s₂.vars ∧ s₁.title = s₂.title ∧ s₁.contextNames = s₂.contextNames ∧
      e₁.identifier = e₂.identifier ∧ e₁.actionName = e₂.actionName ∧
      ∀ dir, s.directory = some dir → ∃ content,
        b'.tree.read (dir.join fileName) = .ok content ∧
        c'.tree.read (dir.join fileName) = .ok content := by
  have response : e₁.response = e₂.response := by
    obtain ⟨answer₁, asked₁, response₁⟩ := response_of_perform done₁
    obtain ⟨answer₂, asked₂, response₂⟩ := response_of_perform done₂
    obtain rfl := Option.some.inj ((asked₁.symm.trans answers).trans asked₂)
    exact response₁.trans response₂.symm
  have vars : s₁.vars = s₂.vars := by
    obtain ⟨action, resolved₁, none₁, some₁⟩ := vars_of_perform done₁
    obtain ⟨_, resolved₂, none₂, some₂⟩ := vars_of_perform done₂
    rw [files] at resolved₂
    -- Outputs are read over the session, which is one and the same, and not over what was given.
    obtain rfl := Except.ok.inj (resolved₁.symm.trans resolved₂)
    cases declared : action.outputs with
    | none => rw [none₁ declared, none₂ declared]
    | some pairs => rw [some₁ pairs declared, some₂ pairs declared, response]
  obtain ⟨title₁, contexts₁⟩ := title_contextNames_of_perform done₁
  obtain ⟨title₂, contexts₂⟩ := title_contextNames_of_perform done₂
  obtain ⟨next₁, action, resolved₁, name₁⟩ := named_of_perform done₁
  obtain ⟨next₂, _, resolved₂, name₂⟩ := named_of_perform done₂
  rw [files] at next₂ resolved₂
  obtain rfl := Except.ok.inj (resolved₁.symm.trans resolved₂)
  refine ⟨vars, title₁.trans title₂.symm, contexts₁.trans contexts₂.symm,
    Except.ok.inj (next₁.symm.trans next₂), name₁.trans name₂.symm, ?_⟩
  intro dir place
  have file : s₁.file = s₂.file := by
    unfold Session.file
    rw [vars, title₁, title₂, contexts₁, contexts₂]
  refine ⟨_, read_of_perform place done₁, ?_⟩
  rw [file]
  exact read_of_perform place done₂

/-- A project with a context and a session that is saved. -/
private def notedTree : Tree :=
  .directory [("p", .directory [
    ("contexts", .directory [("user", .directory [
      ("default.yaml", .file (Text.encode "name: amelia\n"))])]),
    ("sessions", .directory [("main", .directory [])])])]

private def notedSession : Session :=
  ⟨⟨⟨"/p"⟩, .standard⟩, "main", none, some ⟨"/p/sessions/main"⟩, [], [("id", .str "4")], [], []⟩

/-- An action whose target and output refer to what may be given with it. -/
private def takingNote : ActionRef :=
  .inline [("url", .str "\x7b\x7bpage\x7d\x7d\x7b\x7bname\x7d\x7d"),
    ("outputs", .map [("note", .str "\x7b\x7bpage\x7d\x7d\x7b\x7bname\x7d\x7d-\x7b\x7bid\x7d\x7d")])]

private def givenVars : BuildOptions := ⟨[], [("page", .str "2"), ("id", .str "9")]⟩

private def givenContext : BuildOptions := ⟨["user"], []⟩

private theorem noted_perform (o : BuildOptions) (given : o ∈ [givenVars, givenContext]) :
    ∃ e s' b',
    perform (.replying (.ofStatus 200 "OK")) notedSession takingNote o ⟨notedTree, (), []⟩ =
      (.ok e, s', b') ∧
    answer? (.replying (.ofStatus 200 "OK")) notedSession takingNote o ⟨notedTree, (), []⟩ =
      some (.ok (.ofStatus 200 "OK")) := by
  have names : Tree.directoriesOf notedTree (Path.join ⟨"/p/sessions/main"⟩ "requests") = [] := by
    decide +kernel
  have place : notedSession.directory = some ⟨"/p/sessions/main"⟩ := rfl
  have next := nextIdentifier_of_nothing place names rfl
  have outcome : (perform (.replying (.ofStatus 200 "OK")) notedSession takingNote o
      ⟨notedTree, (), []⟩).1.isOk = true := by
    unfold perform prepare
    rw [next]
    revert o
    decide +kernel
  obtain ⟨e, s', b', done⟩ := perform_eq_ok_of_isOk outcome
  refine ⟨e, s', b', done, ?_⟩
  obtain ⟨p, begun, -, -, prepared, recorded, -⟩ := perform_eq_ok done
  unfold answer?
  rw [prepared]
  dsimp only
  rw [recorded]
  rfl

theorem perform_forgets_options_sample : ∃ e₁ s₁ b₁ e₂ s₂ b₂ content,
    perform (.replying (.ofStatus 200 "OK")) notedSession takingNote givenVars
      ⟨notedTree, (), []⟩ = (.ok e₁, s₁, b₁) ∧
    perform (.replying (.ofStatus 200 "OK")) notedSession takingNote givenContext
      ⟨notedTree, (), []⟩ = (.ok e₂, s₂, b₂) ∧
    s₁.vars = s₂.vars ∧ e₁.identifier = e₂.identifier ∧
    b₁.tree.read (Path.join ⟨"/p/sessions/main"⟩ fileName) = .ok content ∧
    b₂.tree.read (Path.join ⟨"/p/sessions/main"⟩ fileName) = .ok content := by
  obtain ⟨e₁, s₁, b₁, done₁, asked₁⟩ := noted_perform givenVars (by simp)
  obtain ⟨e₂, s₂, b₂, done₂, asked₂⟩ := noted_perform givenContext (by simp)
  obtain ⟨vars, -, -, identifier, -, files⟩ :=
    perform_forgets_options rfl (asked₁.trans asked₂.symm) done₁ done₂
  obtain ⟨content, read₁, read₂⟩ := files ⟨"/p/sessions/main"⟩ rfl
  exact ⟨e₁, s₁, b₁, e₂, s₂, b₂, content, done₁, done₂, vars, identifier, read₁, read₂⟩

end Runbook
