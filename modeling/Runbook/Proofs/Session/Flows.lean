import Runbook.Proofs.Project.Naming
import Runbook.Proofs.Session.Refusal

set_option autoImplicit false
set_option relaxedAutoImplicit false

/-!
Flows as compositions of their steps. What was noted before a request does not matter to it, so that
a flow is its first steps and, if they succeed, the others, each of them a request with nothing
given. A flow that fails has got as far as the steps before the first one that fails.
-/

namespace Runbook

open Runbook.Files

/-- Two benches with the same files and the same state of the transport. -/
inductive Bench.Alike {σ : Type} : Bench σ → Bench σ → Prop
  | intro {tree : Tree} {wire : σ} (noted others : List Notice) :
      Alike ⟨tree, wire, noted⟩ ⟨tree, wire, others⟩

namespace Bench.Alike

variable {σ : Type} {b c : Bench σ}

theorem refl (b : Bench σ) : b.Alike b := .intro b.notices b.notices

theorem symm (h : b.Alike c) : c.Alike b := by
  cases h
  exact .intro _ _

theorem trans {d : Bench σ} (h : b.Alike c) (k : c.Alike d) : b.Alike d := by
  cases h
  cases k
  exact .intro _ _

theorem tree_eq (h : b.Alike c) : b.tree = c.tree := by
  cases h
  rfl

theorem wire_eq (h : b.Alike c) : b.wire = c.wire := by
  cases h
  rfl

theorem note (h : b.Alike c) (level : Level) (text text' : String) :
    (b.note level text).Alike (c.note level text') := by
  cases h
  exact .intro _ _

theorem noted (h : b.Alike c) (level : Level) (text : String) : b.Alike (c.note level text) := by
  cases h
  exact .intro _ _

theorem withTree (h : b.Alike c) (t : Tree) : (b.withTree t).Alike (c.withTree t) := by
  cases h
  exact .intro _ _

theorem recording (h : b.Alike c) (log : List Request.Descriptor) :
    (b.recording log).Alike (c.recording log) := by
  cases h
  exact .intro _ _

end Bench.Alike

namespace Session

variable {σ α : Type}

/-- Two runs that come to the same, but perhaps for their notices. -/
inductive SameCourse :
    Except Error α × Session × Bench σ → Except Error α × Session × Bench σ → Prop
  | intro {outcome : Except Error α} {s : Session} {b c : Bench σ} :
      b.Alike c → SameCourse (outcome, s, b) (outcome, s, c)

namespace SameCourse

variable {first second third : Except Error α × Session × Bench σ}

theorem trans (h : SameCourse first second) (k : SameCourse second third) :
    SameCourse first third := by
  obtain ⟨alike⟩ := h
  obtain ⟨others⟩ := k
  exact .intro (alike.trans others)

theorem bench (h : SameCourse first second) : first.2.2.Alike second.2.2 := by
  obtain ⟨alike⟩ := h
  exact alike

theorem exists_eq {outcome : Except Error α} {s : Session} {c : Bench σ}
    (h : SameCourse first (outcome, s, c)) : ∃ b, first = (outcome, s, b) ∧ b.Alike c := by
  obtain ⟨alike⟩ := h
  exact ⟨_, rfl, alike⟩

end SameCourse

/-- Performs the steps of a flow that was found. -/
def runFlow (transport : Transport σ) (flow : Flow) (s : Session) (b : Bench σ) :
    Except Error FlowRun × Session × Bench σ :=
  match performSteps transport flow.steps s (b.note .info (flowText flow)) with
  | (.error e, s, b) => (.error e, s, b)
  | (.ok executed, s, b) => (.ok ⟨flow.name, executed⟩, s, b)

/-- The requests that the transport is asked to send for some steps. -/
def sentBySteps (transport : Transport σ) (steps : List ActionRef) (s : Session) (b : Bench σ) :
    List Request.Descriptor :=
  (performSteps transport.recording steps s (b.recording [])).2.2.wire.2

/-- The requests that the transport is asked to send for a flow. -/
def sentByFlow (transport : Transport σ) (flow : Flow) (s : Session) (b : Bench σ) :
    List Request.Descriptor :=
  (runFlow transport.recording flow s (b.recording [])).2.2.wire.2

variable {transport : Transport σ} {s s' : Session} {b b' c : Bench σ} {ref : ActionRef}
  {o : BuildOptions} {e : Error}

section Notices

private theorem exchange_alike (h : b.Alike c) (transport : Transport σ) (p : Prepared) :
    (exchange transport p b).1 = (exchange transport p c).1 ∧
      (exchange transport p b).2.Alike (exchange transport p c).2 := by
  obtain @⟨tree, wire, noted, others⟩ := h
  unfold exchange
  dsimp only
  rcases transport p.built.descriptor (p.dumpDirectory.map DumpPaths.ofDirectory) wire tree with
    ⟨answer, next, after⟩
  cases answer with
  | ok r => exact ⟨rfl, .intro _ _⟩
  | error fault =>
    dsimp only [Bench.note]
    rcases recordFailure after (p.dumpDirectory.map DumpPaths.ofDirectory)
      (Response.failure fault.message) with ⟨outcome, left⟩
    cases outcome <;> exact ⟨rfl, .intro _ _⟩

theorem conclude_alike (h : b.Alike c) (s : Session) (p : Prepared) (r : Response) :
    SameCourse (s.conclude p r b) (s.conclude p r c) := by
  unfold conclude
  rw [h.tree_eq]
  dsimp only
  rcases (s.takeOutputs p.built.fields r).save c.tree with ⟨outcome, left⟩
  cases outcome <;> exact .intro (h.withTree left)

/-- What was noted before does not matter to a request. -/
theorem perform_alike (h : b.Alike c) (transport : Transport σ) (s : Session) (ref : ActionRef)
    (o : BuildOptions) : SameCourse (perform transport s ref o b) (perform transport s ref o c) := by
  unfold perform
  rw [h.tree_eq]
  cases s.prepare c.tree ref o with
  | error e => exact .intro h
  | ok p =>
    dsimp only
    rcases makeRecord c.tree p.dumpDirectory with ⟨outcome, begun⟩
    cases outcome with
    | error fault => exact .intro (h.withTree begun)
    | ok _ =>
      have begins := (h.withTree begun).note .info (sendingText p) (sendingText p)
      obtain ⟨same, exchanged⟩ := exchange_alike begins transport p
      dsimp only
      generalize exchange transport p ((b.withTree begun).note .info _) = first at same exchanged ⊢
      generalize exchange transport p ((c.withTree begun).note .info _) = second
        at same exchanged ⊢
      obtain ⟨answer, left⟩ := first
      obtain ⟨_, left'⟩ := second
      obtain rfl : answer = _ := same
      cases answer with
      | error e => exact .intro exchanged
      | ok r => exact conclude_alike (exchanged.note .info _ _) s p r

/-- What was noted before does not matter to steps. -/
theorem performSteps_alike (h : b.Alike c) (transport : Transport σ) (steps : List ActionRef)
    (s : Session) :
    SameCourse (performSteps transport steps s b) (performSteps transport steps s c) := by
  induction steps generalizing s b c with
  | nil => exact .intro h
  | cons step rest ih =>
    have first := perform_alike h transport s step .none
    unfold performSteps
    generalize perform transport s step .none b = one at first ⊢
    generalize perform transport s step .none c = other at first ⊢
    obtain @⟨outcome, s, b, c, h⟩ := first
    cases outcome with
    | error e => exact .intro h
    | ok executed =>
      have others := ih h s
      dsimp only
      generalize performSteps transport rest s b = one at others ⊢
      generalize performSteps transport rest s c = other at others ⊢
      obtain @⟨outcome, s, b, c, h⟩ := others
      cases outcome <;> exact .intro h

end Notices

section Composition

/-- A run followed by another one, unless it failed; the requests of both are put together. -/
def followedBy (first : Except Error FlowRun × Session × Bench σ)
    (next : Session → Bench σ → Except Error FlowRun × Session × Bench σ) :
    Except Error FlowRun × Session × Bench σ :=
  match first with
  | (.error e, s, b) => (.error e, s, b)
  | (.ok run, s, b) =>
    match next s b with
    | (.error e, s, b) => (.error e, s, b)
    | (.ok more, s, b) => (.ok ⟨run.flowName, run.executed ++ more.executed⟩, s, b)

/-- Steps are their first ones and, if those succeed, the others. -/
theorem performSteps_append (transport : Transport σ) (first rest : List ActionRef) (s : Session)
    (b : Bench σ) :
    performSteps transport (first ++ rest) s b =
      match performSteps transport first s b with
      | (.error e, s, b) => (.error e, s, b)
      | (.ok executed, s, b) =>
        match performSteps transport rest s b with
        | (.error e, s, b) => (.error e, s, b)
        | (.ok more, s, b) => (.ok (executed ++ more), s, b) := by
  induction first generalizing s b with
  | nil =>
    rw [List.nil_append, performSteps]
    dsimp only
    rcases performSteps transport rest s b with ⟨outcome, s', b'⟩
    cases outcome <;> rfl
  | cons step first ih =>
    rw [List.cons_append, performSteps, performSteps]
    rcases perform transport s step .none b with ⟨outcome, s', b'⟩
    cases outcome with
    | error e => rfl
    | ok executed =>
      dsimp only
      rw [ih]
      rcases performSteps transport first s' b' with ⟨outcome, s'', b''⟩
      cases outcome with
      | error e => rfl
      | ok others =>
        dsimp only
        rcases performSteps transport rest s'' b'' with ⟨outcome, _, _⟩
        cases outcome <;> rfl

/-- To keep the requests changes nothing about steps but that they are kept. -/
theorem performSteps_recording (transport : Transport σ) (steps : List ActionRef) (s : Session)
    (b : Bench σ) (log : List Request.Descriptor) :
    performSteps transport.recording steps s (b.recording log) =
      ((performSteps transport steps s b).1, (performSteps transport steps s b).2.1,
        (performSteps transport steps s b).2.2.recording
          (log ++ sentBySteps transport steps s b)) := by
  have course : ∃ calls, ∀ log, performSteps transport.recording steps s (b.recording log) =
      ((performSteps transport steps s b).1, (performSteps transport steps s b).2.1,
        (performSteps transport steps s b).2.2.recording (log ++ calls)) := by
    induction steps generalizing s b with
    | nil => exact ⟨[], fun log => by simp [performSteps]⟩
    | cons step rest ih =>
      unfold performSteps
      simp only [perform_recording]
      rcases perform transport s step .none b with ⟨outcome, s', b'⟩
      cases outcome with
      | error e => exact ⟨_, fun log => rfl⟩
      | ok executed =>
        obtain ⟨calls, others⟩ := ih s' b'
        dsimp only
        simp only [others, List.append_assoc]
        rcases performSteps transport rest s' b' with ⟨outcome, s'', b''⟩
        cases outcome <;> exact ⟨_, fun log => rfl⟩
  obtain ⟨calls, course⟩ := course
  have same : sentBySteps transport steps s b = calls := by
    unfold sentBySteps
    rw [course []]
    rfl
  rw [course log, same]

theorem sentBySteps_append (transport : Transport σ) (first rest : List ActionRef) (s : Session)
    (b : Bench σ) :
    sentBySteps transport (first ++ rest) s b = sentBySteps transport first s b ++
      match performSteps transport first s b with
      | (.error _, _, _) => []
      | (.ok _, s, b) => sentBySteps transport rest s b := by
  conv_lhs => rw [sentBySteps, performSteps_append, performSteps_recording]
  rcases performSteps transport first s b with ⟨outcome, s', b'⟩
  cases outcome with
  | error e => simp [Bench.recording]
  | ok executed =>
    dsimp only
    rw [performSteps_recording, List.nil_append]
    rcases performSteps transport rest s' b' with ⟨outcome, _, _⟩
    cases outcome <;> rfl

theorem sentBySteps_alike (h : b.Alike c) (transport : Transport σ) (steps : List ActionRef)
    (s : Session) : sentBySteps transport steps s b = sentBySteps transport steps s c := by
  have same := performSteps_alike (h.recording []) transport.recording steps s
  exact congrArg Prod.snd same.bench.wire_eq

theorem sentByFlow_eq (transport : Transport σ) (flow : Flow) (s : Session) (b : Bench σ) :
    sentByFlow transport flow s b = sentBySteps transport flow.steps s b := by
  have begun : (b.recording []).note .info (flowText flow) =
      (b.note .info (flowText flow)).recording [] := rfl
  rw [← sentBySteps_alike ((Bench.Alike.refl b).noted .info (flowText flow)).symm]
  unfold sentByFlow runFlow sentBySteps
  rw [begun]
  generalize performSteps transport.recording flow.steps s
    ((b.note .info (flowText flow)).recording []) = course
  obtain ⟨outcome, s', b'⟩ := course
  cases outcome <;> rfl

/-- A flow is found by its name and then performed. -/
theorem performFlow_eq (transport : Transport σ) (s : Session) (name : String) (b : Bench σ) :
    performFlow transport s name b =
      match s.project.flow b.tree name with
      | .error e => (.error e, s, b)
      | .ok flow => runFlow transport flow s b := by
  unfold performFlow runFlow
  cases s.project.flow b.tree name <;> rfl

/-- A flow comes to what its steps come to. -/
theorem runFlow_course (transport : Transport σ) (flow : Flow) (s : Session) (b : Bench σ) :
    SameCourse (runFlow transport flow s b)
      ((performSteps transport flow.steps s b).1.map fun executed => ⟨flow.name, executed⟩,
        (performSteps transport flow.steps s b).2) := by
  have same := performSteps_alike ((Bench.Alike.refl b).noted .info (flowText flow)).symm transport
    flow.steps s
  unfold runFlow
  generalize performSteps transport flow.steps s (b.note .info (flowText flow)) = first at same ⊢
  generalize performSteps transport flow.steps s b = second at same ⊢
  obtain @⟨outcome, s, b, c, h⟩ := same
  cases outcome <;> exact .intro h

end Composition

section Failure

/-- Steps that succeed are executed one after the other. -/
theorem executed_of_performSteps {steps : List ActionRef} {done : List Executed}
    (h : performSteps transport steps s b = (.ok done, s', b')) :
    s'.executed = s.executed ++ done ∧ done.length = steps.length := by
  induction steps generalizing s b done with
  | nil =>
    obtain ⟨rfl, rfl, -⟩ : [] = done ∧ s = s' ∧ b = b' := by simpa [performSteps] using h
    simp
  | cons step rest ih =>
    unfold performSteps at h
    rcases first : perform transport s step .none b with ⟨outcome, s₁, b₁⟩
    rw [first] at h
    cases outcome with
    | error e => cases (Prod.mk.inj h).1
    | ok executed =>
      dsimp only at h
      rcases others : performSteps transport rest s₁ b₁ with ⟨outcome, s₂, b₂⟩
      rw [others] at h
      cases outcome with
      | error e => cases (Prod.mk.inj h).1
      | ok more =>
        obtain ⟨rfl, rfl, rfl⟩ : executed :: more = done ∧ s₂ = s' ∧ b₂ = b' := by simpa using h
        obtain ⟨grown, length⟩ := ih others
        obtain ⟨_, _, _, _, -, -, -, -, -, rfl⟩ := perform_eq_ok first
        simp [grown, length]

/-- Steps that fail have a first one that fails. -/
theorem exists_first_failure {steps : List ActionRef}
    (h : performSteps transport steps s b = (.error e, s', b')) :
    ∃ before step after done s₁ b₁, steps = before ++ step :: after ∧
      performSteps transport before s b = (.ok done, s₁, b₁) ∧
      perform transport s₁ step .none b₁ = (.error e, s', b') := by
  induction steps generalizing s b with
  | nil => cases (Prod.mk.inj h).1
  | cons step rest ih =>
    unfold performSteps at h
    rcases first : perform transport s step .none b with ⟨outcome, s₁, b₁⟩
    rw [first] at h
    cases outcome with
    | error e₁ =>
      obtain ⟨rfl, rfl, rfl⟩ : e₁ = e ∧ s₁ = s' ∧ b₁ = b' := by simpa using h
      exact ⟨[], step, rest, [], s, b, rfl, rfl, first⟩
    | ok executed =>
      dsimp only at h
      rcases others : performSteps transport rest s₁ b₁ with ⟨outcome, s₂, b₂⟩
      rw [others] at h
      cases outcome with
      | ok more => cases (Prod.mk.inj h).1
      | error e₂ =>
        obtain ⟨rfl, rfl, rfl⟩ : e₂ = e ∧ s₂ = s' ∧ b₂ = b' := by simpa using h
        obtain ⟨before, failing, after, done, s₃, b₃, rfl, succeeded, failed⟩ := ih others
        refine ⟨step :: before, failing, after, executed :: done, s₃, b₃, rfl, ?_, failed⟩
        rw [performSteps, first]
        dsimp only
        rw [succeeded]

theorem performSteps_of_runFlow {flow : Flow} {run : FlowRun}
    (h : runFlow transport flow s b = (.ok run, s', b')) :
    performSteps transport flow.steps s (b.note .info (flowText flow)) =
      (.ok run.executed, s', b') := by
  unfold runFlow at h
  split at h
  · cases (Prod.mk.inj h).1
  · next executed s₁ b₁ done =>
    obtain ⟨rfl, rfl, rfl⟩ : ⟨flow.name, executed⟩ = run ∧ s₁ = s' ∧ b₁ = b' := by simpa using h
    exact done

/-- A flow of which the first step fails comes to that failure. -/
theorem runFlow_of_failed {step : ActionRef}
    (failed : perform transport s step .none b = (.error e, s', b')) (name : String)
    (after : List ActionRef) :
    SameCourse (runFlow transport ⟨name, step :: after⟩ s b) (.error e, s', b') := by
  have steps : performSteps transport (step :: after) s b = (.error e, s', b') := by
    rw [performSteps, failed]
  have course := runFlow_course transport ⟨name, step :: after⟩ s b
  rw [steps] at course
  exact course

theorem sentBySteps_of_failed {step : ActionRef}
    (failed : perform transport s step .none b = (.error e, s', b')) (after : List ActionRef) :
    sentBySteps transport (step :: after) s b = sentBy transport s step .none b := by
  unfold sentBySteps
  rw [performSteps, perform_recording, failed]
  rfl

end Failure

section Flows

variable {name : String} {before after : List ActionRef} {step : ActionRef} {run : FlowRun}
  {s₁ : Session} {b₁ : Bench σ}

theorem runFlow_append (transport : Transport σ) (name other : String)
    (first rest : List ActionRef) (s : Session) (b : Bench σ) :
    SameCourse (runFlow transport ⟨name, first ++ rest⟩ s b)
      (followedBy (runFlow transport ⟨name, first⟩ s b) (runFlow transport ⟨other, rest⟩)) := by
  have begun := (Bench.Alike.refl b).note .info (flowText ⟨name, first ++ rest⟩)
    (flowText ⟨name, first⟩)
  have front := performSteps_alike begun transport first s
  unfold runFlow followedBy
  rw [performSteps_append]
  generalize performSteps transport first s (b.note .info (flowText ⟨name, first ++ rest⟩)) = one
    at front ⊢
  generalize performSteps transport first s (b.note .info (flowText ⟨name, first⟩)) = two
    at front ⊢
  obtain @⟨outcome, s, b, c, alike⟩ := front
  cases outcome with
  | error e => exact .intro alike
  | ok executed =>
    have behind := performSteps_alike (alike.noted .info (flowText ⟨other, rest⟩)) transport rest s
    dsimp only
    generalize performSteps transport rest s b = one at behind ⊢
    generalize performSteps transport rest s (c.note .info (flowText ⟨other, rest⟩)) = two
      at behind ⊢
    obtain @⟨outcome, s, b, c, alike⟩ := behind
    cases outcome <;> exact .intro alike

theorem sentByFlow_append (transport : Transport σ) (name other : String)
    (first rest : List ActionRef) (s : Session) (b : Bench σ) :
    sentByFlow transport ⟨name, first ++ rest⟩ s b =
      sentByFlow transport ⟨name, first⟩ s b ++
        match runFlow transport ⟨name, first⟩ s b with
        | (.error _, _, _) => []
        | (.ok _, s, b) => sentByFlow transport ⟨other, rest⟩ s b := by
  have course := runFlow_course transport ⟨name, first⟩ s b
  simp only [sentByFlow_eq, sentBySteps_append]
  dsimp only at course
  generalize performSteps transport first s b = steps at course ⊢
  obtain ⟨outcome, s', b'⟩ := steps
  obtain ⟨c, flow, alike⟩ := course.exists_eq
  rw [flow]
  cases outcome with
  | error e => rfl
  | ok executed => exact congrArg _ (sentBySteps_alike alike.symm transport rest s')

theorem runFlow_singleton (transport : Transport σ) (name : String) (step : ActionRef)
    (s : Session) (b : Bench σ) :
    SameCourse (runFlow transport ⟨name, [step]⟩ s b)
        ((perform transport s step .none b).1.map fun executed => ⟨name, [executed]⟩,
          (perform transport s step .none b).2) ∧
      sentByFlow transport ⟨name, [step]⟩ s b = sentBy transport s step .none b := by
  have course := runFlow_course transport ⟨name, [step]⟩ s b
  rw [sentByFlow_eq, sentBySteps]
  simp only [performSteps, perform_recording] at course ⊢
  generalize perform transport s step .none b = one at course ⊢
  obtain ⟨outcome, s', b'⟩ := one
  cases outcome <;> exact ⟨course, rfl⟩

/-- A flow comes to the failure of its first step that fails, whatever steps follow. -/
theorem runFlow_of_first_failure
    (succeeded : runFlow transport ⟨name, before⟩ s b = (.ok run, s₁, b₁))
    (failed : perform transport s₁ step .none b₁ = (.error e, s', b')) (after : List ActionRef) :
    SameCourse (runFlow transport ⟨name, before ++ step :: after⟩ s b) (.error e, s', b') ∧
      sentByFlow transport ⟨name, before ++ step :: after⟩ s b =
        sentByFlow transport ⟨name, before⟩ s b ++ sentBy transport s₁ step .none b₁ := by
  have whole := runFlow_append transport name name before (step :: after) s b
  have sent := sentByFlow_append transport name name before (step :: after) s b
  rw [succeeded] at whole sent
  refine ⟨whole.trans ?_, sent.trans ?_⟩
  · obtain ⟨c, stopped, alike⟩ := (runFlow_of_failed failed name after).exists_eq
    unfold followedBy
    dsimp only
    rw [stopped]
    exact .intro alike
  · dsimp only
    rw [sentByFlow_eq transport ⟨name, step :: after⟩, sentBySteps_of_failed failed]

/-- A flow that fails has a first step that fails. -/
theorem exists_first_failure_of_runFlow {steps : List ActionRef}
    (h : runFlow transport ⟨name, steps⟩ s b = (.error e, s', b')) :
    ∃ before step after run s₁ b₁ b₂, steps = before ++ step :: after ∧
      runFlow transport ⟨name, before⟩ s b = (.ok run, s₁, b₁) ∧
      perform transport s₁ step .none b₁ = (.error e, s', b₂) ∧ b'.Alike b₂ := by
  have course := runFlow_course transport ⟨name, steps⟩ s b
  rw [h] at course
  obtain ⟨c, failed, alike⟩ : ∃ c, performSteps transport steps s b = (.error e, s', c) ∧
      b'.Alike c := by
    dsimp only at course
    generalize performSteps transport steps s b = reached at course ⊢
    obtain ⟨outcome, s₂, b₂⟩ := reached
    cases outcome with
    | error e₂ =>
      obtain ⟨alike⟩ := course
      exact ⟨_, rfl, alike⟩
    | ok executed => cases course
  obtain ⟨before, step, after, done, s₁, b₁, rfl, succeeded, failed⟩ := exists_first_failure failed
  have front := runFlow_course transport ⟨name, before⟩ s b
  dsimp only at front
  rw [succeeded] at front
  obtain ⟨b₂, begun, same⟩ := front.exists_eq
  have last := perform_alike same transport s₁ step .none
  rw [failed] at last
  obtain ⟨b₃, stopped, end_⟩ := last.exists_eq
  exact ⟨before, step, after, _, s₁, b₂, b₃, rfl, begun, stopped, alike.trans end_.symm⟩

end Flows

end Session

open Session

/-- A flow is the sequence of its steps. It is found by its name and then run. To run the steps of
two flows as one is to run the first flow and, if it succeeds, the second: with the same session,
files, requests sent and requests executed. A flow of one step is a request with nothing given. If a
step fails after others that succeeded, then whatever steps follow make no difference, as many
requests were executed as steps succeeded, and a step that is refused leaves everything as the steps
before it did; and every flow that fails does so at such a step. -/
theorem flow_is_sequential {σ : Type} (transport : Transport σ) (name : String) (s : Session)
    (b : Bench σ) :
    performFlow transport s name b =
      (match s.project.flow b.tree name with
      | .error e => (.error e, s, b)
      | .ok flow => runFlow transport flow s b) ∧
    (∀ other first rest,
      SameCourse (runFlow transport ⟨name, first ++ rest⟩ s b)
        (followedBy (runFlow transport ⟨name, first⟩ s b) (runFlow transport ⟨other, rest⟩)) ∧
      sentByFlow transport ⟨name, first ++ rest⟩ s b =
        sentByFlow transport ⟨name, first⟩ s b ++
          match runFlow transport ⟨name, first⟩ s b with
          | (.error _, _, _) => []
          | (.ok _, s, b) => sentByFlow transport ⟨other, rest⟩ s b) ∧
    (∀ step,
      SameCourse (runFlow transport ⟨name, [step]⟩ s b)
        ((perform transport s step .none b).1.map fun executed => ⟨name, [executed]⟩,
          (perform transport s step .none b).2) ∧
      sentByFlow transport ⟨name, [step]⟩ s b = sentBy transport s step .none b) ∧
    (∀ before step after run s₁ b₁ e s' b',
      runFlow transport ⟨name, before⟩ s b = (.ok run, s₁, b₁) →
      perform transport s₁ step .none b₁ = (.error e, s', b') →
      SameCourse (runFlow transport ⟨name, before ++ step :: after⟩ s b) (.error e, s', b') ∧
      sentByFlow transport ⟨name, before ++ step :: after⟩ s b =
        sentByFlow transport ⟨name, before⟩ s b ++ sentBy transport s₁ step .none b₁ ∧
      s'.executed = s.executed ++ run.executed ∧ run.executed.length = before.length ∧
      (e.isRefusal = true → s' = s₁ ∧ b' = b₁ ∧
        sentByFlow transport ⟨name, before ++ step :: after⟩ s b =
          sentByFlow transport ⟨name, before⟩ s b)) ∧
    (∀ steps e s' b', runFlow transport ⟨name, steps⟩ s b = (.error e, s', b') →
      ∃ before step after run s₁ b₁ b₂, steps = before ++ step :: after ∧
        runFlow transport ⟨name, before⟩ s b = (.ok run, s₁, b₁) ∧
        perform transport s₁ step .none b₁ = (.error e, s', b₂) ∧ b'.Alike b₂) := by
  refine ⟨performFlow_eq transport s name b, ?_,
    fun step => runFlow_singleton transport name step s b, ?_, ?_⟩
  · intro other first rest
    exact ⟨runFlow_append .., sentByFlow_append ..⟩
  · intro before step after run s₁ b₁ e s' b' succeeded failed
    obtain ⟨course, sent⟩ := runFlow_of_first_failure succeeded failed after
    obtain ⟨executed, length⟩ := executed_of_performSteps (performSteps_of_runFlow succeeded)
    refine ⟨course, sent, (executed_of_error failed).trans executed, length, ?_⟩
    intro refusal
    have refused := refused_of_perform refusal failed
    obtain ⟨-, same⟩ := Prod.mk.inj (failed.symm.trans (perform_of_refused refused transport))
    obtain ⟨rfl, rfl⟩ := Prod.mk.inj same
    rw [sent, sentBy_of_refused refused, List.append_nil]
    exact ⟨rfl, rfl, rfl⟩
  · exact fun steps e s' b' h => exists_first_failure_of_runFlow h

private def looseSession : Session :=
  ⟨⟨⟨"/p"⟩, .standard⟩, "main", none, none, [], [], [], []⟩

private def looseBench : Bench Unit := ⟨.directory [("p", .directory [])], (), []⟩

private def fetching : ActionRef := .inline [("url", .str "x")]

private def answering : Transport Unit := .replying (.ofStatus 200 "OK")

private theorem fetching_run : ∃ run s' b',
    runFlow answering ⟨"f", [fetching]⟩ looseSession looseBench = (.ok run, s', b') ∧
      b'.tree.isFile (s'.project.actionFile "gone") = false := by
  have outcome :
      (runFlow answering ⟨"f", [fetching]⟩ looseSession looseBench).1.isOk = true ∧
      (runFlow answering ⟨"f", [fetching]⟩ looseSession looseBench).2.2.tree.isFile
        ((runFlow answering ⟨"f", [fetching]⟩ looseSession looseBench).2.1.project.actionFile
          "gone") = false := by
    constructor <;> decide +kernel
  generalize runFlow answering ⟨"f", [fetching]⟩ looseSession looseBench = course at outcome ⊢
  obtain ⟨r, s', b'⟩ := course
  cases r with
  | ok run => exact ⟨run, s', b', rfl, outcome.2⟩
  | error e => exact absurd outcome.1 (by simp [Except.isOk, Except.toBool])

/-- A flow stops at a step that names no action, with the request of the step before it done. -/
theorem flow_is_sequential_sample : ∃ run s' b',
    runFlow answering ⟨"f", [fetching]⟩ looseSession looseBench = (.ok run, s', b') ∧
    SameCourse
      (runFlow answering ⟨"f", [fetching] ++ .named "gone" :: [fetching]⟩ looseSession looseBench)
      (.error (.notFound .action "gone"), s', b') ∧ s'.executed.length = 1 := by
  obtain ⟨run, s', b', succeeded, absent⟩ := fetching_run
  have refused : Refused s' b'.tree (.named "gone") .none (.notFound .action "gone") :=
    .action (Project.action_of_not_isFile absent)
  have failed := perform_of_refused refused answering
  obtain ⟨-, -, -, stopped, -⟩ := flow_is_sequential answering "f" looseSession looseBench
  obtain ⟨course, -, executed, length, -⟩ :=
    stopped [fetching] (.named "gone") [fetching] run s' b' _ s' b' succeeded failed
  refine ⟨run, s', b', succeeded, course, ?_⟩
  rw [executed, List.length_append, length]
  rfl

end Runbook
