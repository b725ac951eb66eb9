import Runbook.Proofs.Session.Building
import Runbook.Proofs.Session.Numbering

set_option autoImplicit false
set_option relaxedAutoImplicit false

/-!
Requests that are refused. Whatever is unknown, malformed or invalid about a request is found before
anything is done: nothing is sent, no file is made or changed, and the session stays as it is. What
goes wrong later is a fault of the files.
-/

namespace Runbook

open Runbook.Files

/-- Whether an error says that something is unknown, malformed or invalid. -/
def Error.isRefusal : Error → Bool
  | .notFound _ _ => true
  | .malformed _ _ => true
  | .invalidRequest _ => true
  | .io _ => false

/-- A transport that also keeps the requests it was asked to send, the latest last. -/
def Transport.recording {σ : Type} (transport : Transport σ) :
    Transport (σ × List Request.Descriptor) := fun d dumps wire t =>
  match transport d dumps wire.1 t with
  | (answer, next, after) => (answer, (next, wire.2 ++ [d]), after)

/-- A bench at which the requests are kept, after some that were sent before. -/
def Bench.recording {σ : Type} (b : Bench σ) (log : List Request.Descriptor) :
    Bench (σ × List Request.Descriptor) :=
  ⟨b.tree, (b.wire, log), b.notices⟩

namespace Session

variable {σ : Type} {transport : Transport σ} {s s' : Session} {ref : ActionRef} {o : BuildOptions}
  {b b' : Bench σ} {t : Tree} {e : Error}

/-- The requests that the transport is asked to send when a request is performed. -/
def sentBy (transport : Transport σ) (s : Session) (ref : ActionRef) (o : BuildOptions)
    (b : Bench σ) : List Request.Descriptor :=
  (perform transport.recording s ref o (b.recording [])).2.2.wire.2

/-- Why a request is refused: its action cannot be had, or a context given with it, or its fields
make no request, or there is no number left for it. -/
inductive Refused (s : Session) (t : Tree) (ref : ActionRef) (o : BuildOptions) : Error → Prop
  | action {e : Error} : s.project.resolveAction t ref = .error e → Refused s t ref o e
  | context {action : Action} {e : Error} :
      s.project.resolveAction t ref = .ok action → s.requestScope t o = .error e →
      Refused s t ref o e
  | fields {action : Action} {scope : Scope} {fault : Request.Fault} :
      s.project.resolveAction t ref = .ok action → s.requestScope t o = .ok scope →
      Request.describe (action.interpolate scope) scope s.project.settings = .error fault →
      Refused s t ref o (.invalidRequest fault)
  | exhausted {built : Built} :
      s.build t ref o = .ok built → Text.bound32 ≤ s.highest t + 1 →
      Refused s t ref o (.invalidRequest (.identifiersExhausted s.name))

/-- Only the first three of these reasons keep a request from being built. -/
theorem build_eq_error : s.build t ref o = .error e ↔
    s.project.resolveAction t ref = .error e ∨
      ∃ action, s.project.resolveAction t ref = .ok action ∧
        (s.requestScope t o = .error e ∨
          ∃ scope fault, s.requestScope t o = .ok scope ∧
            Request.describe (action.interpolate scope) scope s.project.settings = .error fault ∧
            e = .invalidRequest fault) := by
  unfold build fill
  simp only [Outcome.bind_eq_error, Outcome.bind_eq_ok, pure, Except.pure, reduceCtorEq,
    and_false, exists_false, or_false, Except.ok.injEq]
  constructor
  · rintro (unresolved | ⟨filled, ⟨action, resolved, scope, found, rfl⟩, undescribed⟩)
    · rcases unresolved with unresolved | ⟨action, resolved, unfound⟩
      · exact .inl unresolved
      · exact .inr ⟨action, resolved, .inl unfound⟩
    · dsimp only at undescribed
      split at undescribed
      · cases undescribed
      · next fault refused =>
        cases undescribed
        exact .inr ⟨action, resolved, .inr ⟨scope, fault, found, refused, rfl⟩⟩
  · rintro (unresolved | ⟨action, resolved, unfound | ⟨scope, fault, found, refused, rfl⟩⟩)
    · exact .inl (.inl unresolved)
    · exact .inl (.inr ⟨action, resolved, unfound⟩)
    · refine .inr ⟨_, ⟨action, resolved, scope, found, rfl⟩, ?_⟩
      dsimp only
      rw [refused]
      rfl

theorem prepare_eq_error : s.prepare t ref o = .error e ↔ Refused s t ref o e := by
  unfold prepare
  simp only [Outcome.bind_eq_error, pure, Except.pure, reduceCtorEq, and_false, exists_false,
    or_false]
  constructor
  · rintro (unbuilt | ⟨built, hbuilt, unnumbered⟩)
    · rcases build_eq_error.mp unbuilt with unresolved |
        ⟨action, resolved, unfound | ⟨scope, fault, found, refused, rfl⟩⟩
      · exact .action unresolved
      · exact .context resolved unfound
      · exact .fields resolved found refused
    · obtain ⟨above, rfl⟩ := nextIdentifier_eq_error.mp unnumbered
      exact .exhausted hbuilt above
  · intro refused
    cases refused with
    | action unresolved => exact .inl (build_eq_error.mpr (.inl unresolved))
    | context resolved unfound =>
      exact .inl (build_eq_error.mpr (.inr ⟨_, resolved, .inl unfound⟩))
    | fields resolved found refused =>
      exact .inl (build_eq_error.mpr (.inr ⟨_, resolved, .inr ⟨_, _, found, refused, rfl⟩⟩))
    | exhausted hbuilt above => exact .inr ⟨_, hbuilt, nextIdentifier_eq_error.mpr ⟨above, rfl⟩⟩

theorem refused_of_build (unbuilt : s.build t ref o = .error e) : Refused s t ref o e := by
  refine prepare_eq_error.mp ?_
  unfold prepare
  rw [unbuilt]
  rfl

/-- To keep the requests changes nothing about an exchange, which sends its own request. -/
theorem exchange_recording (transport : Transport σ) (p : Prepared) (b : Bench σ)
    (log : List Request.Descriptor) :
    exchange transport.recording p (b.recording log) =
      ((exchange transport p b).1,
        (exchange transport p b).2.recording (log ++ [p.built.descriptor])) := by
  unfold exchange Transport.recording Bench.recording
  dsimp only
  rcases transport p.built.descriptor (p.dumpDirectory.map DumpPaths.ofDirectory) b.wire b.tree with
    ⟨answer, next, after⟩
  cases answer with
  | ok r => rfl
  | error fault =>
    dsimp only [Bench.note]
    rcases recordFailure after (p.dumpDirectory.map DumpPaths.ofDirectory)
      (Response.failure fault.message) with ⟨outcome, left⟩
    cases outcome <;> rfl

theorem conclude_recording (s : Session) (p : Prepared) (r : Response) (b : Bench σ)
    (log : List Request.Descriptor) :
    s.conclude p r (b.recording log) =
      ((s.conclude p r b).1, (s.conclude p r b).2.1, (s.conclude p r b).2.2.recording log) := by
  unfold conclude Bench.recording
  dsimp only
  rcases (s.takeOutputs p.built.fields r).save b.tree with ⟨outcome, left⟩
  cases outcome <;> rfl

/-- To keep the requests changes nothing about a request but that they are kept. -/
theorem perform_recording (transport : Transport σ) (s : Session) (ref : ActionRef)
    (o : BuildOptions) (b : Bench σ) (log : List Request.Descriptor) :
    perform transport.recording s ref o (b.recording log) =
      ((perform transport s ref o b).1, (perform transport s ref o b).2.1,
        (perform transport s ref o b).2.2.recording (log ++ sentBy transport s ref o b)) := by
  -- What is added does not depend on what was kept before, so an empty list shows it.
  have course : ∃ calls, ∀ log, perform transport.recording s ref o (b.recording log) =
      ((perform transport s ref o b).1, (perform transport s ref o b).2.1,
        (perform transport s ref o b).2.2.recording (log ++ calls)) := by
    unfold perform
    have tree : ∀ log, (b.recording log).tree = b.tree := fun _ => rfl
    simp only [tree]
    cases s.prepare b.tree ref o with
    | error e => exact ⟨[], fun log => by simp⟩
    | ok p =>
      dsimp only
      rcases makeRecord b.tree p.dumpDirectory with ⟨outcome, begun⟩
      cases outcome with
      | error fault => exact ⟨[], fun log => by simp [Bench.recording, Bench.withTree]⟩
      | ok _ =>
        refine ⟨[p.built.descriptor], fun log => ?_⟩
        have noted : ((b.recording log).withTree begun).note .info (sendingText p) =
            ((b.withTree begun).note .info (sendingText p)).recording log := rfl
        dsimp only
        rw [noted, exchange_recording]
        rcases exchange transport p ((b.withTree begun).note .info (sendingText p)) with
          ⟨answer, left⟩
        cases answer with
        | error e => rfl
        | ok r => exact conclude_recording s p r (left.note .info (answeredText p r)) _
  obtain ⟨calls, course⟩ := course
  have same : sentBy transport s ref o b = calls := by
    unfold sentBy
    rw [course []]
    rfl
  rw [course log, same]

/-- A request that is done was sent once, as it is known to the session. -/
theorem sentBy_of_perform {executed : Executed}
    (done : perform transport s ref o b = (.ok executed, s', b')) :
    sentBy transport s ref o b = [executed.request] := by
  obtain ⟨p, begun, r, left, prepared, recorded, answered, -, rfl, -⟩ := perform_eq_ok done
  have tree : (b.recording []).tree = b.tree := rfl
  have noted : ((b.recording []).withTree begun).note .info (sendingText p) =
      ((b.withTree begun).note .info (sendingText p)).recording [] := rfl
  unfold sentBy perform
  rw [tree, prepared]
  dsimp only
  rw [recorded]
  dsimp only
  rw [noted, exchange_recording, answered]
  exact congrArg (·.2.2.wire.2) (conclude_recording s p r (left.note .info (answeredText p r)) _)

/-- After a request was sent, only the files can fail. -/
theorem error_of_exchange {p : Prepared} {left : Bench σ}
    (h : exchange transport p b = (.error e, left)) : ∃ fault, e = .io fault := by
  unfold exchange at h
  dsimp only at h
  split at h
  · cases (Prod.mk.inj h).1
  · split at h
    · cases (Prod.mk.inj h).1
    · next fault _ _ =>
      obtain ⟨same, -⟩ := Prod.mk.inj h
      exact ⟨fault, (Except.error.inj same).symm⟩

theorem perform_of_refused (refused : Refused s b.tree ref o e) (transport : Transport σ) :
    perform transport s ref o b = (.error e, s, b) := by
  unfold perform
  rw [prepare_eq_error.mpr refused]

/-- A request that is refused is not sent. -/
theorem sentBy_of_refused (refused : Refused s b.tree ref o e) (transport : Transport σ) :
    sentBy transport s ref o b = [] := by
  have kept : Refused s (b.recording []).tree ref o e := refused
  unfold sentBy
  rw [perform_of_refused kept]
  rfl

/-- A request that ends with a refusal has been refused. -/
theorem refused_of_perform (refusal : e.isRefusal = true)
    (h : perform transport s ref o b = (.error e, s', b')) : Refused s b.tree ref o e := by
  have course := perform_course transport s ref o b
  rw [h] at course
  cases course with
  | unprepared prepared => exact prepare_eq_error.mp prepared
  | unrecorded => cases refusal
  | unanswered _ _ answered =>
    obtain ⟨fault, rfl⟩ := error_of_exchange answered
    cases refusal
  | unsaved => cases refusal

end Session

open Session

/-- A request ends with something unknown, malformed or invalid if and only if there is a reason to
refuse it beforehand, and then nothing has happened: the session, the files, the state of the
transport and the notices are the same as before, and nothing was sent. -/
theorem perform_refused_iff {σ : Type} {transport : Transport σ} {s s' : Session} {ref : ActionRef}
    {o : BuildOptions} {b b' : Bench σ} {e : Error} (refusal : e.isRefusal = true) :
    perform transport s ref o b = (.error e, s', b') ↔
      Refused s b.tree ref o e ∧ s' = s ∧ b' = b ∧ sentBy transport s ref o b = [] := by
  constructor
  · intro h
    have refused := refused_of_perform refusal h
    obtain ⟨-, same⟩ := Prod.mk.inj (h.symm.trans (perform_of_refused refused transport))
    obtain ⟨rfl, rfl⟩ := Prod.mk.inj same
    have unsent : sentBy transport s' ref o b' = [] := by
      have kept : Refused s' (b'.recording []).tree ref o e := refused
      unfold sentBy
      rw [perform_of_refused kept]
      rfl
    exact ⟨refused, rfl, rfl, unsent⟩
  · rintro ⟨refused, rfl, rfl, -⟩
    exact perform_of_refused refused transport

private def bareSession : Session :=
  ⟨⟨⟨"/p"⟩, .standard⟩, "main", none, some ⟨"/p/sessions/main"⟩, [], [], [], []⟩

private def bareTree : Tree := .directory [("p", .directory [])]

/-- A request with a context that is not there is refused, and not sent. -/
theorem perform_refused_iff_sample : ∃ s' b',
    perform (.replying (.ofStatus 200 "OK")) bareSession (.inline [("url", .str "x")])
      ⟨["nowhere"], []⟩ ⟨bareTree, (), []⟩ = (.error (.notFound .context "nowhere"), s', b') ∧
    s' = bareSession ∧ b' = ⟨bareTree, (), []⟩ ∧
    sentBy (.replying (.ofStatus 200 "OK")) bareSession (.inline [("url", .str "x")])
      ⟨["nowhere"], []⟩ ⟨bareTree, (), []⟩ = [] := by
  have absent : bareTree.isFile (bareSession.project.variantFile "nowhere") = false := by
    decide
  have unknown : bareSession.requestScope bareTree ⟨["nowhere"], []⟩ =
      .error (.notFound .context "nowhere") := by
    unfold requestScope Project.contextScope Project.contextVariables
    simp [absent, bind, Except.bind, Except.map]
  have refused : Refused bareSession bareTree (.inline [("url", .str "x")]) ⟨["nowhere"], []⟩
      (.notFound .context "nowhere") := .context rfl unknown
  have ended := perform_of_refused (b := ⟨bareTree, (), []⟩) refused
    (.replying (.ofStatus 200 "OK"))
  obtain ⟨-, session, bench, unsent⟩ := (perform_refused_iff rfl).mp ended
  exact ⟨_, _, ended, session, bench, unsent⟩

end Runbook
