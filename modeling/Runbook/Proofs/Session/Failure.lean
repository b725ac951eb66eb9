import Runbook.Proofs.Session.Course
import Runbook.Proofs.Session.Numbering

set_option autoImplicit false
set_option relaxedAutoImplicit false

/-!
Requests that are given up. A request ends with an error before it is known to the session, so that
the session has neither executed it nor received anything, and its file is not written. Only when
the session cannot be saved has it taken the outputs already; it keeps them.
-/

namespace Runbook

open Runbook.Files

namespace Session

variable {σ : Type}

/-- What is on disk once a request was sent, and what was there before if it was not sent. -/
def leftBySending (transport : Transport σ) (s : Session) (ref : ActionRef) (o : BuildOptions)
    (b : Bench σ) : Tree :=
  match s.prepare b.tree ref o with
  | .error _ => b.tree
  | .ok p =>
    match makeRecord b.tree p.dumpDirectory with
    | (.error _, _) => b.tree
    | (.ok (), begun) => sent transport p ((b.withTree begun).note .info (sendingText p))

/-- Whether a request was answered and the session, with the outputs taken, could not be saved;
these are then its variables. -/
def SaveFailed (transport : Transport σ) (s : Session) (ref : ActionRef) (o : BuildOptions)
    (b : Bench σ) (e : Error) (vars : Fields) : Prop :=
  ∃ p begun r left fault saved, s.prepare b.tree ref o = .ok p ∧
    makeRecord b.tree p.dumpDirectory = (.ok (), begun) ∧
    exchange transport p ((b.withTree begun).note .info (sendingText p)) = (.ok r, left) ∧
    (s.takeOutputs p.built.fields r).save left.tree = (.error fault, saved) ∧
    e = .io fault ∧ vars = (s.takeOutputs p.built.fields r).vars

variable {transport : Transport σ} {s s' : Session} {ref : ActionRef} {o : BuildOptions}
  {b b' : Bench σ} {e : Error}

private theorem contentAt?_of_grown {t u : Tree} {l : Location}
    (h : Tree.Grown (fun _ => True) (fun _ => False) t u) : u.contentAt? l = t.contentAt? l :=
  h.contentAt?_eq id

private theorem contentAt?_of_dumped {dir : Option Path} {t u : Tree} {l : Location}
    (h : Dumped (dir.map DumpPaths.ofDirectory) t u) (hl : IsSessionFile l) :
    u.contentAt? l = t.contentAt? l :=
  h.grown.contentAt?_eq fun other => other hl

private theorem leftBySending_eq_sent {p : Prepared} {begun : Tree}
    (prepared : s.prepare b.tree ref o = .ok p)
    (recorded : makeRecord b.tree p.dumpDirectory = (.ok (), begun)) :
    leftBySending transport s ref o b =
      sent transport p ((b.withTree begun).note .info (sendingText p)) := by
  unfold leftBySending
  rw [prepared]
  dsimp only
  rw [recorded]

private theorem contentAt?_of_exchange {p : Prepared} {begun : Tree}
    {answer : Except Error Response} {left : Bench σ} {l : Location}
    (prepared : s.prepare b.tree ref o = .ok p)
    (recorded : makeRecord b.tree p.dumpDirectory = (.ok (), begun))
    (answered : exchange transport p ((b.withTree begun).note .info (sendingText p)) =
      (answer, left)) (hl : IsSessionFile l) :
    left.tree.contentAt? l = (leftBySending transport s ref o b).contentAt? l := by
  have dumped := exchange_dumped transport p ((b.withTree begun).note .info (sendingText p))
  rw [answered] at dumped
  rw [leftBySending_eq_sent prepared recorded]
  exact contentAt?_of_dumped dumped hl

/-- After an error, the session files are as the transport left them. -/
private theorem contentAt?_of_error (h : perform transport s ref o b = (.error e, s', b'))
    {l : Location} (hl : IsSessionFile l) :
    b'.tree.contentAt? l = (leftBySending transport s ref o b).contentAt? l := by
  have course := perform_course transport s ref o b
  rw [h] at course
  cases course with
  | unprepared prepared =>
    unfold leftBySending
    rw [prepared]
  | @unrecorded p _ _ prepared recorded =>
    have begun := makeRecord_grown b.tree p.dumpDirectory
    rw [recorded] at begun
    unfold leftBySending
    rw [prepared]
    dsimp only
    rw [recorded]
    exact contentAt?_of_grown begun
  | unanswered prepared recorded answered =>
    exact contentAt?_of_exchange prepared recorded answered hl
  | unsaved prepared recorded answered failed =>
    have unwritten := save_grown_of_error failed
    exact (contentAt?_of_grown unwritten).trans
      (contentAt?_of_exchange prepared recorded answered hl)

/-- If the transport leaves session files alone, they are after sending as they were before. -/
private theorem contentAt?_leftBySending {l : Location}
    (spares : ∀ d dumps wire t, (transport d dumps wire t).2.2.contentAt? l = t.contentAt? l) :
    (leftBySending transport s ref o b).contentAt? l = b.tree.contentAt? l := by
  unfold leftBySending
  split
  · rfl
  · next p _ =>
    split
    · rfl
    · next recorded =>
      have begun := makeRecord_grown b.tree p.dumpDirectory
      rw [recorded] at begun
      exact (spares _ _ _ _).trans (contentAt?_of_grown begun)

end Session

open Session

/-- A request that ends with an error leaves title, contexts, place, executed requests and their
sums as they were, and the variables too, unless it is the saving of the session that failed: then
they are the ones with the outputs. No session file is written but by the transport. -/
theorem perform_error_frame {σ : Type} {transport : Transport σ} {s s' : Session} {ref : ActionRef}
    {o : BuildOptions} {b b' : Bench σ} {e : Error}
    (h : perform transport s ref o b = (.error e, s', b')) :
    s'.title = s.title ∧ s'.contextNames = s.contextNames ∧ s'.directory = s.directory ∧
      s'.executed = s.executed ∧ s'.executed.length = s.executed.length ∧
      s'.totalReceived = s.totalReceived ∧
      (s'.vars = s.vars ∨ SaveFailed transport s ref o b e s'.vars) ∧
      (∀ l, IsSessionFile l →
        b'.tree.contentAt? l = (leftBySending transport s ref o b).contentAt? l) ∧
      (∀ l, IsSessionFile l →
        (∀ d dumps wire t, (transport d dumps wire t).2.2.contentAt? l = t.contentAt? l) →
        b'.tree.contentAt? l = b.tree.contentAt? l) := by
  have session : s'.title = s.title ∧ s'.contextNames = s.contextNames ∧
      s'.directory = s.directory ∧
      (s'.vars = s.vars ∨ SaveFailed transport s ref o b e s'.vars) := by
    have course := perform_course transport s ref o b
    rw [h] at course
    cases course with
    | unprepared => exact ⟨rfl, rfl, rfl, .inl rfl⟩
    | unrecorded => exact ⟨rfl, rfl, rfl, .inl rfl⟩
    | unanswered => exact ⟨rfl, rfl, rfl, .inl rfl⟩
    | @unsaved p begun saved r left fault prepared recorded answered failed =>
      refine ⟨title_takeOutputs .., contextNames_takeOutputs .., directory_takeOutputs .., .inr ?_⟩
      exact ⟨p, begun, r, left, fault, saved, prepared, recorded, answered, failed, rfl, rfl⟩
  obtain ⟨title, contexts, directory, vars⟩ := session
  have executed := executed_of_error h
  refine ⟨title, contexts, directory, executed, by rw [executed], ?_, vars, ?_, ?_⟩
  · rw [totalReceived, totalReceived, executed]
  · intro l hl
    exact contentAt?_of_error h hl
  · intro l hl spares
    rw [contentAt?_of_error h hl]
    exact contentAt?_leftBySending spares

/-- A project with a session whose file cannot be written, for there is a directory in its place. -/
private def blockedTree : Tree :=
  .directory [("p", .directory [("sessions", .directory [("main", .directory [
    ("session.yaml", .directory [])])])])]

/-- The session, with one variable of its own. -/
private def blockedSession : Session :=
  let kept : Fields := [("kept", .str "1")]
  ⟨⟨⟨"/p"⟩, .standard⟩, "main", none, some ⟨"/p/sessions/main"⟩, [], kept, [], []⟩

/-- An answer that is a JSON object of one member. -/
private def idAnswer : Response :=
  ⟨200, "OK", "HTTP/1.1", [("Content-Type", "application/json")],
    Text.encode "\x7b\"id\": \"5\"\x7d"⟩

/-- An action that takes the member as an output. -/
private def takingId : ActionRef :=
  .inline [("url", .str "x"), ("outputs", .map [("id", .str "\x7b\x7bid\x7d\x7d")])]

private theorem blocked_perform : ∃ e s' b',
    perform (.replying idAnswer) blockedSession takingId .none ⟨blockedTree, (), []⟩ =
      (.error e, s', b') ∧ s'.vars = [("kept", .str "1"), ("id", .str "5")] := by
  have names : Tree.directoriesOf blockedTree (Path.join ⟨"/p/sessions/main"⟩ "requests") = [] := by
    decide +kernel
  have place : blockedSession.directory = some ⟨"/p/sessions/main"⟩ := rfl
  have first := nextIdentifier_of_nothing place names rfl
  have outcome :
      (perform (.replying idAnswer) blockedSession takingId .none
        ⟨blockedTree, (), []⟩).1.isOk = false ∧
      (perform (.replying idAnswer) blockedSession takingId .none
        ⟨blockedTree, (), []⟩).2.1.vars = [("kept", .str "1"), ("id", .str "5")] := by
    unfold perform prepare
    rw [first]
    decide +kernel
  generalize perform (.replying idAnswer) blockedSession takingId .none ⟨blockedTree, (), []⟩ =
    course at outcome ⊢
  obtain ⟨r, s', b'⟩ := course
  cases r with
  | error e => exact ⟨e, s', b', rfl, outcome.2⟩
  | ok executed => exact absurd outcome.1 (by simp [Except.isOk, Except.toBool])

/-- A request may end with an error and leave a variable that was not there. -/
theorem perform_error_keeps_outputs : ∃ (transport : Transport Unit) (s : Session) (ref : ActionRef)
    (o : BuildOptions) (b : Bench Unit) (e : Error) (s' : Session) (b' : Bench Unit),
    perform transport s ref o b = (.error e, s', b') ∧ Fields.get? s.vars "id" = none ∧
      Fields.get? s'.vars "id" = some (.str "5") := by
  obtain ⟨e, s', b', failed, vars⟩ := blocked_perform
  refine ⟨.replying idAnswer, blockedSession, takingId, .none, _, e, s', b', failed, ?_, ?_⟩
  · decide
  · rw [vars]
    decide

theorem perform_error_frame_sample : ∃ s' b',
    (∃ e, perform (.replying idAnswer) blockedSession takingId .none ⟨blockedTree, (), []⟩ =
      (.error e, s', b')) ∧ s'.executed = [] ∧ s'.title = none ∧
      b'.tree.contentAt? ["p", "sessions", "main", "session.yaml"] = none := by
  obtain ⟨e, s', b', failed, -⟩ := blocked_perform
  obtain ⟨title, -, -, executed, -, -, -, -, files⟩ := perform_error_frame failed
  have place : IsSessionFile ["p", "sessions", "main", "session.yaml"] := rfl
  refine ⟨s', b', ⟨e, failed⟩, executed, title, ?_⟩
  rw [files _ place (fun _ _ _ _ => rfl)]
  decide

end Runbook
