import Runbook.Proofs.Session.Flows
import Runbook.Proofs.Session.Lockstep
import Runbook.Proofs.Template.References

set_option autoImplicit false
set_option relaxedAutoImplicit false

/-!
Requests that could not be sent. A transport that fails is as good as one that answers without a
status and writes that answer to its file: the same comes of the request, for the session and for
the files. What keeps the two together is that the directory of a record is new, so that there is no
older answer in it to be kept.
-/

namespace Runbook

open Runbook.Files

/-- A tree after at most the request was written to its file, with the directories above it. -/
inductive RequestDumped (dumps : Option DumpPaths) (t : Tree) : Tree → Prop
  | nothing : RequestDumped dumps t t
  | parents {u : Tree} {paths : DumpPaths} :
      dumps = some paths → RequestDumped dumps t u →
      RequestDumped dumps t (u.makeParents paths.request).2
  | request {u : Tree} {paths : DumpPaths} (content : Text.Bytes) :
      dumps = some paths → RequestDumped dumps t u →
      RequestDumped dumps t (u.write paths.request content).2

theorem RequestDumped.of_writeRequest (paths : DumpPaths) (t : Tree) (d : Request.Descriptor) :
    RequestDumped (some paths) t (paths.writeRequest t d).2 := by
  have parents : RequestDumped (some paths) t (t.makeParents paths.request).2 :=
    .parents rfl .nothing
  unfold DumpPaths.writeRequest Tree.Change.andThen
  split
  · next made =>
    rw [made] at parents
    exact .request _ rfl parents
  · next made =>
    rw [made] at parents
    exact parents

namespace Transport

variable {σ : Type}

/-- Whether a transport that fails has written at most the request. -/
def FailsEarly (transport : Transport σ) : Prop :=
  ∀ d dumps wire t fault, (transport d dumps wire t).1 = .error fault →
    RequestDumped dumps t (transport d dumps wire t).2.2

/-- A transport that does what another one does; where that one fails, it answers without a status
and writes the answer. -/
def settled (transport : Transport σ) : Transport σ := fun d dumps wire t =>
  match transport d dumps wire t with
  | (.ok r, wire, u) => (.ok r, wire, u)
  | (.error fault, wire, u) =>
    let r := Response.failure fault.message
    match dump u (dumps.map (·.writeResponse u r)) with
    | (.ok (), v) => (.ok r, wire, v)
    | (.error unwritten, v) => (.error unwritten, wire, v)

/-- A transport that writes the request and gets no answer. -/
def failing (fault : SendFault) : Transport Unit := fun d dumps wire t =>
  (.error fault, wire, (dump t (dumps.map (·.writeRequest t d))).2)

theorem failsEarly_failing (fault : SendFault) : (failing fault).FailsEarly := by
  intro d dumps wire t _ _
  unfold failing
  cases dumps with
  | none => exact .nothing
  | some paths =>
    have written := RequestDumped.of_writeRequest paths t d
    dsimp only [Option.map_some]
    rcases outcome : paths.writeRequest t d with ⟨answer, after⟩
    rw [outcome] at written
    cases answer <;> exact written

end Transport

/-- In a directory that is there, nothing but the file of the request is new. -/
theorem RequestDumped.grown_in {record : Path} {t u : Tree} {l : Location}
    (h : RequestDumped (some (DumpPaths.ofDirectory record)) t u)
    (walked : t.locateFrom [] record.steps = .ok l) (inside : t.standing l = .directory) :
    Tree.Grown (fun _ => False) (· = l ++ ["request.txt"]) t u := by
  obtain rfl := Tree.eq_walk_of_locateFrom walked
  induction h with
  | nothing => exact .refl
  | parents given _ ih =>
    obtain rfl := Option.some.inj given
    have stay := fun m hm => ih.standing_directory (l := m) hm
    have same := Tree.makeParents_eq_self plain_request (Tree.locateFrom_mono stay walked)
      (stay _ inside)
    rw [DumpPaths.ofDirectory, same]
    exact ih
  | request content given _ ih =>
    obtain rfl := Option.some.inj given
    exact ih.trans (Tree.write_grown plain_request _ record content)

/-- Where all directories are there, that a response cannot be written does not depend on what it
says, and changes nothing. -/
theorem DumpPaths.writeResponse_of_error {paths : DumpPaths} {t u : Tree} {r : Response}
    {fault : Fault} (there : (t.makeParents paths.request).2 = t)
    (h : paths.writeResponse t r = (.error fault, u)) :
    u = t ∧ ∀ other, paths.writeResponse t other = (.error fault, t) := by
  unfold writeResponse Tree.Change.andThen at h ⊢
  rcases made : t.makeParents paths.request with ⟨outcome, after⟩
  rw [made] at h there
  obtain rfl : after = t := there
  cases outcome with
  | error unmade =>
    obtain ⟨same, rfl⟩ := Prod.mk.inj h
    obtain rfl := Except.error.inj same
    exact ⟨rfl, fun _ => rfl⟩
  | ok _ =>
    obtain ⟨same, others⟩ := Tree.write_of_error h
    exact ⟨same, fun other => others _⟩

namespace Session

variable {σ : Type} {transport : Transport σ} {s : Session} {ref : ActionRef} {o : BuildOptions}
  {b : Bench σ} {dir : Path} {t u begun : Tree}

theorem placeIn_recordPath (dir : Path) (n : Nat) (action name : String) :
    Tree.placeIn (recordPath dir n action) name =
      Tree.placeIn dir "requests" ++ [Recorded.directoryName n action] ++ [name] := by
  rw [Tree.placeIn, recordPath, Tree.walk_steps_join (Recorded.plain_directoryName n action),
    placeIn_join_requests]

theorem walked_of_made {n : Nat} {action : String}
    (made : t.makeDirectories (recordPath dir n action) = (.ok (), begun)) :
    begun.locateFrom [] (recordPath dir n action).steps =
        .ok (Tree.placeIn dir "requests" ++ [Recorded.directoryName n action]) ∧
      begun.standing (Tree.placeIn dir "requests" ++ [Recorded.directoryName n action]) =
        .directory := by
  have plain := Recorded.plain_directoryName n action
  obtain ⟨-, walked, -, inside⟩ := Tree.makeDirectories_join_eq_ok plain made
  rw [placeIn_join_requests] at walked inside
  rw [recordPath, Path.steps_join _ plain]
  exact ⟨walked, inside⟩

theorem standing_in_record {n : Nat} {action : String} (grounded : t.Grounded dir.steps)
    (above : ∀ r ∈ recordsIn dir t, r.identifier < n) (below : n < Text.bound32)
    (made : t.makeDirectories (recordPath dir n action) = (.ok (), begun)) (name : String) :
    begun.standing (Tree.placeIn (recordPath dir n action) name) = .nothing := by
  have absent := standing_record_eq_nothing grounded above below made
  rw [placeIn_recordPath]
  refine (grown_of_made grounded made).standing_eq_nothing ?_ id ?_
  · intro onTheWay
    have longer := onTheWay.length_le
    simp at longer
  · exact Tree.standing_below (by simp [absent]) _ []

/-- Where there is no response, there is none after the request was written. -/
theorem response_absent {record : Path} {l : Location}
    (walked : t.locateFrom [] record.steps = .ok l) (inside : t.standing l = .directory)
    (empty : t.standing (Tree.placeIn record "response.txt") = .nothing)
    (dumped : RequestDumped (some (DumpPaths.ofDirectory record)) t u) :
    u.has (DumpPaths.ofDirectory record).response = false ∧
      (u.makeParents (DumpPaths.ofDirectory record).request).2 = u := by
  obtain rfl := Tree.eq_walk_of_locateFrom walked
  have grown := dumped.grown_in walked inside
  have stay := fun l hl => grown.standing_directory (l := l) hl
  have still : u.standing (Tree.placeIn record "response.txt") = .nothing :=
    grown.standing_eq_nothing id (by simp [Tree.placeIn]) empty
  simp only [DumpPaths.ofDirectory]
  exact ⟨Tree.has_join_eq_false plain_response still,
    Tree.makeParents_eq_self plain_request (Tree.locateFrom_mono stay walked) (stay _ inside)⟩

/-- Where no response is there before, an exchange that fails comes to the same as one that is
answered without a status. -/
theorem exchange_settled {p : Prepared} (early : transport.FailsEarly)
    (fresh : ∀ paths u, p.dumpDirectory.map DumpPaths.ofDirectory = some paths →
      RequestDumped (some paths) b.tree u →
      u.has paths.response = false ∧ (u.makeParents paths.request).2 = u) :
    (exchange transport p b).1 = (exchange transport.settled p b).1 ∧
      (exchange transport p b).2.Alike (exchange transport.settled p b).2 := by
  have dumped := early p.built.descriptor (p.dumpDirectory.map DumpPaths.ofDirectory) b.wire b.tree
  unfold exchange Transport.settled
  dsimp only
  generalize p.dumpDirectory.map DumpPaths.ofDirectory = dumps at dumped fresh ⊢
  rcases sent : transport p.built.descriptor dumps b.wire b.tree with ⟨answer, wire, after⟩
  rw [sent] at dumped
  cases answer with
  | ok r => exact ⟨rfl, .intro _ _⟩
  | error fault =>
    have left : RequestDumped dumps b.tree after := dumped fault rfl
    cases dumps with
    | none => exact ⟨rfl, .intro _ _⟩
    | some paths =>
      obtain ⟨absent, there⟩ := fresh paths after rfl left
      have records : ∀ r, recordFailure after (some paths) r = paths.writeResponse after r := by
        intro r
        simp [recordFailure, absent]
      dsimp only [Bench.note, Option.map_some]
      rw [records]
      rcases written : paths.writeResponse after (.failure fault.message) with ⟨outcome, final⟩
      cases outcome with
      | ok _ => exact ⟨rfl, .intro _ _⟩
      | error unwritten =>
        obtain ⟨rfl, others⟩ := DumpPaths.writeResponse_of_error there written
        dsimp only [Transport.dump]
        rw [records, others]
        exact ⟨rfl, .intro _ _⟩

/-- Two transports with which each exchange of a request comes to the same make the same of it. -/
theorem sameCourse_of_exchange {first second : Transport σ}
    (same : ∀ p begun, s.prepare b.tree ref o = .ok p →
      makeRecord b.tree p.dumpDirectory = (.ok (), begun) →
      (exchange first p ((b.withTree begun).note .info (sendingText p))).1 =
        (exchange second p ((b.withTree begun).note .info (sendingText p))).1 ∧
      (exchange first p ((b.withTree begun).note .info (sendingText p))).2.Alike
        (exchange second p ((b.withTree begun).note .info (sendingText p))).2) :
    SameCourse (perform first s ref o b) (perform second s ref o b) := by
  unfold perform
  cases prepared : s.prepare b.tree ref o with
  | error e => exact .intro (.refl b)
  | ok p =>
    dsimp only
    rcases recorded : makeRecord b.tree p.dumpDirectory with ⟨outcome, begun⟩
    cases outcome with
    | error fault => exact .intro (.refl _)
    | ok _ =>
      obtain ⟨answers, left⟩ := same p begun prepared recorded
      dsimp only
      generalize exchange first p ((b.withTree begun).note .info _) = one at answers left ⊢
      generalize exchange second p ((b.withTree begun).note .info _) = other at answers left ⊢
      obtain ⟨answer, after⟩ := one
      obtain ⟨_, after'⟩ := other
      obtain rfl : answer = _ := answers
      cases answer with
      | error e => exact .intro left
      | ok r => exact conclude_alike (left.note .info _ _) s p r

/-- Without a status, there is nothing in a response for outputs to see. -/
theorem outputs_failure (pairs : Fields) (message : String) (session : Scope) :
    Extract.outputs pairs (.failure message) session =
      pairs.map fun entry => (entry.1, Template.interpolate session entry.2) := by
  have evaluates : ∀ path, (Extract.scope (.failure message) session).evaluate path =
      session.evaluate path := by
    intro path
    have bare : Extract.responseVars (.failure message) = [] := rfl
    have resolves : ∀ name, (Extract.scope (.failure message) session).resolve name =
        session.resolve name := by
      intro name
      simp [Scope.resolve, Extract.scope, bare, Fields.get?]
    unfold Scope.evaluate
    simp only [resolves]
  unfold Extract.outputs
  refine List.map_congr_left fun entry _ => ?_
  obtain ⟨name, template⟩ := entry
  dsimp only
  rw [Template.interpolate_congr fun path _ => evaluates path]

end Session

open Session

/-- A request that could not be sent, by a transport that wrote at most the request, in a session
whose path is grounded: the outcome, the session and the files are what they are with a transport
that answers without a status, names the fault and writes that answer. If the files can be written,
the request is done, its response names the fault, and the outputs are read over the session alone. -/
theorem failure_like_response {σ : Type} {transport : Transport σ} {s : Session} {ref : ActionRef}
    {o : BuildOptions} {b : Bench σ} (early : transport.FailsEarly)
    (grounded : ∀ dir, s.directory = some dir → b.tree.Grounded dir.steps) :
    SameCourse (perform transport s ref o b) (perform transport.settled s ref o b) ∧
    ∀ fault, answer? transport s ref o b = some (.error fault) →
      (∀ unwritten, (perform transport s ref o b).1 ≠ .error (.io unwritten)) →
      ∃ action e s' b', s.project.resolveAction b.tree ref = .ok action ∧
        perform transport s ref o b = (.ok e, s', b') ∧ e.response = .failure fault.message ∧
        (action.outputs = none → s'.vars = s.vars) ∧
        ∀ pairs, action.outputs = some pairs → s'.vars = s.vars.merge
          (pairs.map fun entry => (entry.1, Template.interpolate s.scope entry.2)) := by
  refine ⟨?_, ?_⟩
  · refine sameCourse_of_exchange fun p begun prepared recorded => exchange_settled early ?_
    intro paths u given dumped
    obtain ⟨record, dumps, rfl⟩ := Option.map_eq_some_iff.mp given
    obtain ⟨dir, place⟩ : ∃ dir, s.directory = some dir := by
      by_contra nowhere
      have unsaved : s.directory = none :=
        Option.eq_none_iff_forall_ne_some.mpr fun dir place => nowhere ⟨dir, place⟩
      have bare := dumpDirectory_of_unsaved unsaved prepared
      rw [bare] at dumps
      cases dumps
    obtain ⟨next, below, own⟩ := record_of_prepare place prepared
    obtain rfl := Option.some.inj (dumps.symm.trans own)
    have above : ∀ r ∈ recordsIn dir b.tree, r.identifier < p.identifier := by
      intro r hr
      rw [← recorded_eq place] at hr
      have least := le_highest_of_recorded hr
      omega
    rw [dumps] at recorded
    have made : b.tree.makeDirectories (recordPath dir p.identifier p.built.action.name) =
        (.ok (), begun) :=
      recorded
    obtain ⟨walked, inside⟩ := walked_of_made made
    exact response_absent walked inside
      (standing_in_record (grounded dir place) above below made "response.txt") dumped
  · intro fault unsent written
    obtain ⟨p, prepared⟩ : ∃ p, s.prepare b.tree ref o = .ok p := by
      unfold answer? at unsent
      cases prepared : s.prepare b.tree ref o with
      | error e => simp [prepared] at unsent
      | ok p => exact ⟨p, rfl⟩
    obtain ⟨e, s', b', done⟩ := perform_eq_ok_of_prepare prepared written
    obtain ⟨answer, answered, response⟩ := response_of_perform done
    obtain rfl := Option.some.inj (answered.symm.trans unsent)
    have failed : e.response = .failure fault.message := response
    obtain ⟨action, resolved, undeclared, taken⟩ := vars_of_perform done
    refine ⟨action, e, s', b', resolved, done, failed, undeclared, ?_⟩
    intro pairs declared
    rw [taken pairs declared, failed, outputs_failure]

private def idleHandle (dir : Path) : Session :=
  ⟨⟨⟨"/p"⟩, .standard⟩, "main", none, some dir, [], [("kept", .str "1")], [], []⟩

private def askingAction : ActionRef :=
  .inline [("url", .str "x"), ("outputs", .map [("seen", .str "\x7b\x7bkept\x7d\x7d")])]

private theorem nextIdentifier_idleHandle {dir : Path} {t : Tree}
    (h : t.directoriesOf (dir.join "requests") = []) :
    (idleHandle dir).nextIdentifier t = .ok 1 :=
  nextIdentifier_of_nothing (s := idleHandle dir) rfl h rfl

private def homePath : Path := ⟨"/p/sessions/main"⟩

private def homeBench : Bench Unit := ⟨.directory [("p", .directory [])], (), []⟩

theorem failure_like_response_sample : ∃ e s' b',
    perform (.failing .timeout) (idleHandle homePath) askingAction .none homeBench =
      (.ok e, s', b') ∧ e.response = .failure "Request timed out" ∧
      s'.vars = [("kept", .str "1"), ("seen", .str "1")] := by
  have first : (idleHandle homePath).nextIdentifier homeBench.tree = .ok 1 :=
    nextIdentifier_idleHandle (by decide +kernel)
  have unsent : answer? (.failing .timeout) (idleHandle homePath) askingAction .none homeBench =
      some (.error .timeout) := by
    unfold answer? prepare
    rw [first]
    decide +kernel
  have written : (perform (.failing .timeout) (idleHandle homePath) askingAction .none
      homeBench).1.isOk = true := by
    unfold perform prepare
    rw [first]
    decide +kernel
  have grounded : ∀ dir, (idleHandle homePath).directory = some dir →
      homeBench.tree.Grounded dir.steps := by
    intro dir place
    obtain rfl := Option.some.inj place
    exact Tree.grounded_of_descending _ (by decide)
  obtain ⟨-, done⟩ := @failure_like_response Unit _ _ askingAction .none homeBench
    (Transport.failsEarly_failing .timeout) grounded
  obtain ⟨action, e, s', b', resolved, performed, response, -, vars⟩ := done .timeout unsent
    (by intro unwritten failed; simp [failed, Except.isOk, Except.toBool] at written)
  obtain rfl := Except.ok.inj resolved
  refine ⟨e, s', b', performed, response, ?_⟩
  rw [vars [("seen", .str "\x7b\x7bkept\x7d\x7d")] (by decide +kernel)]
  decide +kernel

/-- A project without sessions, and beside them an answer that was written before. -/
private def answeredBench : Bench Unit :=
  ⟨.directory [("p", .directory [("b", .directory [("requests", .directory [("1-inline",
    .directory [("response.txt", .file (Text.encode "old"))])])])])], (), []⟩

private def climbingPath : Path := ⟨"/p/sessions/../b"⟩

/-- On a path that climbs out of a directory that is not there, a request that could not be sent may
keep an older answer, which an answer without a status replaces. -/
theorem failure_keeps_old_response : ∃ (s : Session) (ref : ActionRef) (b : Bench Unit),
    (Transport.failing .timeout).FailsEarly ∧
      (perform (.failing .timeout) s ref .none b).1.isOk = true ∧
      (perform (Transport.failing .timeout).settled s ref .none b).1.isOk = true ∧
      (perform (.failing .timeout) s ref .none b).2.2.tree.contentAt?
        ["p", "b", "requests", "1-inline", "response.txt"] = some (Text.encode "old") ∧
      (perform (Transport.failing .timeout).settled s ref .none b).2.2.tree.contentAt?
        ["p", "b", "requests", "1-inline", "response.txt"] =
          some (Message.ofResponse (.failure "Request timed out")) := by
  have first : (idleHandle climbingPath).nextIdentifier answeredBench.tree = .ok 1 :=
    nextIdentifier_idleHandle (by decide +kernel)
  refine ⟨idleHandle climbingPath, askingAction, answeredBench,
    Transport.failsEarly_failing .timeout, ?_⟩
  unfold perform prepare
  rw [first]
  decide +kernel

end Runbook
