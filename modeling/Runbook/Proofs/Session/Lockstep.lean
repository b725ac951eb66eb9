import Runbook.Proofs.Session.Identifiers
import Runbook.Proofs.Session.Opening
import Runbook.Proofs.Session.Refusal
import Runbook.Proofs.Session.Unsaved

set_option autoImplicit false
set_option relaxedAutoImplicit false

/-!
A session without a directory beside one with a new directory. Over inline requests the two stay in
step: they have the same variables and contexts and the same highest number, one from its list and
the other from its records, and the files differ in and above the directory only. So the same is
sent for each request, and the same comes of it.
-/

namespace Runbook

open Runbook.Files

/-- Whether a location is on the way to a directory, or in it. -/
def Near (dir : Path) (l : Location) : Prop :=
  l <+: Location.walk [] dir.steps ∨ Location.walk [] dir.steps <+: l

/-- Whether a transport answers and goes on with files for the messages as without them, whatever is
put near a directory, unless it says that they cannot be written. -/
def Transport.Steady {σ : Type} (dir : Path) (transport : Transport σ) : Prop :=
  ∀ d dumps wire t u, Tree.Grown (Near dir) (Near dir) t u →
    (∃ m, (transport d dumps wire u).1 = .error (.dump m)) ∨
      (transport d dumps wire u).1 = (transport d none wire t).1 ∧
        (transport d dumps wire u).2.1 = (transport d none wire t).2.1

theorem Transport.onlyDumps_unconnected : unconnected.OnlyDumps := by
  intro d dumps wire t
  unfold unconnected
  cases d.target with
  | relative reference => exact .nothing
  | absolute url =>
    cases dumps with
    | none => exact .nothing
    | some paths =>
      have written : Dumped (some paths) t (paths.writeRequest t d).2 :=
        .andThen t fun u parents => .request _ rfl parents
      dsimp only [Option.map_some]
      generalize paths.writeRequest t d = change at written ⊢
      obtain ⟨outcome, after⟩ := change
      cases outcome <;> exact written

/-- What the transport that is not connected says depends on its files only if they cannot be
written. -/
theorem Transport.steady_unconnected (dir : Path) : unconnected.Steady dir := by
  intro d dumps wire t u _
  unfold unconnected
  cases d.target with
  | relative reference => exact .inr ⟨rfl, rfl⟩
  | absolute url =>
    cases dumps with
    | none => exact .inr ⟨rfl, rfl⟩
    | some paths =>
      dsimp only [Option.map_some]
      rcases paths.writeRequest u d with ⟨outcome, after⟩
      cases outcome with
      | error fault => exact .inl ⟨_, rfl⟩
      | ok _ => exact .inr ⟨rfl, rfl⟩

theorem Transport.steady_replying (r : Response) (dir : Path) : (replying r).Steady dir :=
  fun _ _ _ _ _ _ => .inr ⟨rfl, rfl⟩

/-- A request and what came back, wherever its record is. -/
def Executed.unplaced (e : Executed) : Executed := { e with dumpDirectory := none }

/-- What is seen of a request: what was sent for it, what it came to, and the variables after it. -/
structure Seen where
  sent : List Request.Descriptor
  outcome : Except Error Executed
  vars : Fields

namespace Session

variable {σ : Type}

/-- What is seen of inline requests, each with variables of its own. One that fails does not keep the
next from being performed. -/
def seenIn (transport : Transport σ) : List (Fields × Fields) → Session → Bench σ → List Seen
  | [], _, _ => []
  | (fields, given) :: rest, s, b =>
    let after := perform transport s (.inline fields) ⟨[], given⟩ b
    ⟨sentBy transport s (.inline fields) ⟨[], given⟩ b, after.1.map Executed.unplaced,
      after.2.1.vars⟩ :: seenIn transport rest after.2.1 after.2.2

/-- Whether no file fails to be written over inline requests, by the session or its transport. -/
def WritesSucceed (transport : Transport σ) : List (Fields × Fields) → Session → Bench σ → Prop
  | [], _, _ => True
  | (fields, given) :: rest, s, b =>
    let after := perform transport s (.inline fields) ⟨[], given⟩ b
    (∀ fault, after.1 ≠ .error (.io fault)) ∧
      (∀ m, answer? transport s (.inline fields) ⟨[], given⟩ b ≠ some (.error (.dump m))) ∧
      WritesSucceed transport rest after.2.1 after.2.2

/-- A session is created in a directory of its own: saved at once, with or without a title, or not
written before its first request. -/
inductive Created (p : Project) (t : Tree) (name : String) (contexts : List String)
    (vars : Fields) : Session → Tree → Prop
  | saved {s : Session} {u : Tree} :
      create p t name contexts vars = (.ok s, u) → Created p t name contexts vars s u
  | titled {s : Session} {u : Tree} (title : String) :
      createTitled p t name title contexts vars = (.ok s, u) → Created p t name contexts vars s u
  | unwritten {s : Session} :
      new p t name contexts vars = .ok s → Created p t name contexts vars s t

variable {transport : Transport σ} {s s' : Session} {ref : ActionRef} {o : BuildOptions}
  {b b' : Bench σ} {e : Executed} {p : Prepared} {dir : Path} {t t' begun : Tree}

section Creation

variable {project : Project} {name : String} {contexts : List String} {vars : Fields}
  {c : Session}

theorem save_eq_ok_of_saved {opened : Except Error Session}
    (h : saved opened t = (.ok s, t')) : opened = .ok s ∧ s.save t = (.ok (), t') := by
  have same := opened_of_saved (congrArg Prod.fst h)
  refine ⟨same, ?_⟩
  rw [same] at h
  unfold saved at h
  dsimp only at h
  split at h
  · next written =>
    obtain ⟨-, rfl⟩ := Prod.mk.inj h
    exact written
  · cases (Prod.mk.inj h).1

/-- On a grounded path, a save puts the session file in the directory and, if need be, directories
on the way there. -/
theorem save_grown_grounded (place : s.directory = some dir) (grounded : t.Grounded dir.steps) :
    Tree.Grown (· <+: Location.walk [] dir.steps) (· = Tree.placeIn dir fileName) t
      (s.save t).2 := by
  unfold save
  rw [place]
  refine (Tree.save_grown plain_fileName t dir _).fresh.mono ?_ (fun _ => id)
  rintro l ⟨⟨before, hb, rfl⟩, free⟩
  exact grounded.walk_prefix hb free

theorem Created.composed (h : Created project t name contexts vars c t') :
    Composed project t contexts vars c := by
  cases h with
  | saved created => exact (Opened.created name (congrArg Prod.fst created)).composed
  | titled title created => exact (Opened.titled name title (congrArg Prod.fst created)).composed
  | unwritten made => exact (Opened.new name made).composed

theorem Created.directory_eq (h : Created project t name contexts vars c t') :
    c.directory = some (project.sessionPath name) := by
  have placed : ∀ s, new project t name contexts vars = .ok s →
      s.directory = some (project.sessionPath name) := by
    intro s made
    obtain ⟨parents, -, rfl⟩ := new_eq_ok.mp made
    rfl
  cases h with
  | saved created => exact placed c (save_eq_ok_of_saved created).1
  | titled title created =>
    obtain ⟨s, made, rfl⟩ := Outcome.map_eq_ok.mp (save_eq_ok_of_saved created).1
    exact placed s made
  | unwritten made => exact placed c made

theorem Created.grown (h : Created project t name contexts vars c t')
    (grounded : t.Grounded (project.sessionPath name).steps) :
    Tree.Grown (· <+: Location.walk [] (project.sessionPath name).steps)
      (· = Tree.placeIn (project.sessionPath name) fileName) t t' := by
  have place := h.directory_eq
  cases h with
  | saved created =>
    have written := save_grown_grounded place grounded
    rwa [(save_eq_ok_of_saved created).2] at written
  | titled title created =>
    have written := save_grown_grounded place grounded
    rwa [(save_eq_ok_of_saved created).2] at written
  | unwritten => exact .refl

/-- Where there was no directory, a new session has no records. -/
theorem Created.recorded_eq_nil (h : Created project t name contexts vars c t')
    (grounded : t.Grounded (project.sessionPath name).steps)
    (absent : t.isDirectory (project.sessionPath name) = false) : c.recorded t' = [] := by
  have plain := plain_requests
  rw [recorded_eq h.directory_eq]
  suffices listed : t'.directoriesOf ((project.sessionPath name).join "requests") = [] by
    simp [recordsIn, listed]
  cases located : t'.locate ((project.sessionPath name).join "requests") with
  | error fault => simp [Tree.directoriesOf, Tree.entriesOf, Tree.node?, located, Except.toOption]
  | ok l =>
    obtain ⟨accepted, walked, -, short, rfl⟩ := (Tree.locate_join_eq_ok plain).mp located
    rw [Tree.directoriesOf_of_locate located]
    refine Tree.directoriesAt_eq_nil fun there => ?_
    -- What a save makes ends with the directory of the session, so its records were there before.
    have before := (h.grown grounded).standing_directory_before
      (fun above => absurd above.length_le (by simp [Tree.placeIn])) there
    have inside := Tree.directory_above before
    have still := (Tree.locate_join_eq_ok plain).mpr
      ⟨accepted, grounded.locateFrom (Tree.isShort_of_locateFrom walked) inside, inside, short, rfl⟩
    have present := Tree.isDirectory_of_locate (Tree.locate_of_locate_join plain still) inside
    rw [absent] at present
    cases present

end Creation

section Answers

theorem wire_of_exchange (transport : Transport σ) (p : Prepared) (b : Bench σ) :
    (exchange transport p b).2.wire = (transport p.built.descriptor
      (p.dumpDirectory.map DumpPaths.ofDirectory) b.wire b.tree).2.1 := by
  unfold exchange
  dsimp only [Bench.note]
  rcases transport p.built.descriptor (p.dumpDirectory.map DumpPaths.ofDirectory) b.wire b.tree with
    ⟨answer, wire, after⟩
  cases answer with
  | ok r => rfl
  | error fault =>
    dsimp only
    rcases recordFailure after (p.dumpDirectory.map DumpPaths.ofDirectory)
      (Response.failure fault.message) with ⟨outcome, left⟩
    cases outcome <;> rfl

/-- What a request that is done comes to is said by what the transport answered. -/
theorem answered_of_perform (prepared : s.prepare b.tree ref o = .ok p)
    (done : perform transport s ref o b = (.ok e, s', b')) :
    ∃ begun answer, makeRecord b.tree p.dumpDirectory = (.ok (), begun) ∧
      (transport p.built.descriptor (p.dumpDirectory.map DumpPaths.ofDirectory) b.wire begun).1 =
        answer ∧
      (transport p.built.descriptor (p.dumpDirectory.map DumpPaths.ofDirectory) b.wire begun).2.1 =
        b'.wire ∧
      e = executedOf p (recordedResponse answer) ∧
      s' = { s with
        vars := (s.takeOutputs p.built.fields (recordedResponse answer)).vars
        executed := s.executed ++ [e] } := by
  have course := perform_course transport s ref o b
  rw [done] at course
  cases course with
  | @done p' begun saved r left prepared' recorded answered done =>
    obtain rfl := Except.ok.inj (prepared.symm.trans prepared')
    have response := response_of_exchange answered
    have wire := wire_of_exchange transport p ((b.withTree begun).note .info (sendingText p))
    rw [answered] at wire
    refine ⟨begun, _, recorded, rfl, wire.symm, congrArg (executedOf p) response, ?_⟩
    rw [executed_takeOutputs]
    conv_lhs => rw [takeOutputs_eq]
    rw [response]
    rfl

/-- A request that is ready is done, unless a file fails to be written. -/
theorem perform_eq_ok_of_prepare (prepared : s.prepare b.tree ref o = .ok p)
    (written : ∀ fault, (perform transport s ref o b).1 ≠ .error (.io fault)) :
    ∃ e s' b', perform transport s ref o b = (.ok e, s', b') := by
  have course := perform_course transport s ref o b
  generalize perform transport s ref o b = outcome at course written ⊢
  cases course with
  | unprepared unprepared => cases prepared.symm.trans unprepared
  | unrecorded => exact absurd rfl (written _)
  | unanswered _ _ answered =>
    obtain ⟨fault, rfl⟩ := error_of_exchange answered
    exact absurd rfl (written fault)
  | unsaved => exact absurd rfl (written _)
  | done => exact ⟨_, _, _, rfl⟩

end Answers

section Directory

/-- To begin a record puts directories on the way to the directory of the session, or in it. -/
theorem begun_near {n : Nat} {action : String} (grounded : t.Grounded dir.steps)
    (made : t.makeDirectories (recordPath dir n action) = (.ok (), begun)) :
    Tree.Grown (Near dir) (Near dir) t begun := by
  refine (grown_of_made grounded made).mono (fun l hl => ?_) (fun _ => False.elim)
  refine List.prefix_or_prefix_of_prefix hl ?_
  rw [Tree.placeIn, List.append_assoc]
  exact List.prefix_append _ _

/-- All that a request puts somewhere, in the directory of its record and after that, is near the
directory of the session. -/
theorem perform_near (quiet : transport.OnlyDumps) (place : s.directory = some dir)
    (grounded : b.tree.Grounded dir.steps) (prepared : s.prepare b.tree ref o = .ok p)
    (recorded : makeRecord b.tree p.dumpDirectory = (.ok (), begun))
    (done : perform transport s ref o b = (.ok e, s', b')) :
    Tree.Grown (Near dir) (Near dir) b.tree begun ∧
      Tree.Grown (Near dir) (Near dir) begun b'.tree := by
  obtain ⟨p', begun', r, left, prepared', recorded', answered, saved, -, -⟩ := perform_eq_ok done
  obtain rfl := Except.ok.inj (prepared.symm.trans prepared')
  obtain rfl : begun = begun' := (Prod.mk.inj (recorded.symm.trans recorded')).2
  obtain ⟨-, -, dumps⟩ := record_of_prepare place prepared
  rw [dumps] at recorded
  have made : b.tree.makeDirectories (recordPath dir p.identifier p.built.action.name) =
      (.ok (), begun) :=
    recorded
  have kept : (s.takeOutputs p.built.fields r).directory = some dir :=
    (directory_takeOutputs ..).trans place
  have written := grown_of_begun (b := (b.withTree begun).note .info (sendingText p)) quiet kept
    dumps made answered
  rw [saved] at written
  exact ⟨begun_near grounded made,
    written.mono (fun _ => False.elim) (fun _ inside => .inr inside)⟩

/-- After a request that succeeds, its number is the highest. -/
theorem highest_of_advances (h : Advances s t e s' t' dir) : s'.highest t' = e.identifier := by
  have member : e ∈ s'.executed := by
    rw [h.executed]
    simp
  refine Nat.le_antisymm (highest_le ?_ ?_) (le_highest_of_executed member)
  · intro r hr
    rw [h.recorded] at hr
    rcases List.mem_append.mp hr with before | new
    · exact (h.aboveRecorded r before).le
    · obtain rfl := List.mem_singleton.mp new
      exact Nat.le_refl _
  · intro x hx
    rw [h.executed] at hx
    rcases List.mem_append.mp hx with before | new
    · exact (h.aboveExecuted x before).le
    · obtain rfl := List.mem_singleton.mp new
      exact Nat.le_refl _

end Directory

section Lockstep

variable {u c : Session} {d : Bench σ}

/-- A session without a directory and one in a directory that are in step: what requests are built
from is the same, so is the state of the transport, and the highest number of one is the length of
the list of the other. -/
structure Alongside (t : Tree) (dir : Path) (u : Session) (b : Bench σ) (c : Session)
    (d : Bench σ) : Prop where
  offDisk : OffDisk t (fun _ => True) u b
  place : c.directory = some dir
  project : c.project = u.project
  vars : c.vars = u.vars
  parents : c.parents = u.parents
  highest : c.highest d.tree = u.executed.length
  wire : d.wire = b.wire
  grounded : d.tree.Grounded dir.steps
  grown : Tree.Grown (Near dir) (Near dir) t d.tree

/-- An inline request without contexts is built from the session alone. -/
theorem build_inline_congr (project : c.project = u.project) (vars : c.vars = u.vars)
    (parents : c.parents = u.parents) (fields given : Fields) (t t' : Tree) :
    c.build t (.inline fields) ⟨[], given⟩ = u.build t' (.inline fields) ⟨[], given⟩ := by
  unfold build fill requestScope scope
  simp only [project, vars, parents, Project.resolveAction, List.mapM_nil]

theorem vars_takeOutputs_congr (vars : c.vars = u.vars) (parents : c.parents = u.parents)
    (fields : Fields) (r : Response) :
    (c.takeOutputs fields r).vars = (u.takeOutputs fields r).vars := by
  unfold takeOutputs
  cases Action.outputsOf fields with
  | none => exact vars
  | some templates => simp only [merge, scope, vars, parents]

namespace Alongside

/-- Requests that are ready in two sessions in step differ in the directories of their records. -/
theorem prepare {built : Built} (h : Alongside t dir u b c d)
    (fits : u.executed.length + 1 < Text.bound32) {fields given : Fields}
    (made : u.build b.tree (.inline fields) ⟨[], given⟩ = .ok built) :
    u.prepare b.tree (.inline fields) ⟨[], given⟩ =
        .ok ⟨built, u.executed.length + 1, none⟩ ∧
      c.prepare d.tree (.inline fields) ⟨[], given⟩ =
        .ok ⟨built, u.executed.length + 1,
          some (recordPath dir (u.executed.length + 1) built.action.name)⟩ := by
  have same := build_inline_congr h.project h.vars h.parents fields given d.tree b.tree
  have counted := h.offDisk.counted.highest_eq h.offDisk.nowhere b.tree
  refine ⟨prepare_eq_ok.mpr ⟨built, _, made, nextIdentifier_eq_ok.mpr ⟨?_, fits⟩, ?_⟩,
    prepare_eq_ok.mpr ⟨built, _, same.trans made, nextIdentifier_eq_ok.mpr ⟨?_, fits⟩, ?_⟩⟩
  · rw [counted]
  · simp [requestsPath?, h.offDisk.nowhere]
  · rw [h.highest]
  · simp [requestsPath?, h.place, recordPath]

/-- A steady transport answers both sessions alike, the one with a directory in a tree that has grown
near it. -/
theorem answers_eq (h : Alongside t dir u b c d) (steady : transport.Steady dir)
    (near : Tree.Grown (Near dir) (Near dir) d.tree begun) {descriptor : Request.Descriptor}
    {dumps : Option DumpPaths}
    (undumped : ∀ m, (transport descriptor dumps d.wire begun).1 ≠ .error (.dump m)) :
    (transport descriptor dumps d.wire begun).1 = (transport descriptor none b.wire b.tree).1 ∧
      (transport descriptor dumps d.wire begun).2.1 =
        (transport descriptor none b.wire b.tree).2.1 := by
  have grown : Tree.Grown (Near dir) (Near dir) b.tree begun := by
    rw [h.offDisk.tree]
    exact h.grown.trans near
  rw [h.wire] at undumped ⊢
  rcases steady descriptor dumps b.wire b.tree begun grown with ⟨m, failed⟩ | same
  · exact absurd failed (undumped m)
  · exact same

/-- An inline request is seen alike in two sessions in step, and they stay in step. -/
theorem perform (h : Alongside t dir u b c d) (quiet : transport.OnlyDumps)
    (steady : transport.Steady dir) (fits : u.executed.length + 1 < Text.bound32)
    {fields given : Fields}
    (written : ∀ fault, (perform transport c (.inline fields) ⟨[], given⟩ d).1 ≠
      .error (.io fault))
    (dumped : ∀ m, answer? transport c (.inline fields) ⟨[], given⟩ d ≠
      some (.error (.dump m))) :
    sentBy transport u (.inline fields) ⟨[], given⟩ b =
        sentBy transport c (.inline fields) ⟨[], given⟩ d ∧
      (perform transport u (.inline fields) ⟨[], given⟩ b).1.map Executed.unplaced =
        (perform transport c (.inline fields) ⟨[], given⟩ d).1.map Executed.unplaced ∧
      (perform transport u (.inline fields) ⟨[], given⟩ b).2.1.executed.length ≤
        u.executed.length + 1 ∧
      Alongside t dir (perform transport u (.inline fields) ⟨[], given⟩ b).2.1
        (perform transport u (.inline fields) ⟨[], given⟩ b).2.2
        (perform transport c (.inline fields) ⟨[], given⟩ d).2.1
        (perform transport c (.inline fields) ⟨[], given⟩ d).2.2 := by
  cases made : u.build b.tree (.inline fields) ⟨[], given⟩ with
  | error e =>
    have same := build_inline_congr h.project h.vars h.parents fields given d.tree b.tree
    have refused := refused_of_build made
    have refused' := refused_of_build (same.trans made)
    rw [sentBy_of_refused refused, sentBy_of_refused refused', perform_of_refused refused,
      perform_of_refused refused']
    exact ⟨rfl, rfl, Nat.le_succ _, h⟩
  | ok built =>
    obtain ⟨ready, ready'⟩ := h.prepare fits made
    obtain ⟨e, u', b', done⟩ := perform_eq_ok_of_unsaved h.offDisk.nowhere ready transport
    obtain ⟨e', c', d', done'⟩ := perform_eq_ok_of_prepare ready' written
    obtain ⟨begun, answer, recorded, answered, wire, value, after⟩ :=
      answered_of_perform ready done
    obtain ⟨begun', answer', recorded', answered', wire', value', after'⟩ :=
      answered_of_perform ready' done'
    obtain rfl : b.tree = begun := (Prod.mk.inj recorded).2
    obtain ⟨near, nearer⟩ := perform_near quiet h.place h.grounded ready' recorded' done'
    have undumped := fun m failed =>
      dumped m ((answer?_of_begun ready' recorded').trans (congrArg some failed))
    obtain ⟨answers, wires⟩ := h.answers_eq steady near undumped
    obtain rfl : answer' = answer := answered'.symm.trans (answers.trans answered)
    have advances := advances_of_perform quiet h.place h.grounded done'
    have offDisk := h.offDisk.perform quiet (fun _ _ _ _ => trivial) (.inline fields) ⟨[], given⟩
    rw [done] at offDisk
    rw [sentBy_of_perform done, sentBy_of_perform done', done, done']
    subst value value' after after'
    have grown := (h.grown.trans near).trans nearer
    refine ⟨rfl, rfl, by simp, ?_⟩
    exact {
      offDisk
      place := h.place
      project := h.project
      vars := vars_takeOutputs_congr h.vars h.parents built.fields _
      parents := h.parents
      highest := (highest_of_advances advances).trans (by simp [executedOf])
      wire := wire'.symm.trans (wires.trans wire)
      grounded := h.grounded.mono fun l hl => nearer.standing_directory (near.standing_directory hl)
      grown }

/-- Inline requests are seen alike in two sessions in step. -/
theorem seenIn_eq (h : Alongside t dir u b c d) (quiet : transport.OnlyDumps)
    (steady : transport.Steady dir) {steps : List (Fields × Fields)}
    (fits : u.executed.length + steps.length < Text.bound32)
    (written : WritesSucceed transport steps c d) :
    seenIn transport steps u b = seenIn transport steps c d := by
  induction steps generalizing u b c d with
  | nil => rfl
  | cons step rest ih =>
    obtain ⟨fields, given⟩ := step
    obtain ⟨wrote, dumped, others⟩ := written
    rw [List.length_cons] at fits
    obtain ⟨sent, outcome, more, still⟩ := h.perform quiet steady (by omega) wrote dumped
    have later := ih still (by omega) others
    unfold seenIn
    dsimp only
    rw [sent, outcome, still.vars, later]

end Alongside

/-- A session just opened without a directory and one just created are in step. -/
theorem Created.alongside {project : Project} {name : String} {contexts : List String}
    {vars : Fields} (opened : Session.unsaved project t contexts vars = .ok u)
    (created : Created project t name contexts vars c t')
    (grounded : t.Grounded (project.sessionPath name).steps)
    (absent : t.isDirectory (project.sessionPath name) = false) (wire : σ)
    (noted others : List Notice) :
    Alongside t (project.sessionPath name) u ⟨t, wire, noted⟩ c ⟨t', wire, others⟩ := by
  obtain ⟨parents, composed, rfl⟩ := compose_eq_ok.mp opened
  have made := created.composed
  have grown := created.grown grounded
  exact {
    offDisk := ⟨rfl, rfl, rfl, trivial⟩
    place := created.directory_eq
    project := made.project
    vars := made.vars
    parents := Except.ok.inj (made.parents.symm.trans composed)
    highest := by
      refine Nat.le_zero.mp (highest_le ?_ ?_)
      · simp [created.recorded_eq_nil grounded absent]
      · simp [made.executed]
    wire := rfl
    grounded := grounded.mono fun l hl => grown.standing_directory hl
    grown := grown.mono (fun _ => .inl) (by
      rintro l rfl
      exact .inr (List.prefix_append _ _)) }

end Lockstep

/-- Requests that are all executed have not failed to be written, if what answers them writes
nothing. -/
theorem writesSucceed_replying {r : Response} {steps : List (Fields × Fields)} {s : Session}
    {b : Bench Unit}
    (done : ∀ seen ∈ seenIn (.replying r) steps s b, seen.outcome.isOk = true) :
    WritesSucceed (.replying r) steps s b := by
  induction steps generalizing s b with
  | nil => trivial
  | cons step rest ih =>
    obtain ⟨first, others⟩ := List.forall_mem_cons.mp done
    refine ⟨fun fault failed => ?_, fun m failed => ?_, ih others⟩
    · dsimp only at failed first
      rw [failed] at first
      cases first
    · unfold answer? at failed
      grind [Transport.replying]

end Session

/-- The path of a session with a plain name is grounded if the directory of its project is there. -/
theorem Project.grounded_sessionPath {p : Project} {t : Tree} {name : String}
    (root : t.isDirectory p.root = true) (plain : Plain name) :
    t.Grounded (p.sessionPath name).steps := by
  have above : t.Grounded p.sessionsPath.steps :=
    Tree.grounded_join_of_isDirectory (by decide) (.inr (.inr (by decide))) root
  rw [sessionPath, Path.steps_join _ plain]
  exact above.concat plain

open Session

/-- Unsaved sessions leave the files alone and are otherwise like saved ones. Whatever is done with
one, with a transport that only dumps: the files are as they were, the transport is given none to
write, and the requests executed have the numbers one, two and so on. Now let another session be
created with the same contexts and variables, in a directory that was not there, on a grounded path,
as that of each plain name is if the project is there. Then fewer inline requests than there are
numbers are seen alike in both, with a steady transport, if the files of the other session can be
written. -/
theorem unsaved_like_saved {σ : Type} {transport : Transport σ} {p : Project} {t : Tree}
    {contexts : List String} {vars : Fields} {u : Session} (quiet : transport.OnlyDumps)
    (opened : Session.unsaved p t contexts vars = .ok u) (wire : σ) (noted : List Notice) :
    (∀ ops,
      (operateAll transport ops u ⟨t, wire, noted⟩).2.tree = t ∧
      (∀ dumps ∈ handed transport ops u ⟨t, wire, noted⟩, dumps = none) ∧
      ∀ n e, (operateAll transport ops u ⟨t, wire, noted⟩).1.executed[n]? = some e →
        e.identifier = n + 1) ∧
    ∀ name c t' steps others, Created p t name contexts vars c t' →
      t.Grounded (p.sessionPath name).steps → t.isDirectory (p.sessionPath name) = false →
      transport.Steady (p.sessionPath name) → steps.length < Text.bound32 →
      WritesSucceed transport steps c ⟨t', wire, others⟩ →
      seenIn transport steps u ⟨t, wire, noted⟩ = seenIn transport steps c ⟨t', wire, others⟩ := by
  obtain ⟨parents, -, made⟩ := compose_eq_ok.mp opened
  have start : OffDisk t (fun _ => True) u ⟨t, wire, noted⟩ := by
    rw [made]
    exact ⟨rfl, rfl, rfl, trivial⟩
  refine ⟨fun ops => ?_, ?_⟩
  · have after := start.operateAll quiet (fun _ _ _ _ => trivial) ops
    exact ⟨after.tree, handed_of_unsaved quiet start.nowhere start.counted ops _,
      fun n e he => after.counted.getElem? he⟩
  · intro name c t' steps others created grounded absent steady fits written
    have step := created.alongside opened grounded absent wire noted others
    refine step.seenIn_eq quiet steady ?_ written
    rw [made]
    simpa using fits

private def lonelyProject : Project :=
  ⟨⟨"/p"⟩, { Settings.standard with defaultContexts := some [] }⟩

private def lonelyTree : Tree := .directory [("p", .directory [])]

/-- The session that is created there. -/
private def lonelySession : Session :=
  ⟨lonelyProject, "main", none, some (lonelyProject.sessionPath "main"), [], [], [], []⟩

/-- The files there once it is created. -/
private def lonelyBench : Bench Unit := ⟨(create lonelyProject lonelyTree "main" [] []).2, (), []⟩

private def pageStep : Fields × Fields :=
  ([("url", .str "\x7b\x7bpage\x7d\x7d"), ("outputs", .map [("token", .str "5")])],
    [("page", .str "x")])

/-- A request that reads what the outputs of the one before left. -/
private def tokenStep : Fields × Fields := ([("url", .str "\x7b\x7btoken\x7d\x7d")], [])

private def pageReply : Transport Unit := .replying (.ofStatus 200 "OK")

private theorem writesSucceed_unconnected :
    WritesSucceed .unconnected [pageStep] lonelySession lonelyBench := by
  have outcome : (perform .unconnected lonelySession (.inline pageStep.1) ⟨[], pageStep.2⟩
      lonelyBench).1.isOk = true := by
    decide +kernel
  have answer : answer? .unconnected lonelySession (.inline pageStep.1) ⟨[], pageStep.2⟩
      lonelyBench = some (.error (.invalidUrl "x")) := by
    decide +kernel
  refine ⟨fun fault failed => ?_, fun m failed => ?_, trivial⟩
  · cases outcome.symm.trans (congrArg Except.isOk failed)
  · cases answer.symm.trans failed

/-- With one request that is not answered and with two that are, of which the second has the number
after that of the first and what the first left. -/
theorem unsaved_like_saved_sample : ∃ (u c : Session) (t : Tree),
    Session.unsaved lonelyProject lonelyTree [] [] = .ok u ∧
    create lonelyProject lonelyTree "main" [] [] = (.ok c, t) ∧
    (operateAll .unconnected [.perform (.inline pageStep.1) ⟨[], pageStep.2⟩, .save] u
      ⟨lonelyTree, (), []⟩).2.tree = lonelyTree ∧
    seenIn .unconnected [pageStep] u ⟨lonelyTree, (), []⟩ =
      seenIn .unconnected [pageStep] c ⟨t, (), []⟩ ∧
    seenIn pageReply [pageStep, tokenStep] u ⟨lonelyTree, (), []⟩ =
      seenIn pageReply [pageStep, tokenStep] c ⟨t, (), []⟩ ∧
    (seenIn pageReply [pageStep, tokenStep] c ⟨t, (), []⟩).map (fun seen =>
      seen.outcome.toOption.map fun e => (e.identifier, e.request.target.text)) =
        [some (1, "x"), some (2, "5")] := by
  obtain ⟨u, opened⟩ : ∃ u, Session.unsaved lonelyProject lonelyTree [] [] = .ok u := ⟨_, rfl⟩
  obtain ⟨c, made⟩ := Outcome.exists_of_isOk
    (by decide : (create lonelyProject lonelyTree "main" [] []).1.isOk = true)
  have new : Session.new lonelyProject lonelyTree "main" [] [] = .ok lonelySession := rfl
  obtain rfl := Except.ok.inj (new.symm.trans (opened_of_saved made))
  have created : create lonelyProject lonelyTree "main" [] [] =
      (.ok lonelySession, lonelyBench.tree) :=
    Prod.ext made rfl
  have grounded : lonelyTree.Grounded (lonelyProject.sessionPath "main").steps :=
    Project.grounded_sessionPath (by decide) (by decide)
  obtain ⟨alone, alike⟩ := unsaved_like_saved Transport.onlyDumps_unconnected opened () []
  obtain ⟨-, answered⟩ := unsaved_like_saved (Transport.onlyDumps_replying _) opened () []
  refine ⟨u, _, _, opened, created, (alone _).1, ?_, ?_, by decide +kernel⟩
  · exact alike "main" _ _ [pageStep] [] (.saved created) grounded (by decide)
      (Transport.steady_unconnected _) (by decide) writesSucceed_unconnected
  · exact answered "main" _ _ [pageStep, tokenStep] [] (.saved created) grounded (by decide)
      (Transport.steady_replying _ _) (by decide) (writesSucceed_replying (by decide +kernel))

end Runbook
