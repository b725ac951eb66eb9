import Runbook.Proofs.Files.Names
import Runbook.Proofs.Session.Unanswered

set_option autoImplicit false
set_option relaxedAutoImplicit false

/-!
The messages of a request on disk. With a transport that writes the messages it exchanges, the
record of a request that is done holds the request as it was sent and the response as it is known to
the session, also if there was none; and nothing is written but that record and the session file.
-/

namespace Runbook

open Runbook.Files

/-- What becomes of a tree when a transport that is given files writes the request before it
answers, and the response if there is one. -/
inductive Conveyed (d : Request.Descriptor) :
    Option DumpPaths → Tree → Except SendFault Response → Tree → Prop
  | apart {t : Tree} {answer : Except SendFault Response} : Conveyed d none t answer t
  | answered {paths : DumpPaths} {t u v : Tree} {r : Response} :
      paths.writeRequest t d = (.ok (), u) → paths.writeResponse u r = (.ok (), v) →
      Conveyed d (some paths) t (.ok r) v
  | unanswered {paths : DumpPaths} {t u : Tree} {outcome : Except Fault Unit} {fault : SendFault} :
      paths.writeRequest t d = (outcome, u) → Conveyed d (some paths) t (.error fault) u
  | unwritten {paths : DumpPaths} {t u v : Tree} {r : Response} {unwritten : Fault}
      {fault : SendFault} :
      paths.writeRequest t d = (.ok (), u) → paths.writeResponse u r = (.error unwritten, v) →
      Conveyed d (some paths) t (.error fault) v

namespace Transport

variable {σ : Type}

/-- Whether a transport writes the messages that it exchanges, and nothing else. -/
def Faithful (transport : Transport σ) : Prop :=
  ∀ d dumps wire t,
    Conveyed d dumps t (transport d dumps wire t).1 (transport d dumps wire t).2.2

/-- A transport that writes each request, has one answer to everything and writes it; it gives up if
something cannot be written. -/
def conveying (r : Response) : Transport Unit := fun d dumps wire t =>
  match dumps with
  | none => (.ok r, wire, t)
  | some paths =>
    match paths.writeRequest t d with
    | (.error fault, u) => (.error (.dump fault.message), wire, u)
    | (.ok (), u) =>
      match paths.writeResponse u r with
      | (.error fault, v) => (.error (.dump fault.message), wire, v)
      | (.ok (), v) => (.ok r, wire, v)

theorem faithful_conveying (r : Response) : (conveying r).Faithful := by
  intro d dumps wire t
  unfold conveying
  cases dumps with
  | none => exact .apart
  | some paths =>
    dsimp only
    rcases first : paths.writeRequest t d with ⟨outcome, u⟩
    cases outcome with
    | error fault => exact .unanswered first
    | ok _ =>
      dsimp only
      rcases second : paths.writeResponse u r with ⟨outcome, v⟩
      cases outcome with
      | error fault => exact .unwritten first second
      | ok _ => exact .answered first second

end Transport

namespace DumpPaths

variable {record : Path} {t u v : Tree} {l : Location} {d : Request.Descriptor} {r : Response}

/-- What writing a message comes to where the directories are there: to writing the file. -/
private theorem write_of_andThen {file : Path} {content : Text.Bytes}
    (there : (t.makeParents (record.join "request.txt")).2 = t)
    (h : (t.makeParents (record.join "request.txt")).andThen (·.write file content) =
      (.ok (), u)) : t.write file content = (.ok (), u) := by
  unfold Tree.Change.andThen at h
  rcases made : t.makeParents (record.join "request.txt") with ⟨outcome, after⟩
  rw [made] at h there
  obtain rfl : after = t := there
  cases outcome with
  | error fault => cases (Prod.mk.inj h).1
  | ok _ => exact h

/-- Two messages that were written are read, and nothing else was written. -/
theorem read_of_written (walked : t.locateFrom [] record.steps = .ok l)
    (inside : t.standing l = .directory)
    (first : (ofDirectory record).writeRequest t d = (.ok (), u))
    (second : (ofDirectory record).writeResponse u r = (.ok (), v)) :
    v.read (record.join "request.txt") = .ok (Message.ofRequest d) ∧
      v.read (record.join "response.txt") = .ok (Message.ofResponse r) := by
  have wrote : t.write (record.join "request.txt") (Message.ofRequest d) = (.ok (), u) :=
    write_of_andThen (Tree.makeParents_eq_self plain_request walked inside) first
  have grown := Tree.write_grown plain_request t record (Message.ofRequest d)
  rw [wrote] at grown
  have stay := fun l hl => grown.standing_directory (l := l) hl
  have wroteNext : u.write (record.join "response.txt") (Message.ofResponse r) = (.ok (), v) :=
    write_of_andThen (Tree.makeParents_eq_self plain_request
      (Tree.locateFrom_mono stay walked) (stay _ inside)) second
  have grownNext := Tree.write_grown plain_response u record (Message.ofResponse r)
  rw [wroteNext] at grownNext
  obtain ⟨-, -, request⟩ := Tree.read_of_write plain_request wrote
  obtain ⟨-, -, response⟩ := Tree.read_of_write plain_response wroteNext
  refine ⟨grownNext.read_eq_ok ?_ request, response⟩
  intro m located same
  obtain ⟨-, -, -, -, rfl⟩ := (Tree.locate_join_eq_ok plain_request).mp located
  simp [Tree.placeIn] at same

/-- In an empty record, a request is written if a response can be written after it. -/
theorem written_of_writeResponse {outcome : Except Fault Unit}
    (walked : t.locateFrom [] record.steps = .ok l) (inside : t.standing l = .directory)
    (empty : t.standing (Tree.placeIn record "request.txt") = .nothing)
    (first : (ofDirectory record).writeRequest t d = (outcome, u))
    (second : (ofDirectory record).writeResponse u r = (.ok (), v)) : outcome = .ok () := by
  cases outcome with
  | ok _ => rfl
  | error fault =>
    exfalso
    have there := Tree.makeParents_eq_self plain_request walked inside
    simp only [writeRequest, ofDirectory, Tree.Change.andThen] at first
    rcases made : t.makeParents (record.join "request.txt") with ⟨outcome, after⟩
    rw [made] at first there
    obtain rfl : after = t := there
    cases outcome with
    | error unmade =>
      obtain ⟨-, rfl⟩ := Prod.mk.inj first
      simp [writeResponse, ofDirectory, Tree.Change.andThen, made] at second
    | ok _ =>
      obtain ⟨rfl, fails⟩ := Tree.write_of_error first
      have wrote : u.write (record.join "response.txt") (Message.ofResponse r) = (.ok (), v) :=
        write_of_andThen (by rw [made]) second
      rcases Tree.write_join_cases plain_response u record (Message.ofResponse r) with
        ⟨fault, failed⟩ | ⟨located, -, -, -⟩
      · rw [failed] at wrote
        cases (Prod.mk.inj wrote).1
      · obtain ⟨accepted, reached, above, -, -⟩ :=
          (Tree.locate_join_eq_ok plain_response).mp located
        have place := (Tree.locate_join_eq_ok plain_request).mpr
          ⟨accepted.join_shorter plain_response plain_request (by decide) (by decide), reached,
            above, .inr (.inr (by decide)), rfl⟩
        have writable : (u.write (record.join "request.txt") (Message.ofRequest d)).1 = .ok () :=
          Tree.write_of_nothing place empty
        rw [fails] at writable
        cases writable

end DumpPaths

namespace Transport

variable {σ : Type} {transport : Transport σ}

theorem Faithful.onlyDumps (h : transport.Faithful) : transport.OnlyDumps := by
  intro d dumps wire t
  have request : ∀ (paths : DumpPaths) (t : Tree),
      Dumped (some paths) t (paths.writeRequest t d).2 := fun paths t =>
    .andThen t fun u parents => .request _ rfl parents
  have response : ∀ (paths : DumpPaths) (t : Tree) (r : Response),
      Dumped (some paths) t (paths.writeResponse t r).2 := fun paths t r =>
    .andThen t fun u parents => .response _ rfl parents
  have conveyed := h d dumps wire t
  generalize (transport d dumps wire t).1 = answer at conveyed
  generalize (transport d dumps wire t).2.2 = after at conveyed ⊢
  cases conveyed with
  | apart => exact .nothing
  | @answered paths _ u _ r first second =>
    have sent := request paths t
    have back := response paths u r
    rw [first] at sent
    rw [second] at back
    exact sent.trans back
  | @unanswered paths _ _ _ _ first =>
    have sent := request paths t
    rwa [first] at sent
  | @unwritten paths _ u _ r _ _ first second =>
    have sent := request paths t
    have back := response paths u r
    rw [first] at sent
    rw [second] at back
    exact sent.trans back

end Transport

namespace Session

variable {σ : Type} {transport : Transport σ} {s s' : Session} {ref : ActionRef} {o : BuildOptions}
  {b b' : Bench σ} {e : Executed} {dir : Path}

/-- In an empty record, a transport without an answer has written the request at most: a response
that could not be written has left nothing behind. -/
private theorem writeRequest_of_unanswered {record : Path} {l : Location} {t u : Tree}
    {d : Request.Descriptor} {fault : SendFault}
    (walked : t.locateFrom [] record.steps = .ok l) (inside : t.standing l = .directory)
    (empty : t.standing (Tree.placeIn record "response.txt") = .nothing)
    (conveyed : Conveyed d (some (DumpPaths.ofDirectory record)) t (.error fault) u) :
    ∃ outcome, (DumpPaths.ofDirectory record).writeRequest t d = (outcome, u) := by
  cases conveyed with
  | unanswered first => exact ⟨_, first⟩
  | unwritten first second =>
    have dumped := RequestDumped.of_writeRequest (DumpPaths.ofDirectory record) t d
    rw [first] at dumped
    obtain ⟨-, there⟩ := response_absent walked inside empty dumped
    obtain ⟨rfl, -⟩ := DumpPaths.writeResponse_of_error there second
    exact ⟨_, first⟩

/-- After the request, the response that stands for a failure is written. -/
private theorem recordFailure_of_writeRequest {record : Path} {l : Location} {t u : Tree}
    {d : Request.Descriptor} {outcome : Except Fault Unit}
    (walked : t.locateFrom [] record.steps = .ok l) (inside : t.standing l = .directory)
    (empty : t.standing (Tree.placeIn record "response.txt") = .nothing)
    (first : (DumpPaths.ofDirectory record).writeRequest t d = (outcome, u)) (r : Response) :
    recordFailure u (some (DumpPaths.ofDirectory record)) r =
      (DumpPaths.ofDirectory record).writeResponse u r := by
  have dumped := RequestDumped.of_writeRequest (DumpPaths.ofDirectory record) t d
  rw [first] at dumped
  obtain ⟨absent, -⟩ := response_absent walked inside empty dumped
  simp [recordFailure, absent]

/-- After an exchange in an empty record, both messages are read from it. -/
theorem read_of_exchange {p : Prepared} {record : Path} {l : Location} {r : Response}
    {left : Bench σ} (faithful : transport.Faithful) (dumps : p.dumpDirectory = some record)
    (walked : b.tree.locateFrom [] record.steps = .ok l) (inside : b.tree.standing l = .directory)
    (empty : ∀ name, b.tree.standing (Tree.placeIn record name) = .nothing)
    (answered : exchange transport p b = (.ok r, left)) :
    left.tree.read (record.join "request.txt") = .ok (Message.ofRequest p.built.descriptor) ∧
      left.tree.read (record.join "response.txt") = .ok (Message.ofResponse r) := by
  have conveyed := faithful p.built.descriptor (some (DumpPaths.ofDirectory record)) b.wire b.tree
  unfold exchange at answered
  dsimp only at answered
  rw [dumps, Option.map_some] at answered
  rcases sent : transport p.built.descriptor (some (DumpPaths.ofDirectory record)) b.wire b.tree
    with ⟨answer, wire, after⟩
  rw [sent] at conveyed answered
  cases answer with
  | ok response =>
    obtain ⟨same, rfl⟩ := Prod.mk.inj answered
    obtain rfl := Except.ok.inj same
    cases conveyed with
    | answered first second => exact DumpPaths.read_of_written walked inside first second
  | error fault =>
    obtain ⟨outcome, first⟩ := writeRequest_of_unanswered walked inside (empty _) conveyed
    dsimp only [Bench.note] at answered
    rw [recordFailure_of_writeRequest walked inside (empty _) first] at answered
    rcases second : (DumpPaths.ofDirectory record).writeResponse after (.failure fault.message) with
      ⟨outcome', final⟩
    rw [second] at answered
    cases outcome' with
    | error unwritten => cases (Prod.mk.inj answered).1
    | ok _ =>
      obtain ⟨same, rfl⟩ := Prod.mk.inj answered
      obtain rfl := Except.ok.inj same
      obtain rfl := DumpPaths.written_of_writeResponse walked inside (empty "request.txt") first
        second
      exact DumpPaths.read_of_written walked inside first second

def recordPlace (dir : Path) (e : Executed) : Location :=
  Tree.placeIn dir "requests" ++ [Recorded.directoryName e.identifier e.actionName]

private theorem reached_of_made {t begun : Tree} {n : Nat} {action : String}
    (made : t.makeDirectories (recordPath dir n action) = (.ok (), begun)) :
    begun.locateFrom [] dir.steps = .ok (Location.walk [] dir.steps) ∧
      begun.standing (Location.walk [] dir.steps) = .directory := by
  have plain := Recorded.plain_directoryName n action
  obtain ⟨walked, -⟩ := walked_of_made made
  rw [recordPath, Path.steps_join _ plain, Path.steps_join dir plain_requests] at walked
  obtain ⟨_, walked, -⟩ := Tree.locateFrom_concat_eq_ok.mp walked
  obtain ⟨_, walked, inside, -⟩ := Tree.locateFrom_concat_eq_ok.mp walked
  obtain rfl := Tree.eq_walk_of_locateFrom walked
  exact ⟨walked, inside⟩

/-- The steps of a request that is done: its record is begun, the exchange happens in it, and the
session is saved without writing anything else. -/
private theorem steps_of_done (quiet : transport.OnlyDumps) (place : s.directory = some dir)
    (h : perform transport s ref o b = (.ok e, s', b')) : ∃ p begun r left,
      p.dumpDirectory = some (recordPath dir e.identifier e.actionName) ∧
      e.request = p.built.descriptor ∧ e.response = r ∧
      e.identifier = s.highest b.tree + 1 ∧ e.identifier < Text.bound32 ∧
      b.tree.makeDirectories (recordPath dir e.identifier e.actionName) = (.ok (), begun) ∧
      exchange transport p ((b.withTree begun).note .info (sendingText p)) = (.ok r, left) ∧
      Tree.Grown (fun _ => False) (recordPlace dir e <+: ·) begun left.tree ∧
      Tree.Grown (fun _ => False) (· = Tree.placeIn dir fileName) left.tree b'.tree := by
  obtain ⟨p, begun, r, left, prepared, recorded, answered, saved, rfl, -⟩ := perform_eq_ok h
  obtain ⟨next, below, dumps⟩ := record_of_prepare place prepared
  have made : b.tree.makeDirectories (recordPath dir p.identifier p.built.action.name) =
      (.ok (), begun) := by
    rw [dumps] at recorded
    exact recorded
  obtain ⟨walked, inside⟩ := walked_of_made made
  have exchanged := exchange_dumped_of_onlyDumps quiet p
    ((b.withTree begun).note .info (sendingText p))
  rw [answered, dumps] at exchanged
  have written : Tree.Grown (fun _ => False) (recordPlace dir (executedOf p r) <+: ·) begun
      left.tree :=
    exchanged.grown_in walked inside
  obtain ⟨reached, above⟩ := reached_of_made made
  have stay := fun l hl => written.standing_directory (l := l) hl
  have kept : (s.takeOutputs p.built.fields r).directory = some dir :=
    (directory_takeOutputs ..).trans place
  have saving := Tree.save_grown_in plain_fileName (Tree.locateFrom_mono stay reached)
    (stay _ above) (Text.encode (Yaml.print (s.takeOutputs p.built.fields r).file.toValue))
  unfold save at saved
  rw [kept] at saved
  dsimp only at saved
  rw [saved] at saving
  exact ⟨p, begun, r, left, dumps, rfl, rfl, next, below, made, answered, written, saving⟩

/-- A request that is done puts nothing anywhere but in its record and, on the way there, above it,
and the session file. -/
theorem grown_of_done (quiet : transport.OnlyDumps) (place : s.directory = some dir)
    (grounded : b.tree.Grounded dir.steps) (h : perform transport s ref o b = (.ok e, s', b')) :
    Tree.Grown (· <+: recordPlace dir e)
      (fun l => recordPlace dir e <+: l ∨ l = Tree.placeIn dir fileName) b.tree b'.tree := by
  obtain ⟨p, begun, r, left, -, -, -, -, -, made, -, written, saving⟩ :=
    steps_of_done quiet place h
  have making : Tree.Grown (· <+: recordPlace dir e) (fun _ => False) b.tree begun :=
    grown_of_made grounded made
  exact ((making.mono (fun _ => id) fun _ => False.elim).trans
    (written.mono (fun _ => False.elim) fun _ => .inl)).trans
    (saving.mono (fun _ => False.elim) fun _ => .inr)

theorem read_of_done (faithful : transport.Faithful) (place : s.directory = some dir)
    (grounded : b.tree.Grounded dir.steps) (h : perform transport s ref o b = (.ok e, s', b')) :
    b'.tree.read ((recordPath dir e.identifier e.actionName).join "request.txt") =
        .ok (Message.ofRequest e.request) ∧
      b'.tree.read ((recordPath dir e.identifier e.actionName).join "response.txt") =
        .ok (Message.ofResponse e.response) := by
  obtain ⟨p, begun, r, left, dumps, sent, received, next, below, made, answered, -, saving⟩ :=
    steps_of_done faithful.onlyDumps place h
  have above : ∀ x ∈ recordsIn dir b.tree, x.identifier < e.identifier := by
    intro x hx
    rw [← recorded_eq place] at hx
    have least := le_highest_of_recorded hx
    omega
  obtain ⟨walked, inside⟩ := walked_of_made made
  obtain ⟨request, response⟩ := read_of_exchange
    (b := (b.withTree begun).note .info (sendingText p)) faithful dumps walked inside
    (standing_in_record grounded above below made) answered
  have apart : ∀ (name : String) (l : Location), Plain name →
      left.tree.locate ((recordPath dir e.identifier e.actionName).join name) = .ok l →
      ¬ l = Tree.placeIn dir fileName := by
    intro name l plain located same
    obtain ⟨-, -, -, -, there⟩ := (Tree.locate_join_eq_ok plain).mp located
    rw [there, placeIn_recordPath] at same
    have longer := congrArg List.length same
    simp [Tree.placeIn] at longer
  rw [sent, received]
  exact ⟨saving.read_eq_ok (fun l => apart _ l plain_request) request,
    saving.read_eq_ok (fun l => apart _ l plain_response) response⟩

private theorem place_of_mem_recordsIn {t : Tree} {x : Recorded} (proper : t.isProper = true)
    (hx : x ∈ recordsIn dir t) : ∃ name, Plain name ∧
      Recorded.parseName? name = some (x.identifier, x.actionName) ∧
      x.directory = (dir.join "requests").join name ∧
      t.standing (Tree.placeIn dir "requests" ++ [name]) = .directory := by
  obtain ⟨name, listed, named⟩ := mem_recordsIn.mp hx
  unfold Recorded.ofDirectory? at named
  obtain ⟨parts, parsed, rfl⟩ := Option.map_eq_some_iff.mp named
  obtain ⟨l, located, member⟩ := Tree.mem_directoriesOf.mp listed
  obtain ⟨-, -, -, -, there⟩ :=
    (Tree.locate_join_eq_ok plain_requests).mp located
  rw [there] at member
  exact ⟨name, Tree.plain_of_mem_directoriesAt proper member, parsed, rfl,
    (Tree.mem_directoriesAt_iff proper).mp member⟩

/-- What is read from the records before stays as it is. -/
theorem toOption_read_of_done {x : Recorded} {file : String} (quiet : transport.OnlyDumps)
    (place : s.directory = some dir) (grounded : b.tree.Grounded dir.steps)
    (proper : b.tree.isProper = true) (h : perform transport s ref o b = (.ok e, s', b'))
    (hx : x ∈ recordsIn dir b.tree) (plain : Plain file) :
    (b'.tree.read (x.directory.join file)).toOption =
      (b.tree.read (x.directory.join file)).toOption := by
  have advances := advances_of_perform quiet place grounded h
  obtain ⟨name, named, parsed, directory, there⟩ := place_of_mem_recordsIn proper hx
  have differs : Recorded.directoryName e.identifier e.actionName ≠ name := by
    rintro rfl
    rw [Recorded.parseName?_directoryName advances.below] at parsed
    have same : e.identifier = x.identifier := congrArg Prod.fst (Option.some.inj parsed)
    rw [← recorded_eq place] at hx
    have less := advances.aboveRecorded x hx
    omega
  have steps : x.directory.steps = dir.steps ++ ["requests"] ++ [name] := by
    rw [directory, Path.steps_join _ named, Path.steps_join dir plain_requests]
  have walk : Location.walk [] x.directory.steps = Tree.placeIn dir "requests" ++ [name] := by
    rw [directory, Tree.walk_steps_join named, placeIn_join_requests]
  have groundedBelow : b.tree.Grounded x.directory.steps := by
    rw [steps]
    exact (grounded.concat plain_requests).concat named
  refine (grown_of_done quiet place grounded h).toOption_read_join plain groundedBelow
    (by rw [walk, there]) ?_
  rw [Tree.placeIn, walk]
  rintro (inRecord | sessionFile)
  · unfold recordPlace at inRecord
    rw [List.append_assoc, List.prefix_append_right_inj] at inRecord
    simp [differs] at inRecord
  · have longer := congrArg List.length sessionFile
    simp [Tree.placeIn] at longer

end Session

end Runbook
