import Runbook.Proofs.Files.Making
import Runbook.Proofs.Outcome
import Runbook.Session.Perform

set_option autoImplicit false
set_option relaxedAutoImplicit false

/-!
The course of a request: where it may be given up and what has happened by then. Of the session only
the variables change before the request is known, and of the files, besides what the transport does,
only directories are made and the failure dump and the session file are written.
-/

namespace Runbook

open Runbook.Files

/-- A tree after nothing but the files for the messages of an exchange were written, with the
directories above them. -/
inductive Dumped (dumps : Option DumpPaths) (t : Tree) : Tree → Prop
  | nothing : Dumped dumps t t
  | parents {u : Tree} {paths : DumpPaths} :
      dumps = some paths → Dumped dumps t u → Dumped dumps t (u.makeParents paths.request).2
  | request {u : Tree} {paths : DumpPaths} (content : Text.Bytes) :
      dumps = some paths → Dumped dumps t u → Dumped dumps t (u.write paths.request content).2
  | response {u : Tree} {paths : DumpPaths} (content : Text.Bytes) :
      dumps = some paths → Dumped dumps t u → Dumped dumps t (u.write paths.response content).2

/-- Whether a transport writes nothing but the files that it is given. -/
def Transport.OnlyDumps {σ : Type} (transport : Transport σ) : Prop :=
  ∀ d dumps wire t, Dumped dumps t (transport d dumps wire t).2.2

/-- A transport that gives one answer to everything and writes nothing. -/
def Transport.replying (r : Response) : Transport Unit := fun _ _ wire t => (.ok r, wire, t)

theorem Transport.onlyDumps_replying (r : Response) : (replying r).OnlyDumps :=
  fun _ _ _ _ => .nothing

/-- Whether a location is that of a session file. -/
def IsSessionFile (l : Location) : Prop := l.getLast? = some Session.fileName

theorem Dumped.trans {dumps : Option DumpPaths} {t u v : Tree} (h : Dumped dumps t u)
    (k : Dumped dumps u v) : Dumped dumps t v := by
  induction k with
  | nothing => exact h
  | parents given _ ih => exact .parents given ih
  | request content given _ ih => exact .request content given ih
  | response content given _ ih => exact .response content given ih

/-- A file is written after the directories above it were made. -/
theorem Dumped.andThen {paths : DumpPaths} {write : Tree → Tree.Change} (t : Tree)
    (writes : ∀ u, Dumped (some paths) t u → Dumped (some paths) t (write u).2) :
    Dumped (some paths) t ((t.makeParents paths.request).andThen write).2 := by
  have parents : Dumped (some paths) t (t.makeParents paths.request).2 := .parents rfl .nothing
  unfold Tree.Change.andThen
  split
  · next made =>
    rw [made] at parents
    exact writes _ parents
  · next made =>
    rw [made] at parents
    exact parents

theorem plain_request : Plain "request.txt" := by decide

theorem plain_response : Plain "response.txt" := by decide

theorem plain_fileName : Plain Session.fileName := by decide

/-- Dumps do not touch session files. -/
theorem Dumped.grown {dir : Option Path} {t u : Tree}
    (h : Dumped (dir.map DumpPaths.ofDirectory) t u) :
    Tree.Grown (fun _ => True) (fun l => ¬ IsSessionFile l) t u := by
  have allowed : ∀ {l : Location} {name : String}, name ≠ Session.fileName →
      ¬ IsSessionFile (l ++ [name]) := by
    intro l name other h
    apply other
    simpa [IsSessionFile] using h
  induction h with
  | nothing => exact .refl
  | parents given _ ih =>
    obtain ⟨dir, rfl, rfl⟩ := Option.map_eq_some_iff.mp given
    refine ih.trans ((Tree.makeParents_grown plain_request _ dir).mono ?_ ?_)
    · exact fun _ _ => trivial
    · exact fun _ => False.elim
  | request content given _ ih =>
    obtain ⟨dir, rfl, rfl⟩ := Option.map_eq_some_iff.mp given
    refine ih.trans ((Tree.write_grown plain_request _ dir content).mono ?_ ?_)
    · exact fun _ => False.elim
    · rintro l rfl
      exact allowed (by decide)
  | response content given _ ih =>
    obtain ⟨dir, rfl, rfl⟩ := Option.map_eq_some_iff.mp given
    refine ih.trans ((Tree.write_grown plain_response _ dir content).mono ?_ ?_)
    · exact fun _ => False.elim
    · rintro l rfl
      exact allowed (by decide)

/-- Dumps in a directory that is there make no directories, and their files are in it. -/
theorem Dumped.grown_in {dir : Path} {t u : Tree} {l : Location}
    (h : Dumped (some (DumpPaths.ofDirectory dir)) t u)
    (walked : t.locateFrom [] dir.steps = .ok l) (inside : t.standing l = .directory) :
    Tree.Grown (fun _ => False) (l <+: ·) t u := by
  obtain rfl := Tree.eq_walk_of_locateFrom walked
  have within : ∀ name m, m = Tree.placeIn dir name → Location.walk [] dir.steps <+: m := by
    rintro name m rfl
    exact List.prefix_append _ _
  induction h with
  | nothing => exact .refl
  | parents given _ ih =>
    obtain rfl := Option.some.inj given
    have stay := fun m hm => ih.standing_directory (l := m) hm
    have same := Tree.makeParents_eq_self plain_request (Tree.locateFrom_mono stay walked)
      (stay _ inside)
    rw [DumpPaths.ofDirectory, same]
    exact ih
  | request content given _ ih =>
    obtain rfl := Option.some.inj given
    exact ih.trans ((Tree.write_grown plain_request _ dir content).mono (fun _ => id)
      (within _))
  | response content given _ ih =>
    obtain rfl := Option.some.inj given
    exact ih.trans ((Tree.write_grown plain_response _ dir content).mono (fun _ => id)
      (within _))

namespace Session

variable {σ : Type} {transport : Transport σ} {s : Session} {ref : ActionRef} {o : BuildOptions}
  {b : Bench σ}

/-- What performing a request comes to: it cannot be made, its record cannot be begun, its failure
cannot be recorded, the session cannot be saved, or it is done. -/
inductive Course (transport : Transport σ) (s : Session) (ref : ActionRef) (o : BuildOptions)
    (b : Bench σ) : Except Error Executed × Session × Bench σ → Prop
  | unprepared {e : Error} :
      s.prepare b.tree ref o = .error e → Course transport s ref o b (.error e, s, b)
  | unrecorded {p : Prepared} {fault : Fault} {begun : Tree} :
      s.prepare b.tree ref o = .ok p → makeRecord b.tree p.dumpDirectory = (.error fault, begun) →
      Course transport s ref o b (.error (.io fault), s, b.withTree begun)
  | unanswered {p : Prepared} {begun : Tree} {e : Error} {left : Bench σ} :
      s.prepare b.tree ref o = .ok p → makeRecord b.tree p.dumpDirectory = (.ok (), begun) →
      exchange transport p ((b.withTree begun).note .info (sendingText p)) = (.error e, left) →
      Course transport s ref o b (.error e, s, left)
  | unsaved {p : Prepared} {begun saved : Tree} {r : Response} {left : Bench σ} {fault : Fault} :
      s.prepare b.tree ref o = .ok p → makeRecord b.tree p.dumpDirectory = (.ok (), begun) →
      exchange transport p ((b.withTree begun).note .info (sendingText p)) = (.ok r, left) →
      (s.takeOutputs p.built.fields r).save left.tree = (.error fault, saved) →
      Course transport s ref o b (.error (.io fault), s.takeOutputs p.built.fields r,
        (left.note .info (answeredText p r)).withTree saved)
  | done {p : Prepared} {begun saved : Tree} {r : Response} {left : Bench σ} :
      s.prepare b.tree ref o = .ok p → makeRecord b.tree p.dumpDirectory = (.ok (), begun) →
      exchange transport p ((b.withTree begun).note .info (sendingText p)) = (.ok r, left) →
      (s.takeOutputs p.built.fields r).save left.tree = (.ok (), saved) →
      Course transport s ref o b (.ok (executedOf p r),
        { s.takeOutputs p.built.fields r with
          executed := (s.takeOutputs p.built.fields r).executed ++ [executedOf p r] },
        (left.note .info (answeredText p r)).withTree saved)

theorem perform_course (transport : Transport σ) (s : Session) (ref : ActionRef) (o : BuildOptions)
    (b : Bench σ) : Course transport s ref o b (perform transport s ref o b) := by
  unfold perform
  split
  · next prepared => exact .unprepared prepared
  · next p prepared =>
    split
    · next recorded => exact .unrecorded prepared recorded
    · next recorded =>
      split
      · next answered => exact .unanswered prepared recorded answered
      · next answered =>
        unfold conclude
        dsimp only
        split
        · next saved => exact .unsaved prepared recorded answered saved
        · next saved => exact .done prepared recorded answered saved

/-- Outputs become variables, and nothing else of the session changes. -/
theorem takeOutputs_eq (s : Session) (fields : Fields) (r : Response) :
    s.takeOutputs fields r = { s with vars := (s.takeOutputs fields r).vars } := by
  unfold takeOutputs
  cases Action.outputsOf fields <;> rfl

section

variable (s : Session) (fields : Fields) (r : Response)

@[simp] theorem project_takeOutputs : (s.takeOutputs fields r).project = s.project := by
  rw [takeOutputs_eq]

@[simp] theorem title_takeOutputs : (s.takeOutputs fields r).title = s.title := by
  rw [takeOutputs_eq]

@[simp] theorem directory_takeOutputs : (s.takeOutputs fields r).directory = s.directory := by
  rw [takeOutputs_eq]

@[simp] theorem contextNames_takeOutputs :
    (s.takeOutputs fields r).contextNames = s.contextNames := by
  rw [takeOutputs_eq]

@[simp] theorem parents_takeOutputs : (s.takeOutputs fields r).parents = s.parents := by
  rw [takeOutputs_eq]

@[simp] theorem executed_takeOutputs : (s.takeOutputs fields r).executed = s.executed := by
  rw [takeOutputs_eq]

end

theorem perform_eq_ok_of_isOk (h : (perform transport s ref o b).1.isOk = true) :
    ∃ e s' b', perform transport s ref o b = (.ok e, s', b') := by
  obtain ⟨e, ok⟩ := Outcome.exists_of_isOk h
  exact ⟨e, _, _, Prod.ext ok rfl⟩

/-- What has happened when a request is done. -/
theorem perform_eq_ok {e : Executed} {s' : Session} {b' : Bench σ}
    (h : perform transport s ref o b = (.ok e, s', b')) :
    ∃ p begun r left, s.prepare b.tree ref o = .ok p ∧
      makeRecord b.tree p.dumpDirectory = (.ok (), begun) ∧
      exchange transport p ((b.withTree begun).note .info (sendingText p)) = (.ok r, left) ∧
      (s.takeOutputs p.built.fields r).save left.tree = (.ok (), b'.tree) ∧ e = executedOf p r ∧
      s' = { s with
        vars := (s.takeOutputs p.built.fields r).vars, executed := s.executed ++ [e] } := by
  have course := perform_course transport s ref o b
  rw [h] at course
  cases course with
  | @done p begun _ r left prepared recorded answered saved =>
    refine ⟨p, begun, r, left, prepared, recorded, answered, saved, rfl, ?_⟩
    rw [executed_takeOutputs]
    conv_lhs => rw [takeOutputs_eq]

/-- A request that is done leaves the session saved as it is now. -/
theorem saved_of_perform {e : Executed} {s' : Session} {b' : Bench σ}
    (h : perform transport s ref o b = (.ok e, s', b')) :
    ∃ t, s'.save t = (.ok (), b'.tree) := by
  obtain ⟨p, -, r, left, -, -, -, saved, -, rfl⟩ := perform_eq_ok h
  rw [takeOutputs_eq] at saved
  exact ⟨left.tree, saved⟩

theorem prepare_eq_ok {p : Prepared} {t : Tree} : s.prepare t ref o = .ok p ↔
    ∃ built identifier, s.build t ref o = .ok built ∧ s.nextIdentifier t = .ok identifier ∧
      p = ⟨built, identifier, s.requestsPath?.map
        (·.join (Recorded.directoryName identifier built.action.name))⟩ := by
  unfold prepare
  simp only [Outcome.bind_eq_ok, pure, Except.pure, Except.ok.injEq]
  constructor
  · rintro ⟨built, hbuilt, identifier, hidentifier, rfl⟩
    exact ⟨built, identifier, hbuilt, hidentifier, rfl⟩
  · rintro ⟨built, identifier, hbuilt, hidentifier, rfl⟩
    exact ⟨built, hbuilt, identifier, hidentifier, rfl⟩

/-- What the transport leaves behind when a request is sent. -/
def sent (transport : Transport σ) (p : Prepared) (b : Bench σ) : Tree :=
  (transport p.built.descriptor (p.dumpDirectory.map DumpPaths.ofDirectory) b.wire b.tree).2.2

/-- After the transport, at most the failure is dumped. -/
theorem exchange_dumped (transport : Transport σ) (p : Prepared) (b : Bench σ) :
    Dumped (p.dumpDirectory.map DumpPaths.ofDirectory) (sent transport p b)
      (exchange transport p b).2.tree := by
  have failure : ∀ (t : Tree) (dumps : Option DumpPaths) (r : Response),
      Dumped dumps t (recordFailure t dumps r).2 := by
    intro t dumps r
    unfold recordFailure
    cases dumps with
    | none => exact .nothing
    | some paths =>
      dsimp only
      split_ifs
      · exact .nothing
      · exact .andThen t fun u parents => .response _ rfl parents
  unfold exchange sent
  dsimp only
  rcases transport p.built.descriptor (p.dumpDirectory.map DumpPaths.ofDirectory) b.wire b.tree with
    ⟨answer, wire, tree⟩
  cases answer with
  | ok response => exact .nothing
  | error fault =>
    have dumped := failure tree (p.dumpDirectory.map DumpPaths.ofDirectory)
      (Response.failure fault.message)
    dsimp only [Bench.note]
    generalize recordFailure tree (p.dumpDirectory.map DumpPaths.ofDirectory)
      (Response.failure fault.message) = change at dumped ⊢
    obtain ⟨outcome, after⟩ := change
    cases outcome <;> exact dumped

/-- To begin a record makes directories only. -/
theorem makeRecord_grown (t : Tree) (dir : Option Path) :
    Tree.Grown (fun _ => True) (fun _ => False) t (makeRecord t dir).2 := by
  cases dir with
  | none => exact .refl
  | some dir =>
    exact (Tree.makeDirectoriesUp_grown t dir dir.steps.reverse).mono (fun _ _ => trivial)
      (fun _ => id)

/-- To save a session writes a session file only. -/
theorem save_grown (s : Session) (t : Tree) :
    Tree.Grown (fun _ => True) IsSessionFile t (s.save t).2 := by
  unfold save
  cases s.directory with
  | none => exact .refl
  | some dir =>
    refine (Tree.save_grown plain_fileName t dir _).mono (fun _ _ => trivial) ?_
    rintro l rfl
    simp [IsSessionFile, Tree.placeIn]

/-- In a directory that is there, nothing but the session file is new. -/
theorem save_grown_in {dir : Path} {t : Tree} {l : Location} (place : s.directory = some dir)
    (walked : t.locateFrom [] dir.steps = .ok l) (inside : t.standing l = .directory) :
    Tree.Grown (fun _ => False) (l <+: ·) t (s.save t).2 := by
  obtain rfl := Tree.eq_walk_of_locateFrom walked
  unfold save
  rw [place]
  refine (Tree.save_grown_in plain_fileName walked inside _).mono (fun _ => id) ?_
  rintro m rfl
  exact List.prefix_append _ _

/-- A session that could not be saved is not written. -/
theorem save_grown_of_error {t u : Tree} {fault : Fault} (h : s.save t = (.error fault, u)) :
    Tree.Grown (fun _ => True) (fun _ => False) t u := by
  unfold save at h
  cases hdir : s.directory with
  | none => simp [hdir] at h
  | some dir =>
    rw [hdir] at h
    exact (Tree.save_grown_of_error plain_fileName h).mono (fun _ _ => trivial) (fun _ => id)

/-- With a transport that only dumps, an exchange only dumps. -/
theorem exchange_dumped_of_onlyDumps (quiet : transport.OnlyDumps) (p : Prepared) (b : Bench σ) :
    Dumped (p.dumpDirectory.map DumpPaths.ofDirectory) b.tree (exchange transport p b).2.tree :=
  Dumped.trans (quiet _ _ _ _) (exchange_dumped transport p b)

/-- A request does not move a session. -/
theorem directory_perform (transport : Transport σ) (s : Session) (ref : ActionRef)
    (o : BuildOptions) (b : Bench σ) :
    (perform transport s ref o b).2.1.directory = s.directory := by
  have course := perform_course transport s ref o b
  generalize perform transport s ref o b = outcome at course ⊢
  cases course with
  | unprepared => rfl
  | unrecorded => rfl
  | unanswered => rfl
  | unsaved => exact directory_takeOutputs ..
  | done => exact directory_takeOutputs ..

/-- A request that ends with an error has not been executed. -/
theorem executed_of_error {e : Error} {s' : Session} {b' : Bench σ}
    (h : perform transport s ref o b = (.error e, s', b')) : s'.executed = s.executed := by
  have course := perform_course transport s ref o b
  rw [h] at course
  cases course with
  | unprepared => rfl
  | unrecorded => rfl
  | unanswered => rfl
  | unsaved => exact executed_takeOutputs ..

private theorem grown_of_grown {directories files : Location → Prop} {t u : Tree}
    (h : Tree.Grown directories files t u) : Tree.Grown (fun _ => True) (fun _ => True) t u :=
  h.mono (fun _ _ => trivial) (fun _ _ => trivial)

private theorem grown_of_exchange {p : Prepared} {begun : Tree} {answer : Except Error Response}
    {left : Bench σ} (quiet : transport.OnlyDumps)
    (recorded : makeRecord b.tree p.dumpDirectory = (.ok (), begun))
    (answered : exchange transport p ((b.withTree begun).note .info (sendingText p)) =
      (answer, left)) :
    Tree.Grown (fun _ => True) (fun _ => True) b.tree left.tree := by
  have made := makeRecord_grown b.tree p.dumpDirectory
  rw [recorded] at made
  have dumped := exchange_dumped_of_onlyDumps quiet p
    ((b.withTree begun).note .info (sendingText p))
  rw [answered] at dumped
  exact (grown_of_grown made).trans (grown_of_grown dumped.grown)

/-- With a transport that only dumps, a request only adds to what is there, whatever it comes to. -/
theorem perform_grown (quiet : transport.OnlyDumps) (s : Session) (ref : ActionRef)
    (o : BuildOptions) (b : Bench σ) :
    Tree.Grown (fun _ => True) (fun _ => True) b.tree (perform transport s ref o b).2.2.tree := by
  have course := perform_course transport s ref o b
  generalize perform transport s ref o b = outcome at course ⊢
  cases course with
  | unprepared => exact .refl
  | @unrecorded p _ _ _ recorded =>
    have made := makeRecord_grown b.tree p.dumpDirectory
    rw [recorded] at made
    exact grown_of_grown made
  | unanswered _ recorded answered => exact grown_of_exchange quiet recorded answered
  | @unsaved p _ _ r left _ _ recorded answered failed =>
    have written := save_grown (s.takeOutputs p.built.fields r) left.tree
    rw [failed] at written
    exact (grown_of_exchange quiet recorded answered).trans (grown_of_grown written)
  | @done p _ _ r left _ recorded answered done =>
    have written := save_grown (s.takeOutputs p.built.fields r) left.tree
    rw [done] at written
    exact (grown_of_exchange quiet recorded answered).trans (grown_of_grown written)

end Session

end Runbook
