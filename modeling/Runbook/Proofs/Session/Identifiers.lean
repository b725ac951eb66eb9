import Runbook.Proofs.Session.Course
import Runbook.Proofs.Session.Numbering

set_option autoImplicit false
set_option relaxedAutoImplicit false

/-!
The numbers of requests over runs. Several handles of one session perform requests in any order,
with other changes of the files in between. As long as the path of the session is grounded, a
request that succeeds gets a number above all that are recorded and all that its handle executed, in
a directory that was not there, and its record is the one that is added.
-/

namespace Runbook

open Runbook.Files

/-- The directory of the record of a request of the session in a directory. -/
def recordPath (dir : Path) (identifier : Nat) (action : String) : Path :=
  (dir.join "requests").join (Recorded.directoryName identifier action)

/-- What a request that succeeds adds to a session and to its records. -/
structure Advances (s : Session) (t : Tree) (e : Executed) (s' : Session) (t' : Tree) (dir : Path) :
    Prop where
  aboveRecorded : ∀ r ∈ s.recorded t, r.identifier < e.identifier
  abovePresent : ∀ name n action,
    t.standing (Tree.placeIn dir "requests" ++ [name]) = .directory →
    Recorded.parseName? name = some (n, action) → n < e.identifier
  aboveExecuted : ∀ x ∈ s.executed, x.identifier < e.identifier
  below : e.identifier < Text.bound32
  directory : e.dumpDirectory = some (recordPath dir e.identifier e.actionName)
  before : t.has (recordPath dir e.identifier e.actionName) = false
  after : t'.isDirectory (recordPath dir e.identifier e.actionName) = true
  recorded : s'.recorded t' = s.recorded t ++
    [⟨e.identifier, Recorded.safeName e.actionName, recordPath dir e.identifier e.actionName⟩]
  executed : s'.executed = s.executed ++ [e]

/-- The handles of a session, and what they work with. -/
structure Desk (ι σ : Type) where
  handles : ι → Session
  bench : Bench σ

namespace Desk

variable {ι σ : Type} [DecidableEq ι]

/-- One thing that happens: a handle performs a request, successfully or not, with a transport that
only dumps; the files are changed otherwise; or a handle is opened anew. The requests that succeed
are noted. -/
inductive Step (dir : Path) (change : Tree → Tree → Prop) (d : Desk ι σ) :
    List (ι × Executed) → Desk ι σ → Prop
  | succeeded {transport : Transport σ} {i : ι} {ref : ActionRef} {o : BuildOptions} {e : Executed}
      {s : Session} {b : Bench σ} :
      transport.OnlyDumps → Session.perform transport (d.handles i) ref o d.bench = (.ok e, s, b) →
      Step dir change d [(i, e)] ⟨Function.update d.handles i s, b⟩
  | failed {transport : Transport σ} {i : ι} {ref : ActionRef} {o : BuildOptions} {error : Error}
      {s : Session} {b : Bench σ} :
      transport.OnlyDumps →
      Session.perform transport (d.handles i) ref o d.bench = (.error error, s, b) →
      Step dir change d [] ⟨Function.update d.handles i s, b⟩
  | changed {t : Tree} :
      change d.bench.tree t → Step dir change d [] ⟨d.handles, d.bench.withTree t⟩
  | opened {i : ι} {s : Session} :
      s.directory = some dir → s.executed = [] →
      Step dir change d [] ⟨Function.update d.handles i s, d.bench⟩

/-- Any number of things happen one after the other; the requests that succeed are noted in
order. -/
inductive Run (dir : Path) (change : Tree → Tree → Prop) (start : Desk ι σ) :
    List (ι × Executed) → Desk ι σ → Prop
  | start : Run dir change start [] start
  | next {log more : List (ι × Executed)} {d d' : Desk ι σ} :
      Run dir change start log d → Step dir change d more d' → Run dir change start (log ++ more) d'

end Desk

namespace Session

variable {σ : Type} {transport : Transport σ} {s s' : Session} {ref : ActionRef} {o : BuildOptions}
  {b b' : Bench σ} {e : Executed} {dir : Path} {t u begun : Tree}

theorem plain_requests : Plain "requests" := by decide

/-- Records are listed also after the tree has grown. -/
theorem recordsIn_subset {directories files : Location → Prop}
    (h : Tree.Grown directories files t u) : recordsIn dir t ⊆ recordsIn dir u := by
  intro r hr
  obtain ⟨name, member, named⟩ := mem_recordsIn.mp hr
  refine mem_recordsIn.mpr ⟨name, ?_, named⟩
  obtain ⟨l, located, listed⟩ := Tree.mem_directoriesOf.mp member
  have still := Tree.locate_mono (fun l hl => h.standing_directory hl) located
  exact Tree.mem_directoriesOf.mpr ⟨l, still, (h.directoriesAt_prefix l).subset listed⟩

theorem placeIn_join_requests (dir : Path) (name : String) :
    Tree.placeIn (dir.join "requests") name = Tree.placeIn dir "requests" ++ [name] := by
  rw [Tree.placeIn, Tree.walk_steps_join plain_requests]

/-- To begin a record, directories are made above it and no file is written. -/
theorem grown_of_made {n : Nat} {action : String} (grounded : t.Grounded dir.steps)
    (made : t.makeDirectories (recordPath dir n action) = (.ok (), begun)) :
    Tree.Grown (· <+: Tree.placeIn dir "requests" ++ [Recorded.directoryName n action])
      (fun _ => False) t begun := by
  have plain := Recorded.plain_directoryName n action
  have deeper : t.Grounded (recordPath dir n action).steps := by
    rw [recordPath, Path.steps_join _ plain, Path.steps_join dir plain_requests]
    exact (grounded.concat plain_requests).concat plain
  have making := Tree.makeDirectories_grown deeper
  rwa [made, recordPath, Tree.walk_steps_join plain, placeIn_join_requests] at making

private theorem ofDirectory?_directoryName {n : Nat} (action : String) (below : n < Text.bound32) :
    Recorded.ofDirectory? (dir.join "requests") (Recorded.directoryName n action) =
      some ⟨n, Recorded.safeName action, recordPath dir n action⟩ := by
  rw [Recorded.ofDirectory?, Recorded.parseName?_directoryName below]
  rfl

/-- No record has a number above all that are listed. -/
private theorem standing_ne_directory_of_above {n : Nat} {action : String}
    (above : ∀ r ∈ recordsIn dir t, r.identifier < n) (below : n < Text.bound32)
    (listed : t.directoriesOf (dir.join "requests") =
      t.directoriesAt (Tree.placeIn dir "requests")) :
    t.standing (Tree.placeIn dir "requests" ++ [Recorded.directoryName n action]) ≠
      .directory := by
  intro present
  have member := Tree.mem_directoriesAt present
  rw [← listed] at member
  exact Nat.lt_irrefl n (above _ (mem_recordsIn.mpr
    ⟨_, member, ofDirectory?_directoryName action below⟩))

/-- On a grounded path, there is nothing where a record with a number above all others is begun. -/
theorem standing_record_eq_nothing {n : Nat} {action : String} (grounded : t.Grounded dir.steps)
    (above : ∀ r ∈ recordsIn dir t, r.identifier < n) (below : n < Text.bound32)
    (made : t.makeDirectories (recordPath dir n action) = (.ok (), begun)) :
    t.standing (Tree.placeIn dir "requests" ++ [Recorded.directoryName n action]) = .nothing := by
  have plain := Recorded.plain_directoryName n action
  obtain ⟨accepted, walked, -, inside⟩ := Tree.makeDirectories_join_eq_ok plain made
  have short := Tree.isShort_of_locateFrom walked
  rw [Path.steps_join dir plain_requests] at short
  have listed := Tree.directoriesOf_join plain_requests grounded (accepted.of_join plain)
    fun step hs => short step (List.mem_append_left _ hs)
  rw [placeIn_join_requests] at inside
  by_contra something
  have kept := (grown_of_made grounded made).standing_eq id something
  rw [inside] at kept
  exact standing_ne_directory_of_above above below listed kept.symm

/-- One more directory with a number above all others is one more record, which is the last. -/
private theorem recordsIn_append {n : Nat} {action : String}
    (above : ∀ r ∈ recordsIn dir t, r.identifier < n) (below : n < Text.bound32)
    (added : u.directoriesOf (dir.join "requests") =
      t.directoriesOf (dir.join "requests") ++ [Recorded.directoryName n action]) :
    recordsIn dir u = recordsIn dir t ++
      [⟨n, Recorded.safeName action, recordPath dir n action⟩] := by
  have last : ∀ r ∈ (t.directoriesOf (dir.join "requests")).filterMap
      (Recorded.ofDirectory? (dir.join "requests")), decide (r.identifier ≤ n) = true := by
    intro r hr
    have listed : r ∈ recordsIn dir t := by simpa [recordsIn] using hr
    exact decide_eq_true (above r listed).le
  unfold recordsIn
  rw [added, List.filterMap_append, List.filterMap_cons, ofDirectory?_directoryName action below,
    List.filterMap_nil]
  refine mergeSort_concat ?_ ?_ last
  · intro a b c hab hbc
    simp only [decide_eq_true_eq] at hab hbc ⊢
    omega
  · intro a b
    simp only [Bool.or_eq_true, decide_eq_true_eq]
    omega

/-- A record that is begun with a number above all others was not there, and it is all that is new
among the records, also after files were written. -/
private theorem recordsIn_begun {n : Nat} {action : String} {files : Location → Prop}
    (grounded : t.Grounded dir.steps) (above : ∀ r ∈ recordsIn dir t, r.identifier < n)
    (below : n < Text.bound32)
    (made : t.makeDirectories (recordPath dir n action) = (.ok (), begun))
    (written : Tree.Grown (fun _ => False) files begun u) :
    t.directoriesOf (dir.join "requests") = t.directoriesAt (Tree.placeIn dir "requests") ∧
      t.has (recordPath dir n action) = false ∧ u.isDirectory (recordPath dir n action) = true ∧
      recordsIn dir u = recordsIn dir t ++
        [⟨n, Recorded.safeName action, recordPath dir n action⟩] := by
  have plain := Recorded.plain_directoryName n action
  obtain ⟨accepted, walked, located, inside⟩ := Tree.makeDirectories_join_eq_ok plain made
  have short := Tree.isShort_of_locateFrom walked
  rw [Path.steps_join dir plain_requests] at walked short
  have shortAbove : ∀ step ∈ dir.steps ++ ["requests"], IsShort step :=
    fun step hs => short step (List.mem_append_left _ hs)
  have listed : ∀ {v : Tree}, v.Grounded dir.steps →
      v.directoriesOf (dir.join "requests") = v.directoriesAt (Tree.placeIn dir "requests") :=
    fun hv => Tree.directoriesOf_join plain_requests hv (accepted.of_join plain) shortAbove
  rw [placeIn_join_requests] at inside
  have grown := grown_of_made grounded made
  -- The new directory is the only one that can be put beside the other records.
  have only : ∀ other, Tree.placeIn dir "requests" ++ [other] <+:
      Tree.placeIn dir "requests" ++ [Recorded.directoryName n action] →
      other = Recorded.directoryName n action := by
    intro other hother
    simpa using (List.prefix_append_right_inj _).mp hother
  have absent := standing_record_eq_nothing grounded above below made
  have groundedAfter : u.Grounded dir.steps :=
    (grounded.mono fun l hl => grown.standing_directory hl).mono
      fun l hl => written.standing_directory hl
  refine ⟨listed grounded, ?_, ?_, ?_⟩
  · rw [← placeIn_join_requests] at absent
    exact Tree.has_join_eq_false plain absent
  · exact Tree.isDirectory_of_locate
      (Tree.locate_mono (fun l hl => written.standing_directory hl) located)
      (written.standing_directory (by rwa [placeIn_join_requests]))
  · have added := grown.directoriesAt_append only absent inside
    refine recordsIn_append above below ?_
    rw [listed groundedAfter, written.directoriesAt_eq, added, listed grounded]

theorem record_of_prepare {p : Prepared} (place : s.directory = some dir)
    (h : s.prepare t ref o = .ok p) :
    p.identifier = s.highest t + 1 ∧ p.identifier < Text.bound32 ∧
      p.dumpDirectory = some (recordPath dir p.identifier p.built.action.name) := by
  obtain ⟨built, n, -, number, rfl⟩ := prepare_eq_ok.mp h
  obtain ⟨next, below⟩ := nextIdentifier_eq_ok.mp number
  refine ⟨next, below, ?_⟩
  rw [requestsPath?, place]
  rfl

/-- Once its record is begun, a request only writes files in the directory of the session. -/
theorem grown_of_begun {p : Prepared} {n : Nat} {action : String}
    {answer : Except Error Response} {saving : Session} {middle : Bench σ}
    (quiet : transport.OnlyDumps) (place : saving.directory = some dir)
    (dumps : p.dumpDirectory = some (recordPath dir n action))
    (made : t.makeDirectories (recordPath dir n action) = (.ok (), b.tree))
    (answered : exchange transport p b = (answer, middle)) :
    Tree.Grown (fun _ => False) (Location.walk [] dir.steps <+: ·) b.tree
      (saving.save middle.tree).2 := by
  have plain := Recorded.plain_directoryName n action
  obtain ⟨-, walked, -, inside⟩ := Tree.makeDirectories_join_eq_ok plain made
  have dumped : Tree.Grown (fun _ => False) (Location.walk [] dir.steps <+: ·) b.tree
      middle.tree := by
    have exchanged := exchange_dumped_of_onlyDumps quiet p b
    rw [answered, dumps] at exchanged
    have within : Location.walk [] dir.steps <+:
        Tree.placeIn (dir.join "requests") (Recorded.directoryName n action) := by
      rw [placeIn_join_requests, Tree.placeIn, List.append_assoc]
      exact List.prefix_append _ _
    refine (exchanged.grown_in ?_ inside).mono (fun _ => id) fun l hl => within.trans hl
    rw [recordPath, Path.steps_join _ plain]
    exact walked
  obtain ⟨m, inner, -⟩ := Tree.locateFrom_concat_eq_ok.mp walked
  rw [Path.steps_join dir plain_requests] at inner
  obtain ⟨m, outer, above, -⟩ := Tree.locateFrom_concat_eq_ok.mp inner
  have stay := fun l hl => dumped.standing_directory (l := l) hl
  obtain rfl := Tree.eq_walk_of_locateFrom outer
  exact dumped.trans (save_grown_in place (Tree.locateFrom_mono stay outer) (stay _ above))

/-- A request that succeeds has the next number, and its record is the one that is new. -/
theorem advances_of_perform (quiet : transport.OnlyDumps) (place : s.directory = some dir)
    (grounded : b.tree.Grounded dir.steps)
    (h : perform transport s ref o b = (.ok e, s', b')) : Advances s b.tree e s' b'.tree dir := by
  have course := perform_course transport s ref o b
  rw [h] at course
  cases course with
  | @done p begun saved r left prepared recorded answered done =>
    obtain ⟨next, below, dumps⟩ := record_of_prepare place prepared
    rw [dumps] at recorded
    have made : b.tree.makeDirectories (recordPath dir p.identifier p.built.action.name) =
        (.ok (), begun) :=
      recorded
    have kept : (s.takeOutputs p.built.fields r).directory = some dir :=
      (directory_takeOutputs ..).trans place
    have written : Tree.Grown (fun _ => False) (Location.walk [] dir.steps <+: ·) begun
        ((s.takeOutputs p.built.fields r).save left.tree).2 :=
      grown_of_begun (b := (b.withTree begun).note .info (sendingText p)) quiet kept dumps made
        answered
    rw [done] at written
    have aboveRecorded : ∀ x ∈ s.recorded b.tree, x.identifier < p.identifier := by
      intro x hx
      have least := le_highest_of_recorded hx
      omega
    have aboveExecuted : ∀ x ∈ s.executed, x.identifier < p.identifier := by
      intro x hx
      have least : x.identifier ≤ s.highest b.tree := le_highest_of_executed hx
      omega
    have listed : ∀ x ∈ recordsIn dir b.tree, x.identifier < p.identifier := by
      rwa [recorded_eq place] at aboveRecorded
    obtain ⟨present, before, after, new⟩ := recordsIn_begun grounded listed below made written
    exact {
      aboveRecorded := aboveRecorded
      abovePresent := by
        intro name n action standing parsed
        have member := Tree.mem_directoriesAt standing
        rw [← present] at member
        exact listed ⟨n, action, _⟩ (mem_recordsIn.mpr
          ⟨name, member, by rw [Recorded.ofDirectory?, parsed]; rfl⟩)
      aboveExecuted := aboveExecuted
      below := below
      directory := dumps
      before := before
      after := after
      recorded := by
        refine (recorded_eq kept _).trans ?_
        rw [recorded_eq place]
        exact new
      executed := by
        rw [executed_takeOutputs] }

/-- Without a number left, a request is not even begun. -/
private theorem perform_of_exhausted (transport : Transport σ) (ref : ActionRef) (o : BuildOptions)
    (full : Text.bound32 ≤ s.highest b.tree + 1) :
    ∃ error, perform transport s ref o b = (.error error, s, b) ∧
      ∀ built, s.build b.tree ref o = .ok built →
        error = .invalidRequest (.identifiersExhausted s.name) := by
  have none_left : s.nextIdentifier b.tree =
      .error (.invalidRequest (.identifiersExhausted s.name)) := by
    unfold nextIdentifier
    rw [if_neg (by omega)]
  unfold perform prepare
  cases made : s.build b.tree ref o with
  | error error => exact ⟨error, rfl, fun built h => by cases h⟩
  | ok built =>
    rw [none_left]
    exact ⟨_, rfl, fun _ _ => rfl⟩

end Session

namespace Desk

variable {ι σ : Type} [DecidableEq ι] {dir : Path} {change : Tree → Tree → Prop}
  {start d d' stop : Desk ι σ} {log more : List (ι × Executed)}

/-- All handles are of the session in a directory, and its path is grounded. -/
structure Sound (dir : Path) (d : Desk ι σ) : Prop where
  directory : ∀ i, (d.handles i).directory = some dir
  grounded : d.bench.tree.Grounded dir.steps

private theorem directory_update {handles : ι → Session} {i : ι} {s : Session}
    (all : ∀ j, (handles j).directory = some dir) (one : s.directory = some dir) (j : ι) :
    (Function.update handles i s j).directory = some dir := by
  by_cases same : j = i
  · subst same
    rwa [Function.update_self]
  · rw [Function.update_of_ne same]
    exact all j

private theorem sound_of_perform {transport : Transport σ} {i : ι} {ref : ActionRef}
    {o : BuildOptions} {outcome : Except Error Executed} {s : Session} {b : Bench σ}
    (sound : Sound dir d) (quiet : transport.OnlyDumps)
    (h : Session.perform transport (d.handles i) ref o d.bench = (outcome, s, b)) :
    Sound dir ⟨Function.update d.handles i s, b⟩ := by
  have place := Session.directory_perform transport (d.handles i) ref o d.bench
  have grown := Session.perform_grown quiet (d.handles i) ref o d.bench
  rw [h] at place grown
  exact ⟨directory_update sound.directory (place.trans (sound.directory i)),
    sound.grounded.mono fun l hl => grown.standing_directory hl⟩

theorem Step.sound (keeps : ∀ t u, change t u → t.Grounded dir.steps → u.Grounded dir.steps)
    (h : Step dir change d more d') (before : Sound dir d) : Sound dir d' := by
  cases h with
  | succeeded quiet performed => exact sound_of_perform before quiet performed
  | failed quiet performed => exact sound_of_perform before quiet performed
  | changed changes => exact ⟨before.directory, keeps _ _ changes before.grounded⟩
  | opened place _ => exact ⟨directory_update before.directory place, before.grounded⟩

theorem Run.sound (keeps : ∀ t u, change t u → t.Grounded dir.steps → u.Grounded dir.steps)
    (h : Run dir change start log stop) (before : Sound dir start) : Sound dir stop := by
  induction h with
  | start => exact before
  | next _ step ih => exact step.sound keeps ih

/-- What a handle executed has increasing numbers. -/
def Increasing (s : Session) : Prop := (s.executed.map (·.identifier)).Pairwise (· < ·)

private theorem increasing_of_advances {s s' : Session} {t t' : Tree} {e : Executed}
    (before : Increasing s) (h : Advances s t e s' t' dir) : Increasing s' := by
  unfold Increasing
  rw [h.executed, List.map_append, List.pairwise_append]
  refine ⟨before, List.pairwise_singleton _ _, ?_⟩
  intro n hn m hm
  obtain ⟨x, hx, rfl⟩ := List.mem_map.mp hn
  obtain rfl : m = e.identifier := by simpa using hm
  exact h.aboveExecuted x hx

theorem Step.increasing (h : Step dir change d more d') (sound : Sound dir d)
    (before : ∀ i, Increasing (d.handles i)) (j : ι) : Increasing (d'.handles j) := by
  have update : ∀ {i : ι} {s : Session}, Increasing s →
      Increasing (Function.update d.handles i s j) := by
    intro i s one
    by_cases same : j = i
    · subst same
      rwa [Function.update_self]
    · rw [Function.update_of_ne same]
      exact before j
  cases h with
  | succeeded quiet performed =>
    exact update (increasing_of_advances (before _)
      (Session.advances_of_perform quiet (sound.directory _) sound.grounded performed))
  | @failed _ i _ _ _ s b quiet performed =>
    refine update ?_
    unfold Increasing
    rw [Session.executed_of_error performed]
    exact before i
  | changed => exact before j
  | opened _ executed =>
    refine update ?_
    simp [Increasing, executed]

theorem Run.increasing (keeps : ∀ t u, change t u → t.Grounded dir.steps → u.Grounded dir.steps)
    (h : Run dir change start log stop) (sound : Sound dir start)
    (before : ∀ i, Increasing (start.handles i)) (i : ι) : Increasing (stop.handles i) := by
  induction h generalizing i with
  | start => exact before i
  | next run step ih => exact step.increasing (run.sound keeps sound) ih i

/-- The numbers of the records of the session in a directory. -/
def numbersIn (dir : Path) (t : Tree) : List Nat := (recordsIn dir t).map (·.identifier)

private theorem numbersIn_subset {directories files : Location → Prop} {t u : Tree}
    (h : Tree.Grown directories files t u) : numbersIn dir t ⊆ numbersIn dir u :=
  List.map_subset _ (Session.recordsIn_subset h)

/-- If no record is removed, all stay over a step, and what succeeds is recorded with a number above
those before. -/
theorem Step.numbers (keepsRecords : ∀ t u, change t u → numbersIn dir t ⊆ numbersIn dir u)
    (h : Step dir change d more d') (sound : Sound dir d) :
    numbersIn dir d.bench.tree ⊆ numbersIn dir d'.bench.tree ∧
      (more.map (·.2.identifier)).Pairwise (· < ·) ∧
      ∀ entry ∈ more, entry.2.identifier ∈ numbersIn dir d'.bench.tree ∧
        ∀ n ∈ numbersIn dir d.bench.tree, n < entry.2.identifier := by
  cases h with
  | @succeeded transport i ref o e s b quiet performed =>
    have advances := Session.advances_of_perform quiet (sound.directory i) sound.grounded performed
    have grown := Session.perform_grown quiet (d.handles i) ref o d.bench
    have place := Session.directory_perform transport (d.handles i) ref o d.bench
    rw [performed] at grown place
    refine ⟨numbersIn_subset grown, List.pairwise_singleton _ _, ?_⟩
    intro entry member
    obtain rfl := List.mem_singleton.mp member
    refine ⟨?_, ?_⟩
    · have listed := advances.recorded
      rw [Session.recorded_eq (place.trans (sound.directory i))] at listed
      rw [numbersIn, listed]
      simp
    · intro n hn
      obtain ⟨r, hr, rfl⟩ := List.mem_map.mp hn
      rw [← Session.recorded_eq (sound.directory i)] at hr
      exact advances.aboveRecorded r hr
  | @failed transport i ref o error s b quiet performed =>
    have grown := Session.perform_grown quiet (d.handles i) ref o d.bench
    rw [performed] at grown
    exact ⟨numbersIn_subset grown, .nil, by simp⟩
  | changed changes => exact ⟨keepsRecords _ _ changes, .nil, by simp⟩
  | opened => exact ⟨List.Subset.refl _, .nil, by simp⟩

/-- If no record is removed, the numbers given over a run increase, whatever handles they went
to. -/
theorem Run.numbers (keeps : ∀ t u, change t u → t.Grounded dir.steps → u.Grounded dir.steps)
    (keepsRecords : ∀ t u, change t u → numbersIn dir t ⊆ numbersIn dir u)
    (h : Run dir change start log stop) (sound : Sound dir start) :
    (log.map (·.2.identifier)).Pairwise (· < ·) ∧
      ∀ entry ∈ log, entry.2.identifier ∈ numbersIn dir stop.bench.tree := by
  induction h with
  | start => exact ⟨.nil, by simp⟩
  | next run step ih =>
    obtain ⟨increasing, recorded⟩ := ih
    obtain ⟨kept, added, new⟩ := step.numbers keepsRecords (run.sound keeps sound)
    refine ⟨?_, ?_⟩
    · rw [List.map_append, List.pairwise_append]
      refine ⟨increasing, added, ?_⟩
      intro n hn m hm
      obtain ⟨old, hold, rfl⟩ := List.mem_map.mp hn
      obtain ⟨entry, hentry, rfl⟩ := List.mem_map.mp hm
      exact (new entry hentry).2 _ (recorded old hold)
    · intro entry member
      rcases List.mem_append.mp member with old | fresh
      · exact kept (recorded entry old)
      · exact (new entry fresh).1

end Desk

open Desk

/-- The numbers of requests: over a run, those that a handle executed increase, and if no record is
removed, all that were given increase. In each state reached, a request that succeeds advances the
session it was performed in, and if one more number would be too many, a request changes nothing and
ends with an error, which says so unless the request could not be made at all. -/
theorem identifiers_advance {ι σ : Type} [DecidableEq ι] {dir : Path} {change : Tree → Tree → Prop}
    {start stop : Desk ι σ} {log : List (ι × Executed)}
    (handles : ∀ i, (start.handles i).directory = some dir)
    (grounded : start.bench.tree.Grounded dir.steps)
    (keeps : ∀ t u, change t u → t.Grounded dir.steps → u.Grounded dir.steps)
    (run : Run dir change start log stop) :
    ((∀ i, Increasing (start.handles i)) → ∀ i, Increasing (stop.handles i)) ∧
      ((∀ t u, change t u → numbersIn dir t ⊆ numbersIn dir u) →
        (log.map (·.2.identifier)).Pairwise (· < ·)) ∧
      (∀ (transport : Transport σ) i ref o e s b, transport.OnlyDumps →
        Session.perform transport (stop.handles i) ref o stop.bench = (.ok e, s, b) →
        Advances (stop.handles i) stop.bench.tree e s b.tree dir) ∧
      (∀ (transport : Transport σ) i ref o n,
        (n ∈ numbersIn dir stop.bench.tree ∨ n ∈ (stop.handles i).executed.map (·.identifier)) →
        Text.bound32 ≤ n + 1 →
        ∃ error, Session.perform transport (stop.handles i) ref o stop.bench =
            (.error error, stop.handles i, stop.bench) ∧
          ∀ built, (stop.handles i).build stop.bench.tree ref o = .ok built →
            error = .invalidRequest (.identifiersExhausted (stop.handles i).name)) := by
  have sound := run.sound keeps ⟨handles, grounded⟩
  refine ⟨?_, ?_, ?_, ?_⟩
  · exact fun increasing => run.increasing keeps ⟨handles, grounded⟩ increasing
  · exact fun keepsRecords => (run.numbers keeps keepsRecords ⟨handles, grounded⟩).1
  · intro transport i ref o e s b quiet performed
    exact Session.advances_of_perform quiet (sound.directory i) sound.grounded performed
  · intro transport i ref o n given full
    have least : n ≤ (stop.handles i).highest stop.bench.tree := by
      rcases given with recorded | executed
      · obtain ⟨r, hr, rfl⟩ := List.mem_map.mp recorded
        rw [← Session.recorded_eq (sound.directory i)] at hr
        exact Session.le_highest_of_recorded hr
      · obtain ⟨x, hx, rfl⟩ := List.mem_map.mp executed
        exact Session.le_highest_of_executed hx
    exact Session.perform_of_exhausted transport ref o (by omega)

private def silent : Transport Unit := .replying (.ofStatus 200 "OK")

private theorem onlyDumps_silent : silent.OnlyDumps := Transport.onlyDumps_replying _

/-- A handle of the session in a directory that has executed nothing. -/
private def newHandle (dir : Path) : Session :=
  ⟨⟨⟨"/p"⟩, .standard⟩, "main", none, some dir, [], [], [], []⟩

private def anyAction : ActionRef := .inline [("url", .str "x")]

private theorem nextIdentifier_newHandle {dir : Path} {t : Tree}
    (h : t.directoriesOf (dir.join "requests") = []) :
    (newHandle dir).nextIdentifier t = .ok 1 :=
  Session.nextIdentifier_of_nothing (s := newHandle dir) rfl h rfl

private def mainPath : Path := ⟨"/p/sessions/main"⟩

/-- One handle in a project with nothing in it. -/
private def newDesk : Desk Unit Unit :=
  ⟨fun _ => newHandle mainPath, ⟨.directory [("p", .directory [])], (), []⟩⟩

/-- A handle performs a request; whatever happens to the files, the next one has a higher number. -/
theorem identifiers_advance_sample : ∃ (e : Executed) (stop : Desk Unit Unit),
    Run mainPath (fun _ _ => True) newDesk [((), e)] stop ∧ Increasing (stop.handles ()) ∧
      ∀ ref o e' s b, Session.perform silent (stop.handles ()) ref o stop.bench = (.ok e', s, b) →
        e.identifier < e'.identifier := by
  have first : (newHandle mainPath).nextIdentifier newDesk.bench.tree = .ok 1 :=
    nextIdentifier_newHandle (by decide +kernel)
  obtain ⟨e, s, b, performed⟩ : ∃ e s b, Session.perform silent (newHandle mainPath) anyAction .none
      newDesk.bench = (.ok e, s, b) := by
    refine Session.perform_eq_ok_of_isOk ?_
    unfold Session.perform Session.prepare
    rw [first]
    decide +kernel
  have handles : ∀ i, (newDesk.handles i).directory = some mainPath := fun _ => rfl
  have grounded : ∀ t : Tree, t.Grounded mainPath.steps :=
    fun t => Tree.grounded_of_descending t (by decide)
  have anything : ∀ t u : Tree, True → t.Grounded mainPath.steps → u.Grounded mainPath.steps :=
    fun _ u _ _ => grounded u
  have run : Run mainPath (fun _ _ => True) newDesk ([] ++ [((), e)])
      ⟨Function.update newDesk.handles () s, b⟩ :=
    .next .start (.succeeded onlyDumps_silent performed)
  obtain ⟨-, -, advances, -⟩ := identifiers_advance handles (grounded _) anything .start
  obtain ⟨increasing, -, next, -⟩ := identifiers_advance handles (grounded _) anything run
  have executed := (advances silent () anyAction .none e s b onlyDumps_silent performed).executed
  refine ⟨e, _, run, ?_, ?_⟩
  · exact increasing (fun _ => .nil) ()
  · intro ref o e' s' b' performed
    refine (next silent () ref o e' s' b' onlyDumps_silent performed).aboveExecuted e ?_
    dsimp only
    rw [Function.update_self, executed]
    simp

/-- A project with a session in a directory beside the one for sessions, which is missing. -/
private def besideTree : Tree :=
  .directory [("p", .directory [("b", .directory [("requests", .directory [
    ("7-x", .directory [])])])])]

private def besidePath : Path := ⟨"/p/sessions/../b"⟩

/-- On a path that climbs out of a directory that is not there, a record is not seen before the
first request, and is listed after it beside the new one. -/
theorem recorded_gains_two : ∃ (transport : Transport Unit) (s : Session) (ref : ActionRef)
    (o : BuildOptions) (b : Bench Unit) (e : Executed) (s' : Session) (b' : Bench Unit),
    transport.OnlyDumps ∧ s.directory.isSome = true ∧
      Session.perform transport s ref o b = (.ok e, s', b') ∧
      s.recorded b.tree = [] ∧ (s'.recorded b'.tree).length = 2 := by
  have nothing : besideTree.directoriesOf (besidePath.join "requests") = [] := by decide +kernel
  have first := nextIdentifier_newHandle nothing
  have outcome : (Session.perform silent (newHandle besidePath) anyAction .none
      ⟨besideTree, (), []⟩).1.isOk = true ∧
      (((Session.perform silent (newHandle besidePath) anyAction .none
        ⟨besideTree, (), []⟩).2.2.tree.directoriesOf (besidePath.join "requests")).filterMap
        (Recorded.ofDirectory? (besidePath.join "requests"))).length = 2 := by
    unfold Session.perform Session.prepare
    rw [first]
    decide +kernel
  have moved := Session.directory_perform silent (newHandle besidePath) anyAction .none
    ⟨besideTree, (), []⟩
  obtain ⟨e, s', b', performed⟩ := Session.perform_eq_ok_of_isOk outcome.1
  rw [performed] at outcome moved
  refine ⟨silent, newHandle besidePath, anyAction, .none, _, e, s', b', onlyDumps_silent, rfl,
    performed, ?_, ?_⟩
  · have place : (newHandle besidePath).directory = some besidePath := rfl
    simp [Session.recorded_eq place, recordsIn, nothing]
  · rw [Session.recorded_eq moved, recordsIn, List.length_mergeSort]
    exact outcome.2

end Runbook
