import Runbook.Proofs.Files.Joining
import Runbook.Proofs.Files.Walking
import Runbook.Proofs.Outcome

set_option autoImplicit false
set_option relaxedAutoImplicit false

/-!
What the operations on a tree do to it. A write changes one file or nothing; making directories puts
directories where the first steps of the path lead, and if it succeeds the path leads to one.
-/

namespace Runbook.Files.Tree

open Runbook.Text (Bytes)
open Location (walk)

variable {t u : Tree} {p dir : Path} {name : String} {content : Bytes} {l : Location}

/-- The locations that the first steps of a path lead to. -/
def Passed (steps : List String) (l : Location) : Prop :=
  ∃ before, before <+: steps ∧ l = walk [] before

/-- The location of a file in a directory, if the steps of the directory can be taken. -/
def placeIn (dir : Path) (name : String) : Location := walk [] dir.steps ++ [name]

theorem enter_plain (plain : Plain name) (here : Location) :
    Location.enter here name = here ++ [name] := by
  simp [Location.enter, plain.goes, plain.descends]

theorem walk_steps_join (plain : Plain name) :
    walk [] (dir.join name).steps = placeIn dir name := by
  rw [Path.steps_join dir plain, Location.walk_append, Location.walk_singleton, enter_plain plain,
    placeIn]

/-- Where a plain name in a directory leads. -/
theorem locate_join_eq_ok (plain : Plain name) : t.locate (dir.join name) = .ok l ↔
    (dir.join name).Acceptable ∧ t.locateFrom [] dir.steps = .ok (walk [] dir.steps) ∧
      t.standing (walk [] dir.steps) = .directory ∧ IsShort name ∧ l = placeIn dir name := by
  unfold locate
  rw [locateSteps_eq_ok, Path.hasEndingSlash_join dir plain, Path.allSteps_join dir plain]
  simp only [Bool.false_eq_true, if_false, List.append_nil]
  rw [← locateFrom_filter, locateFrom_concat_eq_ok]
  constructor
  · rintro ⟨accepted, m, walked, inside, short, rfl⟩
    obtain rfl := eq_walk_of_locateFrom walked
    exact ⟨accepted, walked, inside, short, enter_plain plain _⟩
  · rintro ⟨accepted, walked, inside, short, rfl⟩
    exact ⟨accepted, _, walked, inside, short, (enter_plain plain _).symm⟩

/-- If something can be looked up in a directory, the directory is there. -/
theorem locate_of_locate_join (plain : Plain name) (h : t.locate (dir.join name) = .ok l) :
    t.locate dir = .ok (walk [] dir.steps) := by
  unfold locate at h ⊢
  rw [locateSteps_eq_ok, Path.hasEndingSlash_join dir plain, Path.allSteps_join dir plain] at h
  simp only [Bool.false_eq_true, if_false, List.append_nil] at h
  obtain ⟨accepted, h⟩ := h
  obtain ⟨m, walked, inside, -, -⟩ := locateFrom_concat_eq_ok.mp h
  have place : m = walk [] dir.steps := by
    rw [eq_walk_of_locateFrom walked, Path.steps, Location.walk_filter]
  subst place
  refine locateSteps_eq_ok.mpr ⟨accepted.of_join plain, ?_⟩
  split_ifs
  · exact locateFrom_concat_eq_ok.mpr ⟨_, walked, inside, .inl rfl, rfl⟩
  · rw [List.append_nil]
    exact walked

/-- A plain name keeps a path grounded. -/
theorem Grounded.concat {steps : List String} (plain : Plain name) (h : t.Grounded steps) :
    t.Grounded (steps ++ [name]) := by
  intro before hb
  rcases List.prefix_concat_iff.mp hb with whole | inner
  · exact absurd (List.append_inj' whole rfl).2 (by simpa using Ne.symm plain.descends)
  · exact h before inner

/-- What is listed is what is in the directory that a path leads to. -/
theorem directoriesOf_of_locate (h : t.locate p = .ok l) :
    t.directoriesOf p = t.directoriesAt l := by
  unfold directoriesOf entriesOf node? directoriesAt Node.directoryNames
  rw [h]
  rfl

theorem mem_directoriesOf :
    name ∈ t.directoriesOf p ↔ ∃ l, t.locate p = .ok l ∧ name ∈ t.directoriesAt l := by
  cases located : t.locate p with
  | error fault => simp [directoriesOf, entriesOf, node?, located, Except.toOption]
  | ok l => simp [directoriesOf_of_locate located]

/-- Where there is no directory, no directories are listed. -/
theorem directoriesAt_eq_nil (h : t.standing l ≠ .directory) : t.directoriesAt l = [] := by
  unfold directoriesAt
  cases there : t.at? l with
  | none => rfl
  | some node =>
    cases node with
    | file content => rfl
    | directory es => exact absurd (standing_eq_directory.mpr ⟨es, there⟩) h

/-- In a grounded directory, what is listed is what is there. -/
theorem directoriesOf_join (plain : Plain name) (grounded : t.Grounded dir.steps)
    (accepted : (dir.join name).Acceptable)
    (short : ∀ step ∈ dir.steps ++ [name], IsShort step) :
    t.directoriesOf (dir.join name) = t.directoriesAt (placeIn dir name) := by
  by_cases inside : t.standing (placeIn dir name) = .directory
  · have above : t.standing (walk [] dir.steps) = .directory := directory_above inside
    have walked := grounded.locateFrom (fun step hs => short step (List.mem_append_left _ hs)) above
    exact directoriesOf_of_locate ((locate_join_eq_ok plain).mpr
      ⟨accepted, walked, above, short name (by simp), rfl⟩)
  · have nothing : t.directoriesAt (placeIn dir name) = [] := directoriesAt_eq_nil inside
    rw [nothing]
    cases located : t.locate (dir.join name) with
    | error fault =>
      unfold directoriesOf entriesOf node?
      rw [located]
      rfl
    | ok l =>
      obtain ⟨-, -, -, -, rfl⟩ := (locate_join_eq_ok plain).mp located
      rw [directoriesOf_of_locate located, nothing]

theorem mem_of_child? {es : List (String × Node)} {node : Node}
    (h : Node.child? es name = some node) : (name, node) ∈ es := by
  induction es with
  | nil => simp [Node.child?] at h
  | cons e es ih =>
    obtain ⟨k, n⟩ := e
    by_cases same : k = name
    · subst same
      obtain rfl : n = node := by simpa [Node.child?] using h
      exact List.mem_cons_self
    · simp only [Node.child?, same, if_false] at h
      exact List.mem_cons_of_mem _ (ih h)

/-- A directory is among those of the directory that it is in. -/
theorem mem_directoriesAt (h : t.standing (l ++ [name]) = .directory) :
    name ∈ t.directoriesAt l := by
  obtain ⟨es, above⟩ := standing_eq_directory.mp (directory_above h)
  obtain ⟨below, there⟩ := standing_eq_directory.mp h
  rw [at?_append, above, Option.bind_some, Node.at?, Node.entries] at there
  obtain ⟨node, child, there⟩ := Option.bind_eq_some_iff.mp there
  obtain rfl : node = .directory below := by simpa [Node.at?] using there
  have member := mem_of_child? child
  rw [directoriesAt, above]
  simp only [Option.map_some, Option.getD_some, Node.entries, Node.directoryNames, List.mem_map,
    List.mem_filter]
  exact ⟨_, ⟨member, rfl⟩, rfl⟩

/-- Nothing is found where nothing stands. -/
theorem has_join_eq_false (plain : Plain name) (h : t.standing (placeIn dir name) = .nothing) :
    t.has (dir.join name) = false := by
  unfold has node?
  cases located : t.locate (dir.join name) with
  | error fault => rfl
  | ok l =>
    obtain ⟨-, -, -, -, rfl⟩ := (locate_join_eq_ok plain).mp located
    simp [Except.toOption, standing_eq_nothing.mp h]

theorem isDirectory_of_locate (h : t.locate p = .ok l) (inside : t.standing l = .directory) :
    t.isDirectory p = true := by
  obtain ⟨es, there⟩ := standing_eq_directory.mp inside
  simp [isDirectory, node?, h, there, Except.toOption, Node.isFile]

theorem locate_of_isDirectory (h : t.isDirectory p = true) :
    ∃ l, t.locate p = .ok l ∧ t.standing l = .directory := by
  unfold isDirectory node? at h
  cases located : t.locate p with
  | error fault => simp [located, Except.toOption] at h
  | ok l =>
    refine ⟨l, rfl, ?_⟩
    cases there : t.at? l with
    | none => simp [located, there, Except.toOption] at h
    | some node =>
      cases node with
      | file content => simp [located, there, Except.toOption, Node.isFile] at h
      | directory es => exact standing_eq_directory.mpr ⟨es, there⟩

private theorem locateFrom_of_locate (h : t.locate p = .ok l) :
    t.locateFrom [] p.allSteps = .ok l := by
  unfold locate at h
  obtain ⟨-, walked⟩ := locateSteps_eq_ok.mp h
  split_ifs at walked
  · obtain ⟨m, walked, -, -, rfl⟩ := locateFrom_concat_eq_ok.mp walked
    simpa [Location.enter] using walked
  · rwa [List.append_nil] at walked

/-- A plain name is found in a directory that is found, if it is not too long. -/
theorem locate_join (plain : Plain name) (short : IsShort name)
    (accepted : (dir.join name).Acceptable) (h : t.locate dir = .ok l)
    (inside : t.standing l = .directory) : t.locate (dir.join name) = .ok (l ++ [name]) := by
  unfold locate
  rw [locateSteps_eq_ok, Path.hasEndingSlash_join dir plain, Path.allSteps_join dir plain]
  simp only [Bool.false_eq_true, if_false, List.append_nil]
  exact ⟨accepted, locateFrom_concat_eq_ok.mpr
    ⟨l, locateFrom_of_locate h, inside, short, (enter_plain plain l).symm⟩⟩

/-- A path taken from a directory that is there is grounded. -/
theorem grounded_join_of_isDirectory (plain : Plain name) (short : IsShort name)
    (there : t.isDirectory dir = true) : t.Grounded (dir.join name).steps := by
  obtain ⟨l, located, inside⟩ := locate_of_isDirectory there
  have further := locateFrom_concat_eq_ok.mpr
    ⟨l, locateFrom_of_locate located, inside, short, rfl⟩
  rw [← locateFrom_filter] at further
  rw [Path.steps_join dir plain]
  exact grounded_of_locateFrom further

theorem locate_mono (stay : ∀ l, t.standing l = .directory → u.standing l = .directory)
    (h : t.locate p = .ok l) : u.locate p = .ok l := by
  unfold locate at h ⊢
  rw [locateSteps_eq_ok] at h ⊢
  exact ⟨h.1, locateFrom_mono stay h.2⟩

/-- A file can be read where its path leads. -/
theorem read_of_locate (h : t.locate p = .ok l) (file : t.standing l = .file content) :
    t.isFile p = true ∧ t.read p = .ok content := by
  have there := standing_eq_file.mp file
  refine ⟨?_, ?_⟩
  · simp [isFile, node?, h, there, Except.toOption, Node.isFile]
  · simp [read, h, there, bind, Except.bind, pure, Except.pure]

/-- What is read from a file is its content. -/
theorem toOption_read (t : Tree) (p : Path) :
    (t.read p).toOption = (t.locate p).toOption.bind t.contentAt? := by
  unfold read contentAt? standing
  cases t.locate p with
  | error fault => rfl
  | ok l =>
    simp only [bind, Except.bind, Except.toOption, Option.bind_some]
    cases t.at? l with
    | none => rfl
    | some node => cases node <;> rfl

/-- What was read can be read after a tree has grown without the file being written. -/
theorem Grown.read_eq_ok {directories files : Location → Prop}
    (h : Grown directories files t u) (kept : ∀ l, t.locate p = .ok l → ¬ files l)
    (before : t.read p = .ok content) : u.read p = .ok content := by
  have found := t.toOption_read p
  rw [before] at found
  obtain ⟨l, located, here⟩ := Option.bind_eq_some_iff.mp found.symm
  have located := Outcome.eq_ok_of_toOption located
  have still := locate_mono (fun l hl => h.standing_directory hl) located
  refine Outcome.eq_ok_of_toOption ?_
  rw [toOption_read, still]
  exact (h.contentAt?_eq (kept l located)).trans here

/-- In a directory that was there, the same is read after a tree has grown without the file being
written, and nothing if nothing was read. -/
theorem Grown.toOption_read_join {directories files : Location → Prop} (plain : Plain name)
    (h : Grown directories files t u) (grounded : t.Grounded dir.steps)
    (inside : t.standing (walk [] dir.steps) = .directory) (kept : ¬ files (placeIn dir name)) :
    (u.read (dir.join name)).toOption = (t.read (dir.join name)).toOption := by
  rw [toOption_read, toOption_read]
  cases located : t.locate (dir.join name) with
  | ok l =>
    obtain ⟨-, -, -, -, rfl⟩ := (locate_join_eq_ok plain).mp located
    have still := locate_mono (fun l hl => h.standing_directory hl) located
    rw [still]
    exact h.contentAt?_eq kept
  | error fault =>
    cases later : u.locate (dir.join name) with
    | error fault => rfl
    | ok l =>
      obtain ⟨accepted, walked, -, short, -⟩ := (locate_join_eq_ok plain).mp later
      have before := (locate_join_eq_ok plain).mpr
        ⟨accepted, grounded.locateFrom (isShort_of_locateFrom walked) inside, inside, short, rfl⟩
      cases located.symm.trans before

/-- A file can be written where nothing is. -/
theorem write_of_nothing (h : t.locate p = .ok l) (free : t.standing l = .nothing) :
    (t.write p content).1 = .ok () := by
  have empty := standing_eq_nothing.mp free
  unfold write
  simp only [h, empty]

/-- A write of a plain name in a directory fails and changes nothing, or puts the file there. -/
theorem write_join_cases (plain : Plain name) (t : Tree) (dir : Path) (content : Bytes) :
    (∃ fault, t.write (dir.join name) content = (.error fault, t)) ∨
      t.locate (dir.join name) = .ok (placeIn dir name) ∧
      t.standing (walk [] dir.steps) = .directory ∧ t.standing (placeIn dir name) ≠ .directory ∧
      t.write (dir.join name) content = (.ok (), t.put (placeIn dir name) (.file content)) := by
  unfold write
  cases located : t.locate (dir.join name) with
  | error fault => exact .inl ⟨fault, rfl⟩
  | ok l =>
    obtain ⟨-, -, inside, -, rfl⟩ := (locate_join_eq_ok plain).mp located
    by_cases taken : t.standing (placeIn dir name) = .directory
    · obtain ⟨es, there⟩ := standing_eq_directory.mp taken
      exact .inl ⟨.isADirectory, by simp [there]⟩
    · refine .inr ⟨rfl, inside, taken, ?_⟩
      cases there : t.at? (placeIn dir name) with
      | none => simp [there]
      | some node =>
        cases node with
        | file old => simp [there]
        | directory es => exact absurd (standing_eq_directory.mpr ⟨es, there⟩) taken

/-- A write that fails changes nothing, and any other content could not be written either. -/
theorem write_of_error {fault : Fault} (h : t.write p content = (.error fault, u)) :
    u = t ∧ ∀ other, t.write p other = (.error fault, t) := by
  unfold write at h ⊢
  cases located : t.locate p with
  | error unlocated =>
    simp only [located] at h
    obtain ⟨same, rfl⟩ := Prod.mk.inj h
    obtain rfl := Except.error.inj same
    exact ⟨rfl, fun _ => rfl⟩
  | ok l =>
    simp only [located] at h
    cases there : t.at? l with
    | none => simp [there] at h
    | some node =>
      cases node with
      | file old => simp [there] at h
      | directory es =>
        simp only [there, Prod.mk.injEq, Except.error.injEq] at h
        obtain ⟨rfl, rfl⟩ := h
        exact ⟨rfl, fun _ => by simp [there]⟩

/-- Only the file written changes. -/
theorem write_grown (plain : Plain name) (t : Tree) (dir : Path) (content : Bytes) :
    Grown (fun _ => False) (· = placeIn dir name) t (t.write (dir.join name) content).2 := by
  rcases write_join_cases plain t dir content with ⟨fault, failed⟩ | ⟨-, inside, free, done⟩
  · rw [failed]
    exact .refl
  · rw [done]
    exact .file content .refl inside free rfl

/-- What was written is read, and it is in a directory. -/
theorem read_of_write (plain : Plain name)
    (h : t.write (dir.join name) content = (.ok (), u)) :
    u.isDirectory dir = true ∧ u.isFile (dir.join name) = true ∧
      u.read (dir.join name) = .ok content := by
  rcases write_join_cases plain t dir content with ⟨fault, failed⟩ | ⟨located, inside, free, done⟩
  · simp [failed] at h
  have grown := write_grown plain t dir content
  rw [h] at grown
  obtain rfl : t.put (placeIn dir name) (.file content) = u := by
    simpa [done] using h
  have file : standing (t.put (placeIn dir name) (.file content)) (placeIn dir name) =
      .file content := by
    unfold placeIn at free ⊢
    rw [standing_put inside free rfl]
    simp [Node.standing]
  have stay := fun l hl => grown.standing_directory (l := l) hl
  have still := locate_mono stay located
  exact ⟨isDirectory_of_locate (locate_of_locate_join plain still) (stay _ inside),
    read_of_locate still file⟩

private theorem isDirectoryAt_eq_true {steps : List String} (accepted : p.Acceptable)
    (walked : t.locateFrom [] steps = .ok l) (inside : t.standing l = .directory) :
    t.isDirectoryAt p steps = true := by
  obtain ⟨es, there⟩ := standing_eq_directory.mp inside
  have located := locateSteps_eq_ok.mpr ⟨accepted, walked⟩
  simp [isDirectoryAt, located, there, Node.isFile]

private theorem of_isDirectoryAt {steps : List String} (h : t.isDirectoryAt p steps = true) :
    p.Acceptable ∧ t.locateFrom [] steps = .ok (walk [] steps) ∧
      t.standing (walk [] steps) = .directory := by
  unfold isDirectoryAt at h
  cases located : t.locateSteps p steps with
  | error fault => simp [located] at h
  | ok l =>
    obtain ⟨accepted, walked⟩ := locateSteps_eq_ok.mp located
    obtain rfl := eq_walk_of_locateFrom walked
    refine ⟨accepted, walked, ?_⟩
    cases there : t.at? (walk [] steps) with
    | none => simp [located, there] at h
    | some node =>
      cases node with
      | file content => simp [located, there, Node.isFile] at h
      | directory es => exact standing_eq_directory.mpr ⟨es, there⟩

/-- What ensuring a directory comes to: nothing changes, or the directory is there and is all that
may be new. -/
inductive Ensured (t : Tree) (p : Path) (steps : List String) : Change → Prop
  | failed (fault : Fault) : Ensured t p steps (.error fault, t)
  | done {u : Tree} :
      p.Acceptable → u.locateFrom [] steps = .ok (walk [] steps) →
      u.standing (walk [] steps) = .directory → Grown (· = walk [] steps) (fun _ => False) t u →
      Ensured t p steps (.ok (), u)

theorem ensureDirectory_ensured (t : Tree) (p : Path) (steps : List String) :
    Ensured t p steps (t.ensureDirectory p steps) := by
  have refused : ∀ fault, t.makeDirectory p steps = (.error fault, t) →
      Ensured t p steps (t.ensureDirectory p steps) := by
    intro fault failed
    unfold ensureDirectory
    rw [failed]
    by_cases there : t.isDirectoryAt p steps = true
    · obtain ⟨accepted, walked, inside⟩ := of_isDirectoryAt there
      simpa [there] using Ensured.done accepted walked inside .refl
    · simpa [there] using Ensured.failed fault
  cases located : t.locateSteps p steps with
  | error fault => exact refused fault (by simp [makeDirectory, located])
  | ok l =>
    cases there : t.at? l with
    | some node => exact refused .exists (by simp [makeDirectory, located, there])
    | none =>
      obtain ⟨accepted, walked⟩ := locateSteps_eq_ok.mp located
      have free := standing_eq_nothing.mpr there
      have below : l ≠ [] := by
        rintro rfl
        simp [Node.at?] at there
      obtain ⟨m, name, rfl, inside⟩ :=
        exists_inside_of_locateFrom walked (by simp [free]) below
      have place := eq_walk_of_locateFrom walked
      have grown : Grown (· = walk [] steps) (fun _ => False) t
          (t.put (m ++ [name]) (.directory [])) :=
        .directory .refl inside free place
      have made : standing (t.put (m ++ [name]) (.directory [])) (m ++ [name]) = .directory := by
        rw [standing_put inside (by simp [free]) rfl]
        simp [Node.standing]
      have done : t.ensureDirectory p steps = (.ok (), t.put (m ++ [name]) (.directory [])) := by
        simp [ensureDirectory, makeDirectory, located, there]
      rw [done]
      have still := locateFrom_mono (fun l hl => grown.standing_directory hl) walked
      rw [place] at still made
      rw [place]
      rw [place] at grown
      exact .done accepted still made grown

/-- What makes directories changes nothing but where their first steps lead. -/
theorem makeDirectoriesUp_grown (t : Tree) (p : Path) (up : List String) :
    Grown (Passed up.reverse) (fun _ => False) t (t.makeDirectoriesUp p up).2 := by
  induction up with
  | nil => exact .refl
  | cons step above ih =>
    have before : above.reverse <+: (step :: above).reverse := by
      rw [List.reverse_cons]
      exact List.prefix_append _ _
    have widened : Grown (Passed (step :: above).reverse) (fun _ => False) t
        (t.makeDirectoriesUp p above).2 := by
      refine ih.mono ?_ (fun _ => id)
      rintro l ⟨first, hfirst, rfl⟩
      exact ⟨first, hfirst.trans before, rfl⟩
    have here : ∀ {u v : Tree}, Grown (· = walk [] (step :: above).reverse) (fun _ => False) u v →
        Grown (Passed (step :: above).reverse) (fun _ => False) u v := by
      intro u v grown
      refine grown.mono ?_ (fun _ => id)
      rintro l rfl
      exact ⟨_, List.prefix_refl _, rfl⟩
    have last : ∀ u : Tree, Grown (Passed (step :: above).reverse) (fun _ => False) u
        (u.ensureDirectory p (step :: above).reverse).2 := by
      intro u
      cases ensured : u.ensureDirectory p (step :: above).reverse with
      | mk outcome v =>
        have known := ensureDirectory_ensured u p (step :: above).reverse
        rw [ensured] at known
        cases known with
        | failed fault => exact .refl
        | done _ _ _ grown => exact here grown
    rw [makeDirectoriesUp]
    split
    · unfold Change.andThen
      split
      · next made =>
        rw [made] at widened
        exact widened.trans (last _)
      · next made =>
        rw [made] at widened
        exact widened
    · exact last t

/-- Directories that were made are there. -/
theorem makeDirectoriesUp_eq_ok {step : String} {above : List String}
    (h : t.makeDirectoriesUp p (step :: above) = (.ok (), u)) :
    p.Acceptable ∧
      u.locateFrom [] (step :: above).reverse = .ok (walk [] (step :: above).reverse) ∧
      u.standing (walk [] (step :: above).reverse) = .directory := by
  have ensured : ∃ v : Tree, v.ensureDirectory p (step :: above).reverse = (.ok (), u) := by
    rw [makeDirectoriesUp] at h
    split at h
    · unfold Change.andThen at h
      split at h
      · exact ⟨_, h⟩
      · simp at h
    · exact ⟨t, h⟩
  obtain ⟨v, ensured⟩ := ensured
  have known := ensureDirectory_ensured v p (step :: above).reverse
  rw [ensured] at known
  cases known with
  | done accepted walked inside _ => exact ⟨accepted, walked, inside⟩

/-- Nothing is made where all the directories are. -/
theorem makeDirectoriesUp_eq_self {up : List String}
    (walked : t.locateFrom [] up.reverse = .ok l) (inside : t.standing l = .directory) (p : Path) :
    (t.makeDirectoriesUp p up).2 = t := by
  cases up with
  | nil => rfl
  | cons step above =>
    obtain ⟨es, there⟩ := standing_eq_directory.mp inside
    have outcome : t.ensureDirectory p (step :: above).reverse = (.ok (), t) ∨
        ∃ fault, fault ≠ .missing ∧
          t.ensureDirectory p (step :: above).reverse = (.error fault, t) := by
      by_cases accepted : p.Acceptable
      · have located := locateSteps_eq_ok.mpr ⟨accepted, walked⟩
        have isThere := isDirectoryAt_eq_true accepted walked inside
        exact .inl (by simp only [ensureDirectory, makeDirectory, located, there, isThere, if_true])
      · right
        by_cases noNul : Char.ofNat 0 ∉ p.text.toList
        · have long : maxPathLength < p.text.utf8ByteSize := by
            by_contra short
            exact accepted ⟨noNul, Nat.le_of_not_lt short⟩
          refine ⟨.nameTooLong, by decide, ?_⟩
          simp [ensureDirectory, makeDirectory, isDirectoryAt, locateSteps, noNul, long]
        · refine ⟨.nameWithNul, by decide, ?_⟩
          simp [ensureDirectory, makeDirectory, isDirectoryAt, locateSteps, not_not.mp noNul]
    rw [makeDirectoriesUp]
    rcases outcome with done | ⟨fault, other, failed⟩
    · rw [done]
    · rw [failed]
      split
      · next h =>
        simp only [Prod.mk.injEq, Except.error.injEq] at h
        exact absurd h.1 other
      · rfl

/-- On a grounded path, new directories are on the way to where the path leads. -/
theorem makeDirectories_grown (grounded : t.Grounded p.steps) :
    Grown (· <+: walk [] p.steps) (fun _ => False) t (t.makeDirectories p).2 := by
  have grown := makeDirectoriesUp_grown t p p.steps.reverse
  rw [List.reverse_reverse] at grown
  refine grown.fresh.mono ?_ (fun _ => id)
  rintro l ⟨⟨before, hb, rfl⟩, free⟩
  exact grounded.walk_prefix hb free

private theorem reverse_steps_join (plain : Plain name) :
    (dir.join name).steps.reverse = name :: dir.steps.reverse := by
  rw [Path.steps_join dir plain, List.reverse_append]
  rfl

/-- A directory that was made is where its path leads. -/
theorem makeDirectories_join_eq_ok (plain : Plain name)
    (h : t.makeDirectories (dir.join name) = (.ok (), u)) :
    (dir.join name).Acceptable ∧
      u.locateFrom [] (dir.steps ++ [name]) = .ok (placeIn dir name) ∧
      u.locate (dir.join name) = .ok (placeIn dir name) ∧
      u.standing (placeIn dir name) = .directory := by
  unfold makeDirectories at h
  rw [reverse_steps_join plain] at h
  obtain ⟨accepted, walked, inside⟩ := makeDirectoriesUp_eq_ok h
  rw [List.reverse_cons, List.reverse_reverse, ← Path.steps_join dir plain,
    walk_steps_join plain, Path.steps_join dir plain] at walked
  rw [List.reverse_cons, List.reverse_reverse, ← Path.steps_join dir plain,
    walk_steps_join plain] at inside
  obtain ⟨m, hm, above, short, -⟩ := locateFrom_concat_eq_ok.mp walked
  obtain rfl := eq_walk_of_locateFrom hm
  have located := (locate_join_eq_ok plain).mpr ⟨accepted, hm, above, short, rfl⟩
  exact ⟨accepted, walked, located, inside⟩

/-- Making the directories above a file changes nothing but where the first steps lead. -/
theorem makeParents_grown (plain : Plain name) (t : Tree) (dir : Path) :
    Grown (Passed dir.steps) (fun _ => False) t (t.makeParents (dir.join name)).2 := by
  have grown := makeDirectoriesUp_grown t (dir.join name).parent dir.steps.reverse
  unfold makeParents
  rw [reverse_steps_join plain, List.tail_cons]
  rwa [List.reverse_reverse] at grown

theorem makeParents_eq_self (plain : Plain name) (walked : t.locateFrom [] dir.steps = .ok l)
    (inside : t.standing l = .directory) : (t.makeParents (dir.join name)).2 = t := by
  unfold makeParents
  rw [reverse_steps_join plain, List.tail_cons]
  refine makeDirectoriesUp_eq_self ?_ inside _
  rwa [List.reverse_reverse]

/-- What saving a file comes to: it fails before the file is written, or all succeeds. -/
theorem save_cases (t : Tree) (p : Path) (content : Bytes) :
    (∃ fault, t.save p content = (.error fault, (t.makeParents p).2)) ∨
      t.save p content = (t.makeParents p).2.write p content := by
  unfold save Change.andThen
  split
  · next made => exact .inr (by rw [made])
  · next fault _ made => exact .inl ⟨fault, by rw [made]⟩

/-- A save changes nothing but the file and, above it, where the first steps lead. -/
theorem save_grown (plain : Plain name) (t : Tree) (dir : Path) (content : Bytes) :
    Grown (Passed dir.steps) (· = placeIn dir name) t (t.save (dir.join name) content).2 := by
  have parents : Grown (Passed dir.steps) (· = placeIn dir name) t
      (t.makeParents (dir.join name)).2 :=
    (makeParents_grown plain t dir).mono (fun _ => id) (fun _ => False.elim)
  rcases save_cases t (dir.join name) content with ⟨fault, failed⟩ | done
  · rw [failed]
    exact parents
  · rw [done]
    exact parents.trans ((write_grown plain _ dir content).mono (fun _ => False.elim) (fun _ => id))

/-- A save in a directory that is there changes nothing but the file. -/
theorem save_grown_in (plain : Plain name) (walked : t.locateFrom [] dir.steps = .ok l)
    (inside : t.standing l = .directory) (content : Bytes) :
    Grown (fun _ => False) (· = placeIn dir name) t (t.save (dir.join name) content).2 := by
  have same := makeParents_eq_self plain walked inside
  rcases save_cases t (dir.join name) content with ⟨fault, failed⟩ | done
  · rw [failed, same]
    exact .refl
  · rw [done, same]
    exact write_grown plain t dir content

/-- A save that fails has not written the file. -/
theorem save_grown_of_error {fault : Fault} (plain : Plain name)
    (h : t.save (dir.join name) content = (.error fault, u)) :
    Grown (Passed dir.steps) (fun _ => False) t u := by
  have parents := makeParents_grown plain t dir
  rcases save_cases t (dir.join name) content with ⟨fault, failed⟩ | done
  · rw [failed] at h
    obtain ⟨-, rfl⟩ := Prod.mk.inj h
    exact parents
  · rw [done] at h
    rcases write_join_cases plain (t.makeParents (dir.join name)).2 dir content with
      ⟨fault, failed⟩ | ⟨-, -, -, written⟩
    · rw [failed] at h
      obtain ⟨-, rfl⟩ := Prod.mk.inj h
      exact parents
    · rw [written] at h
      cases (Prod.mk.inj h).1

/-- What was saved is read, and it is in a directory. -/
theorem read_of_save (plain : Plain name)
    (h : t.save (dir.join name) content = (.ok (), u)) :
    u.isDirectory dir = true ∧ u.isFile (dir.join name) = true ∧
      u.read (dir.join name) = .ok content := by
  rcases save_cases t (dir.join name) content with ⟨fault, failed⟩ | done
  · rw [failed] at h
    cases (Prod.mk.inj h).1
  · rw [done] at h
    exact read_of_write plain h

end Runbook.Files.Tree
