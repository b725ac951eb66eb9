import Runbook.Proofs.Session.Course
import Runbook.Proofs.Session.Numbering
import Runbook.Proofs.Session.Opening
import Runbook.Proofs.Text.Utf8
import Runbook.Proofs.Yaml.Printing

set_option autoImplicit false
set_option relaxedAutoImplicit false

/-!
Sessions on disk. However a session was used since it was opened under a name, after each save and
each request that succeeds the session of that name is opened again as the one in memory, with the
same title, contexts and variables, and so the same value for every path.
-/

namespace Runbook

open Runbook.Files

/-- Whether the contexts of a session are the same in two trees: the files of the explicit ones and
of the default ones. -/
structure SameContexts (p : Project) (explicit : List String) (t u : Tree) : Prop where
  directories : u.directoriesOf p.contextsPath = t.directoriesOf p.contextsPath
  present : ∀ name, name ∈ explicit ∨ name ∈ p.defaultContexts t →
    u.isFile (p.variantFile name) = t.isFile (p.variantFile name)
  content : ∀ name, name ∈ explicit ∨ name ∈ p.defaultContexts t →
    u.readText (p.variantFile name) = t.readText (p.variantFile name)

namespace Session

/-- A session is opened under a name: new, with or without being saved at once, or from its
directory, and perhaps given a title. -/
inductive OpenedAs (p : Project) (t : Tree) (name : String) : Session → Prop
  | new {contexts : List String} {vars : Fields} {s : Session} :
      Session.new p t name contexts vars = .ok s → OpenedAs p t name s
  | created {contexts : List String} {vars : Fields} {s : Session} :
      (Session.create p t name contexts vars).1 = .ok s → OpenedAs p t name s
  | titled {title : String} {contexts : List String} {vars : Fields} {s : Session} :
      (Session.createTitled p t name title contexts vars).1 = .ok s → OpenedAs p t name s
  | loaded {s : Session} : Session.openNamed p t name = .ok s → OpenedAs p t name s
  | retitled {s : Session} (title : String) :
      OpenedAs p t name s → OpenedAs p t name { s with title := some title }

variable {σ : Type}

/-- One use of a session: variables are set, it is saved or performs a request or a flow,
successfully or not; or something else happens to what it works with. -/
inductive Use (s : Session) (b : Bench σ) : Session → Bench σ → Prop
  | set (name : String) (v : Value) : Use s b (s.set name v) b
  | merge (vars : Fields) : Use s b (s.merge vars) b
  | save {outcome : Except Fault Unit} {t : Tree} :
      s.save b.tree = (outcome, t) → Use s b s (b.withTree t)
  | perform {transport : Transport σ} {ref : ActionRef} {o : BuildOptions}
      {outcome : Except Error Executed} {s' : Session} {b' : Bench σ} :
      Session.perform transport s ref o b = (outcome, s', b') → Use s b s' b'
  | performFlow {transport : Transport σ} {flow : String} {outcome : Except Error FlowRun}
      {s' : Session} {b' : Bench σ} :
      Session.performFlow transport s flow b = (outcome, s', b') → Use s b s' b'
  | elsewhere (b' : Bench σ) : Use s b s b'

/-- Any number of uses of a session, one after the other. -/
inductive Uses (s : Session) (b : Bench σ) : Session → Bench σ → Prop
  | none : Uses s b s b
  | next {s' s'' : Session} {b' b'' : Bench σ} :
      Uses s b s' b' → Use s' b' s'' b'' → Uses s b s'' b''

/-- A session is saved or performs a request, by itself or as a step of a flow after those before
it, with success. -/
inductive Stored (s : Session) (b : Bench σ) : Session → Bench σ → Prop
  | save {t : Tree} : s.save b.tree = (.ok (), t) → Stored s b s (b.withTree t)
  | perform {transport : Transport σ} {ref : ActionRef} {o : BuildOptions} {e : Executed}
      {s' : Session} {b' : Bench σ} :
      Session.perform transport s ref o b = (.ok e, s', b') → Stored s b s' b'
  | flowStep {transport : Transport σ} {name : String} {flow : Flow} {before after : List ActionRef}
      {step : ActionRef} {outcome : Except Error (List Executed)} {e : Executed} {m s' : Session}
      {c b' : Bench σ} :
      s.project.flow b.tree name = .ok flow → flow.steps = before ++ step :: after →
      performSteps transport before s (b.note .info (flowText flow)) = (outcome, m, c) →
      Session.perform transport m step .none c = (.ok e, s', b') → Stored s b s' b'

/-- What stays of a session that was opened under a name: its place, and that its parents are the
contexts as they were. -/
structure Anchored (p : Project) (t : Tree) (name : String) (s : Session) : Prop where
  directory : s.directory = some (p.sessionPath name)
  parents : p.composeContexts t s.contextNames = .ok s.parents

variable {p : Project} {t u : Tree} {name : String} {s s' : Session} {b b' : Bench σ}

theorem OpenedAs.anchored (h : OpenedAs p t name s) : Anchored p t name s := by
  induction h with
  | new h =>
    obtain ⟨parents, hparents, rfl⟩ := new_eq_ok.mp h
    exact ⟨rfl, hparents⟩
  | created h =>
    obtain ⟨parents, hparents, rfl⟩ := new_eq_ok.mp (opened_of_saved h)
    exact ⟨rfl, hparents⟩
  | titled h =>
    obtain ⟨s, hs, rfl⟩ := Outcome.map_eq_ok.mp (opened_of_saved h)
    obtain ⟨parents, hparents, rfl⟩ := new_eq_ok.mp hs
    exact ⟨rfl, hparents⟩
  | loaded h =>
    obtain ⟨-, f, parents, -, hparents, rfl⟩ := load_eq_ok.mp h
    exact ⟨rfl, hparents⟩
  | retitled title _ ih => exact ⟨ih.directory, ih.parents⟩

private theorem anchored_takeOutputs (h : Anchored p t name s) (fields : Fields) (r : Response) :
    Anchored p t name (s.takeOutputs fields r) := by
  rw [takeOutputs_eq]
  exact ⟨h.directory, h.parents⟩

private theorem anchored_perform (h : Anchored p t name s) (transport : Transport σ)
    (ref : ActionRef) (o : BuildOptions) (b : Bench σ) :
    Anchored p t name (perform transport s ref o b).2.1 := by
  have course := perform_course transport s ref o b
  generalize Session.perform transport s ref o b = outcome at course ⊢
  cases course with
  | unprepared => exact h
  | unrecorded => exact h
  | unanswered => exact h
  | unsaved => exact anchored_takeOutputs h _ _
  | @done p _ _ r =>
    have taken := anchored_takeOutputs h p.built.fields r
    exact ⟨taken.directory, taken.parents⟩

private theorem anchored_performSteps (transport : Transport σ) (steps : List ActionRef) :
    ∀ {s : Session} (b : Bench σ), Anchored p t name s →
      Anchored p t name (performSteps transport steps s b).2.1 := by
  induction steps with
  | nil => exact fun _ h => h
  | cons step rest ih =>
    intro s b h
    have first := anchored_perform h transport step .none b
    unfold performSteps
    generalize Session.perform transport s step .none b = outcome at first ⊢
    obtain ⟨r, s', b'⟩ := outcome
    cases r with
    | error e => exact first
    | ok executed =>
      have others := ih b' first
      dsimp only at others ⊢
      generalize performSteps transport rest s' b' = outcome at others ⊢
      obtain ⟨r, s'', b''⟩ := outcome
      cases r <;> exact others

private theorem anchored_performFlow (h : Anchored p t name s) (transport : Transport σ)
    (flow : String) (b : Bench σ) : Anchored p t name (performFlow transport s flow b).2.1 := by
  unfold performFlow
  cases s.project.flow b.tree flow with
  | error e => exact h
  | ok f =>
    have steps := anchored_performSteps transport f.steps (b.note .info (flowText f)) h
    dsimp only
    generalize performSteps transport f.steps s (b.note .info (flowText f)) = outcome at steps ⊢
    obtain ⟨r, s', b'⟩ := outcome
    cases r <;> exact steps

theorem Use.anchored (h : Use s b s' b') (before : Anchored p t name s) : Anchored p t name s' := by
  cases h with
  | set => exact ⟨before.directory, before.parents⟩
  | merge => exact ⟨before.directory, before.parents⟩
  | save => exact before
  | @perform transport ref o outcome _ _ h =>
    have after := anchored_perform before transport ref o b
    rwa [h] at after
  | @performFlow transport flow outcome _ _ h =>
    have after := anchored_performFlow before transport flow b
    rwa [h] at after
  | elsewhere => exact before

theorem Uses.anchored (h : Uses s b s' b') (before : Anchored p t name s) :
    Anchored p t name s' := by
  induction h with
  | none => exact before
  | next _ use ih => exact use.anchored ih

/-- What was stored last is the session as it is now. -/
theorem Stored.saved (h : Stored s b s' b') : ∃ t, s'.save t = (.ok (), b'.tree) := by
  cases h with
  | save saved => exact ⟨_, saved⟩
  | perform performed => exact saved_of_perform performed
  | flowStep _ _ _ performed => exact saved_of_perform performed

theorem Stored.anchored (h : Stored s b s' b') (before : Anchored p t name s) :
    Anchored p t name s' := by
  cases h with
  | save => exact before
  | perform performed => exact (Use.perform performed).anchored before
  | @flowStep transport _ flow first _ _ _ _ _ _ _ _ _ _ begun performed =>
    have middle := anchored_performSteps transport first (b.note .info (flowText flow)) before
    rw [begun] at middle
    exact (Use.perform performed).anchored middle

/-- The same contexts make the same parents. -/
theorem composeContexts_eq {explicit : List String} (same : SameContexts p explicit t u) :
    p.composeContexts u explicit = p.composeContexts t explicit := by
  have defaults : p.defaultContexts u = p.defaultContexts t := by
    unfold Project.defaultContexts Project.contextNames
    rw [same.directories]
  have leading : ∀ names : List String, Project.firstOfEach names ⊆ names := by
    intro names
    induction names with
    | nil => exact List.Subset.refl _
    | cons name rest ih =>
      rw [Project.firstOfEach]
      exact List.cons_subset_cons _ fun other member => ih (List.mem_of_mem_filter member)
  have fields : ∀ name, name ∈ explicit ∨ name ∈ p.defaultContexts t →
      loadFields u (p.variantFile name) = loadFields t (p.variantFile name) := by
    intro name given
    unfold loadFields
    rw [same.content name given]
  have remaining : p.remainingDefaults u explicit = p.remainingDefaults t explicit := by
    unfold Project.remainingDefaults
    rw [defaults]
  have front : (Project.firstOfEach explicit).mapM (p.contextScope u) =
      (Project.firstOfEach explicit).mapM (p.contextScope t) := by
    refine Outcome.mapM_congr fun name member => ?_
    have given := Or.inl (b := name ∈ p.defaultContexts t) (leading explicit member)
    unfold Project.contextScope Project.contextVariables
    dsimp only
    rw [same.present name given, fields name given]
  have behind : ((p.remainingDefaults t explicit).mapM fun name => do
        return Scope.node (← p.variantVars u name) [] : Except Error (List Scope)) =
      (p.remainingDefaults t explicit).mapM fun name => do
        return Scope.node (← p.variantVars t name) [] := by
    refine Outcome.mapM_congr fun name member => ?_
    have given := Or.inr (a := name ∈ explicit) (List.mem_of_mem_filter member)
    unfold Project.variantVars
    dsimp only
    rw [same.present name given, fields name given]
  unfold Project.composeContexts
  rw [remaining, front, behind]

end Session

/-- A session file is read back from its value. -/
theorem SessionFile.ofFields?_toValue (f : SessionFile) :
    ofFields? f.toValue.fields = some f := by
  have texts : ∀ contexts : List String, Record.texts? (.texts contexts) = some contexts :=
    Outcome.mapM_map_eq_some fun _ => rfl
  obtain ⟨title, contexts, vars⟩ := f
  cases title with
  | none =>
    simp [ofFields?, toValue, Value.fields, Record.declared?, Record.default?, texts, Value.asMap?]
  | some title =>
    simp [ofFields?, toValue, Value.fields, Record.declared?, Record.default?, Record.nullable?,
      texts, Value.asMap?, Value.asText?]

namespace Session

variable {σ : Type} {p : Project} {t u : Tree} {s : Session} {b b' : Bench σ} {dir : Path}

/-- What was saved is what the session file holds, if the text of its value is read as that
value. -/
theorem loadFile_of_save (place : s.directory = some dir) (saved : s.save t = (.ok (), u))
    (reads : Yaml.read? (Yaml.print s.file.toValue) = some s.file.toValue) :
    u.isDirectory dir = true ∧ loadFile u dir = .ok s.file := by
  unfold save at saved
  rw [place] at saved
  obtain ⟨inside, present, content⟩ := Tree.read_of_save (by decide : Plain fileName) saved
  have text : u.readText (dir.join fileName) = .ok (Yaml.print s.file.toValue) := by
    unfold Tree.readText
    rw [content]
    dsimp only [bind, Except.bind]
    rw [Text.decode?_encode]
    rfl
  obtain ⟨members, members_eq⟩ : ∃ members, s.file.toValue = .map members := ⟨_, rfl⟩
  have notBlank : Text.isAllBlank (Yaml.print s.file.toValue) = false := by
    unfold SessionFile.toValue
    cases s.file.title with
    | none => exact Yaml.isAllBlank_print_map _ _ _
    | some title => exact Yaml.isAllBlank_print_map _ _ _
  have fields : loadFields u (dir.join fileName) = .ok members := by
    unfold loadFields
    rw [text]
    dsimp only
    rw [notBlank, reads, members_eq]
    rfl
  have file : SessionFile.ofFields? members = some s.file := by
    have back := SessionFile.ofFields?_toValue s.file
    rwa [members_eq] at back
  refine ⟨inside, ?_⟩
  unfold loadFile
  dsimp only
  rw [if_pos present, fields]
  dsimp only [bind, Except.bind]
  rw [file]
  rfl

end Session

open Session

/-- However a session was used since it was opened under a name, after it is saved or performs a
request with success, it is opened again under that name: with its title, contexts, variables and
place, without executed requests, and with the same value for every path. Of the YAML text of its
file it is assumed that it is read as the value it was printed from. -/
theorem reopened_eq_stored {σ : Type} {p : Project} {opened : Tree} {name : String}
    {s₀ s s' : Session} {b₀ b b' : Bench σ} (as : OpenedAs p opened name s₀)
    (uses : Uses s₀ b₀ s b) (stored : Stored s b s' b')
    (same : SameContexts p s'.contextNames opened b'.tree)
    (reads : Yaml.read? (Yaml.print s'.file.toValue) = some s'.file.toValue) :
    ∃ r, openNamed p b'.tree name = .ok r ∧ r.title = s'.title ∧
      r.contextNames = s'.contextNames ∧ r.vars = s'.vars ∧ r.directory = s'.directory ∧
      r.executed = [] ∧ ∀ path, r.scope.evaluate path = s'.scope.evaluate path := by
  have anchored := stored.anchored (uses.anchored as.anchored)
  obtain ⟨t, saved⟩ := stored.saved
  obtain ⟨inside, file⟩ := loadFile_of_save anchored.directory saved reads
  have parents : p.composeContexts b'.tree s'.file.contexts = .ok s'.parents :=
    (composeContexts_eq same).trans anchored.parents
  have loaded := load_eq_ok.mpr ⟨inside, s'.file, s'.parents, file, parents, rfl⟩
  refine ⟨_, loaded, rfl, rfl, rfl, anchored.directory.symm, rfl, ?_⟩
  intro path
  rfl

/-- A project with one context. -/
private def userProject : Project :=
  ⟨⟨"/p"⟩, { Settings.standard with defaultContexts := some ["user"] }⟩

private def userTree : Tree :=
  .directory [("p", .directory [("contexts", .directory [("user", .directory [
    ("default.yaml", .file (Text.encode "name: amelia\n"))])])])]

private def titledSession : Session :=
  ⟨userProject, "main", some "Main", some ⟨"/p/sessions/main"⟩, ["user"], [("kept", .str "1")],
    [.node [("name", .str "amelia")] []], []⟩

private def tokenAnswer : Response :=
  ⟨200, "OK", "HTTP/1.1", [("Content-Type", "application/json")],
    Text.encode "\x7b\"token\": \"5\"\x7d"⟩

private def takingToken : ActionRef :=
  .inline [("url", .str "x"), ("outputs", .map [("token", .str "\x7b\x7btoken\x7d\x7d")])]

private theorem openedAs_titledSession : OpenedAs userProject userTree "main" titledSession := by
  have fields : userProject.contextVariables userTree "user" = .ok [("name", .str "amelia")] :=
    Outcome.eq_ok_of_toOption (by decide +kernel)
  have explicit : Project.firstOfEach ["user"] = ["user"] := by decide +kernel
  have defaults : userProject.remainingDefaults userTree ["user"] = [] := by decide +kernel
  have parents : userProject.composeContexts userTree ["user"] =
      .ok [.node [("name", .str "amelia")] []] := by
    unfold Project.composeContexts
    rw [explicit, defaults]
    simp [Project.contextScope, fields, Except.map, bind, Except.bind, pure, Except.pure]
  have path : userProject.sessionPath "main" = ⟨"/p/sessions/main"⟩ := by decide +kernel
  have untitled : Session.new userProject userTree "main" ["user"] [("kept", .str "1")] =
      .ok { titledSession with title := none } :=
    new_eq_ok.mpr ⟨_, parents, by rw [path]; rfl⟩
  exact .retitled "Main" (.new untitled)

/-- What is looked at of the outcome of a request. -/
private def seen (course : Except Error Executed × Session × Bench Unit) :
    Bool × SessionFile × Value × List String × Bool × Option String :=
  (course.1.isOk, course.2.1.file, course.2.1.scope.evaluate "name",
    course.2.2.tree.directoriesOf userProject.contextsPath,
    course.2.2.tree.isFile (userProject.variantFile "user"),
    (course.2.2.tree.readText (userProject.variantFile "user")).toOption)

private theorem seen_perform :
    seen (Session.perform (.replying tokenAnswer) (titledSession.set "page" (.str "2")) takingToken
      .none ⟨userTree, (), []⟩) =
      (true, ⟨some "Main", ["user"],
        [("kept", .str "1"), ("page", .str "2"), ("token", .str "5")]⟩, .str "amelia", ["user"],
        true, some "name: amelia\n") := by
  have names : Tree.directoriesOf userTree (Path.join ⟨"/p/sessions/main"⟩ "requests") = [] := by
    decide +kernel
  have place : (titledSession.set "page" (.str "2")).directory = some ⟨"/p/sessions/main"⟩ := rfl
  have first := nextIdentifier_of_nothing place names rfl
  unfold Session.perform prepare
  rw [first]
  decide +kernel

theorem reopened_eq_stored_sample : ∃ (used stored : Session) (b : Bench Unit) (r : Session),
    used = titledSession.set "page" (.str "2") ∧
      (∃ e, Session.perform (.replying tokenAnswer) used takingToken .none ⟨userTree, (), []⟩ =
        (.ok e, stored, b)) ∧
      openNamed userProject b.tree "main" = .ok r ∧ r.title = some "Main" ∧
      r.vars = [("kept", .str "1"), ("page", .str "2"), ("token", .str "5")] ∧ r.executed = [] ∧
      r.scope.evaluate "name" = .str "amelia" := by
  have outcome := seen_perform
  generalize performed : Session.perform (.replying tokenAnswer)
    (titledSession.set "page" (.str "2")) takingToken .none ⟨userTree, (), []⟩ = course at outcome
  obtain ⟨answer, stored, b⟩ := course
  simp only [seen, Prod.mk.injEq] at outcome
  obtain ⟨isOk, file, value, directories, present, content⟩ := outcome
  obtain ⟨e, rfl⟩ := Outcome.exists_of_isOk isOk
  obtain ⟨title, contexts, vars⟩ := SessionFile.mk.inj file
  have uses : Uses titledSession ⟨userTree, (), []⟩ (titledSession.set "page" (.str "2"))
      ⟨userTree, (), []⟩ :=
    .next .none (.set "page" (.str "2"))
  have same : SameContexts userProject stored.contextNames userTree b.tree := by
    have only : ∀ name, name ∈ stored.contextNames ∨ name ∈ userProject.defaultContexts userTree →
        name = "user" := by
      intro name given
      rw [contexts] at given
      simpa [Project.defaultContexts, userProject] using given
    refine ⟨directories.trans (by decide +kernel), ?_, ?_⟩
    · intro name given
      rw [only name given, present]
      decide +kernel
    · intro name given
      have before : userTree.readText (userProject.variantFile "user") = .ok "name: amelia\n" :=
        Outcome.eq_ok_of_toOption (by decide +kernel)
      rw [only name given, Outcome.eq_ok_of_toOption content, before]
  have reads : Yaml.read? (Yaml.print stored.file.toValue) = some stored.file.toValue := by
    rw [file]
    decide +kernel
  obtain ⟨r, loaded, title', -, vars', -, executed, evaluates⟩ :=
    reopened_eq_stored openedAs_titledSession uses (.perform performed) same reads
  exact ⟨_, stored, b, r, rfl, ⟨e, performed⟩, loaded, title'.trans title, vars'.trans vars,
    executed, (evaluates "name").trans value⟩

end Runbook
