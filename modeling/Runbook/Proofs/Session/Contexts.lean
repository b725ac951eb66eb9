import Runbook.Proofs.Session.Layers

set_option autoImplicit false
set_option relaxedAutoImplicit false

/-!
Which context keeps a session from being opened. Of the explicit contexts each counts once, and the
first of them that is not there or cannot be loaded is the fault; a default context is none unless its
file is there and cannot be loaded. A session is saved after all contexts are loaded, so that one that
cannot be composed leaves the files alone.
-/

namespace Runbook

open Runbook.Files

variable {p : Project} {t : Tree} {name : String} {contexts : List String} {vars : Fields}
  {e : Error}

/-- A file that is not loaded cannot be read or is malformed. -/
theorem loadFields_eq_error {file : Path} (h : loadFields t file = .error e) :
    (∃ fault, e = .io fault) ∨ ∃ cause, e = .malformed file cause := by
  unfold loadFields at h
  split at h
  · next fault _ => exact .inl ⟨fault, (Except.error.inj h).symm⟩
  · split at h
    · cases h
    · split at h
      · exact .inr ⟨_, (Except.error.inj h).symm⟩
      · cases h
      · cases h
      · exact .inr ⟨_, (Except.error.inj h).symm⟩

theorem loadFields_ne_notFound {file : Path} {kind : Resource} :
    loadFields t file ≠ .error (.notFound kind name) := by
  intro h
  rcases loadFields_eq_error h with ⟨_, other⟩ | ⟨_, other⟩ <;> cases other

/-- What loading a file comes to depends on its text alone. -/
theorem loadFields_congr {other : Tree} {file : Path}
    (same : other.readText file = t.readText file) : loadFields other file = loadFields t file := by
  unfold loadFields
  rw [same]

namespace Project

/-- Whether the file of a context variant is there and holds variables. -/
def Loads (p : Project) (t : Tree) (context : String) : Prop :=
  t.isFile (p.variantFile context) = true ∧ ∃ vars, loadFields t (p.variantFile context) = .ok vars

/-- Whether a context is the first explicit one whose file is not there, all those before it having
been loaded. An entry of a context that was named before does not count. -/
def FirstMissing (p : Project) (t : Tree) (contexts : List String) (context : String) : Prop :=
  ∃ before after, leading contexts = before ++ context :: after ∧
    (∀ other ∈ before, p.Loads t other) ∧ t.isFile (p.variantFile context) = false

/-- Whether a file is there in both of two trees with the same text, or in neither. -/
def SameFile (t other : Tree) (file : Path) : Prop :=
  other.isFile file = t.isFile file ∧ (t.isFile file = true → other.readText file = t.readText file)

theorem contextVariables_eq_error : p.contextVariables t name = .error e ↔
    (t.isFile (p.variantFile name) = false ∧ e = .notFound .context name) ∨
      (t.isFile (p.variantFile name) = true ∧ loadFields t (p.variantFile name) = .error e) := by
  unfold contextVariables
  dsimp only
  by_cases there : t.isFile (p.variantFile name) = true
  · simp [there]
  · simp [there, eq_comm (b := e)]

theorem contextVariables_eq_notFound {kind : Resource} {context : String} :
    p.contextVariables t name = .error (.notFound kind context) ↔
      t.isFile (p.variantFile name) = false ∧ kind = .context ∧ context = name := by
  rw [contextVariables_eq_error]
  simp [loadFields_ne_notFound]

theorem exists_contextVariables : (∃ vars, p.contextVariables t name = .ok vars) ↔
    p.Loads t name := by
  unfold contextVariables Loads
  dsimp only
  by_cases there : t.isFile (p.variantFile name) = true <;> simp [there]

theorem variantVars_eq_error : p.variantVars t name = .error e ↔
    t.isFile (p.variantFile name) = true ∧ loadFields t (p.variantFile name) = .error e := by
  unfold variantVars
  dsimp only
  by_cases there : t.isFile (p.variantFile name) = true <;> simp [there]

theorem contextScope_eq_error : p.contextScope t name = .error e ↔
    p.contextVariables t name = .error e := by
  unfold contextScope
  cases p.contextVariables t name <;> simp [Except.map]

theorem exists_contextScope : (∃ scope, p.contextScope t name = .ok scope) ↔ p.Loads t name := by
  rw [← exists_contextVariables]
  unfold contextScope
  cases p.contextVariables t name <;> simp [Except.map]

/-- The contexts of a session are not composed if and only if an explicit one that counts is at
fault and all before it load, or all of them load and the file of a default one does not. -/
theorem composeContexts_eq_error : p.composeContexts t contexts = .error e ↔
    (∃ before context after, leading contexts = before ++ context :: after ∧
      (∀ other ∈ before, p.Loads t other) ∧ p.contextVariables t context = .error e) ∨
    (∀ context ∈ leading contexts, p.Loads t context) ∧
      ∃ before context after, p.remainingDefaults t contexts = before ++ context :: after ∧
        (∀ other ∈ before, ∃ vars, p.variantVars t other = .ok vars) ∧
        p.variantVars t context = .error e := by
  have passed : ∀ context, (∃ s, (do return Scope.node (← p.variantVars t context) [] :
      Except Error Scope) = .ok s) ↔ ∃ vars, p.variantVars t context = .ok vars := by
    intro context
    cases p.variantVars t context <;> simp [bind, Except.bind, pure, Except.pure]
  have refused : ∀ context, (do return Scope.node (← p.variantVars t context) [] :
      Except Error Scope) = .error e ↔ p.variantVars t context = .error e := by
    intro context
    cases p.variantVars t context <;> simp [bind, Except.bind, pure, Except.pure]
  unfold composeContexts
  rw [Layers.firstOfEach_eq_leading, Outcome.bind_eq_error, Outcome.mapM_eq_error]
  refine or_congr ?_ ?_
  · simp only [contextScope_eq_error, exists_contextScope]
  · constructor
    · rintro ⟨first, loaded, fault⟩
      have each := Outcome.exists_mapM_eq_ok.mp ⟨first, loaded⟩
      refine ⟨fun context member => exists_contextScope.mp (each context member), ?_⟩
      rcases Outcome.bind_eq_error.mp fault with walked | ⟨_, -, done⟩
      · obtain ⟨before, context, after, split, fine, fault⟩ := Outcome.mapM_eq_error.mp walked
        exact ⟨before, context, after, split,
          fun other member => (passed other).mp (fine other member), (refused context).mp fault⟩
      · cases done
    · rintro ⟨loads, before, context, after, split, fine, fault⟩
      obtain ⟨first, loaded⟩ := Outcome.exists_mapM_eq_ok.mpr fun context member =>
        exists_contextScope.mpr (loads context member)
      have walked := Outcome.mapM_eq_error.mpr ⟨before, context, after, split,
        fun other member => (passed other).mpr (fine other member), (refused context).mpr fault⟩
      exact ⟨first, loaded, Outcome.bind_eq_error.mpr (.inl walked)⟩

/-- The only thing that may be missing is an explicit context. -/
theorem composeContexts_eq_notFound {kind : Resource} {context : String} :
    p.composeContexts t contexts = .error (.notFound kind context) ↔
      kind = .context ∧ p.FirstMissing t contexts context := by
  have standing : ∀ other, p.variantVars t other ≠ .error (.notFound kind context) := by
    intro other h
    exact loadFields_ne_notFound (variantVars_eq_error.mp h).2
  rw [composeContexts_eq_error]
  constructor
  · rintro (⟨before, _, after, split, fine, fault⟩ | ⟨-, -, other, -, -, -, fault⟩)
    · obtain ⟨absent, rfl, rfl⟩ := contextVariables_eq_notFound.mp fault
      exact ⟨rfl, before, after, split, fine, absent⟩
    · exact absurd fault (standing other)
  · rintro ⟨rfl, before, after, split, fine, absent⟩
    exact .inl ⟨before, context, after, split, fine,
      contextVariables_eq_notFound.mpr ⟨absent, rfl, rfl⟩⟩

/-- What the contexts of a session come to depends on the files of the explicit contexts that count
and of the default contexts behind them, and on no others. -/
theorem composeContexts_congr {other : Tree} (listed : p.defaultContexts other = p.defaultContexts t)
    (same : ∀ context ∈ leading contexts ++ p.remainingDefaults t contexts,
      SameFile t other (p.variantFile context)) :
    p.composeContexts other contexts = p.composeContexts t contexts := by
  have loaded : ∀ context ∈ leading contexts ++ p.remainingDefaults t contexts,
      p.contextScope other context = p.contextScope t context ∧
        p.variantVars other context = p.variantVars t context := by
    intro context member
    obtain ⟨found, read⟩ := same context member
    unfold contextScope contextVariables variantVars
    dsimp only
    rw [found]
    by_cases there : t.isFile (p.variantFile context) = true
    · rw [if_pos there, if_pos there, if_pos there, if_pos there, loadFields_congr (read there)]
      exact ⟨rfl, rfl⟩
    · rw [if_neg there, if_neg there, if_neg there, if_neg there]
      exact ⟨rfl, rfl⟩
  have remaining : p.remainingDefaults other contexts = p.remainingDefaults t contexts := by
    unfold remainingDefaults
    rw [listed]
  have explicit : (leading contexts).mapM (p.contextScope other) =
      (leading contexts).mapM (p.contextScope t) :=
    Outcome.mapM_congr fun context member => (loaded context (List.mem_append_left _ member)).1
  unfold composeContexts
  rw [Layers.firstOfEach_eq_leading, explicit, remaining]
  refine bind_congr fun first => ?_
  rw [Outcome.mapM_congr fun context member => ?_]
  rw [(loaded context (List.mem_append_right _ member)).2]

end Project

namespace Session

theorem compose_eq_error : compose p t name contexts vars = .error e ↔
    p.composeContexts t contexts = .error e := by
  unfold compose
  cases p.composeContexts t contexts <;> simp [bind, Except.bind, pure, Except.pure]

theorem new_eq_error : Session.new p t name contexts vars = .error e ↔
    p.composeContexts t contexts = .error e := by
  rw [← @compose_eq_error p t name contexts vars e]
  unfold Session.new
  cases compose p t name contexts vars <;> simp [Except.map]

/-- Saving a session that was opened fails at the files alone. -/
theorem saved_eq_error {opened : Except Error Session} (config : ∀ fault, e ≠ .io fault) :
    (saved opened t).1 = .error e ↔ opened = .error e := by
  unfold saved
  cases opened with
  | error other => exact Iff.rfl
  | ok s =>
    dsimp only
    split
    · simp
    · next fault _ _ => simp [(config fault).symm]

/-- A session that was not opened is not saved. -/
theorem tree_saved_of_error {opened : Except Error Session} (h : opened = .error e) :
    (saved opened t).2 = t := by
  rw [h]
  rfl

end Session

/-- Nothing but an explicit context is ever said to be missing where a session is opened or created:
the first one of which the file is not there, if those before it load. A context that was named before
does not count, and its file is not read; a default context is at fault only if its file is there and
does not load. A creation that fails before it writes leaves all files as they are. -/
theorem opening_all_or_nothing (p : Project) (t : Tree) (contexts : List String) (vars : Fields) :
    (∀ kind context, p.composeContexts t contexts = .error (.notFound kind context) ↔
      kind = .context ∧ p.FirstMissing t contexts context) ∧
    (∀ kind context name title,
      (Session.unsaved p t contexts vars = .error (.notFound kind context) ↔
        kind = .context ∧ p.FirstMissing t contexts context) ∧
      ((Session.create p t name contexts vars).1 = .error (.notFound kind context) ↔
        kind = .context ∧ p.FirstMissing t contexts context) ∧
      ((Session.createTitled p t name title contexts vars).1 = .error (.notFound kind context) ↔
        kind = .context ∧ p.FirstMissing t contexts context)) ∧
    (∀ other, p.defaultContexts other = p.defaultContexts t →
      (∀ context ∈ leading contexts ++ p.remainingDefaults t contexts,
        Project.SameFile t other (p.variantFile context)) →
      p.composeContexts other contexts = p.composeContexts t contexts) ∧
    (∀ e, p.composeContexts t contexts = .error e →
      (∃ context ∈ leading contexts, p.contextVariables t context = .error e) ∨
        ∃ context ∈ p.remainingDefaults t contexts, t.isFile (p.variantFile context) = true ∧
          loadFields t (p.variantFile context) = .error e) ∧
    ∀ name title e, (∀ fault, e ≠ .io fault) →
      ((Session.create p t name contexts vars).1 = .error e →
        (Session.create p t name contexts vars).2 = t) ∧
      ((Session.createTitled p t name title contexts vars).1 = .error e →
        (Session.createTitled p t name title contexts vars).2 = t) := by
  have titled : ∀ name title e,
      ((Session.new p t name contexts vars).map fun s => { s with title := some title }) =
        .error e ↔ p.composeContexts t contexts = .error e := by
    intro name title e
    rw [← @Session.new_eq_error p t name contexts vars e]
    cases Session.new p t name contexts vars <;> simp [Except.map]
  refine ⟨?_, ?_, ?_, ?_, ?_⟩
  · intro kind context
    exact Project.composeContexts_eq_notFound
  · intro kind context name title
    have config : ∀ fault, Error.notFound kind context ≠ .io fault := by
      intro fault same
      cases same
    rw [← Project.composeContexts_eq_notFound]
    refine ⟨Session.compose_eq_error, ?_, ?_⟩
    · exact (Session.saved_eq_error config).trans Session.new_eq_error
    · exact (Session.saved_eq_error config).trans (titled name title _)
  · intro other listed same
    exact Project.composeContexts_congr listed same
  · intro e fault
    rcases Project.composeContexts_eq_error.mp fault with
      ⟨before, context, after, split, -, fault⟩ | ⟨-, before, context, after, split, -, fault⟩
    · exact .inl ⟨context, by simp [split], fault⟩
    · exact .inr ⟨context, by simp [split], Project.variantVars_eq_error.mp fault⟩
  · intro name title e config
    refine ⟨fun fault => ?_, fun fault => ?_⟩
    · exact Session.tree_saved_of_error ((Session.saved_eq_error config).mp fault)
    · exact Session.tree_saved_of_error ((Session.saved_eq_error config).mp fault)

/-- A project with one context, and with another variant of it that is no map. -/
private def shelfTree (variants : List (String × Node)) : Tree :=
  .directory [("p", .directory [("contexts", .directory [
    ("user", .directory (("default.yaml", .file (Text.encode "name: amelia\n")) :: variants))])])]

private def shelf : Project := ⟨⟨"/p"⟩, .standard⟩

/-- The second variant of a context is not looked for, and the first context that is missing is the
one that is reported; another file in the place of the second variant makes no difference. -/
theorem opening_all_or_nothing_sample :
    let contexts := ["user", "user/lost", "gone/x", "api"]
    let other := shelfTree [("lost.yaml", .file (Text.encode "- x"))]
    (Session.create shelf (shelfTree []) "main" contexts []).1 =
        .error (.notFound .context "gone/x") ∧
      (Session.create shelf (shelfTree []) "main" contexts []).2 = shelfTree [] ∧
      shelf.composeContexts other contexts = shelf.composeContexts (shelfTree []) contexts := by
  intro contexts other
  obtain ⟨-, refused, unread, -, unchanged⟩ :=
    opening_all_or_nothing shelf (shelfTree []) contexts []
  have loads : shelf.Loads (shelfTree []) "user" := by
    obtain ⟨vars, loaded⟩ : ∃ vars, loadFields (shelfTree []) (shelf.variantFile "user") = .ok vars :=
      Outcome.exists_of_isOk (by decide +kernel)
    exact ⟨by decide +kernel, vars, loaded⟩
  have missing : shelf.FirstMissing (shelfTree []) contexts "gone/x" :=
    ⟨["user"], ["api"], by decide +kernel, by simpa using loads, by decide +kernel⟩
  have failed := ((refused .context "gone/x" "main" "").2.1).mpr ⟨rfl, missing⟩
  refine ⟨failed, (unchanged "main" "" _ (by simp)).1 failed, unread other (by decide +kernel) ?_⟩
  have same : ∀ context ∈ ["user", "gone/x", "api"],
      (other.isFile (shelf.variantFile context) = (shelfTree []).isFile (shelf.variantFile context) ∧
        other.readText (shelf.variantFile context) =
          (shelfTree []).readText (shelf.variantFile context)) := by
    decide +kernel
  have read : leading contexts ++ shelf.remainingDefaults (shelfTree []) contexts =
      ["user", "gone/x", "api"] := by
    decide +kernel
  rw [read]
  exact fun context member => ⟨(same context member).1, fun _ => (same context member).2⟩

end Runbook
