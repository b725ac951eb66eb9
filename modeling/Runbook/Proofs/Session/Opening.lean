import Runbook.Proofs.Outcome
import Runbook.Session.Basic

set_option autoImplicit false
set_option relaxedAutoImplicit false

/-!
The ways of opening a session, and what they all come to: the explicit contexts and the variables
are kept as given, and the parents are the scopes that the project composes for the contexts.
-/

namespace Runbook

open Runbook.Files

/-- In a project without contexts nothing is composed for none. -/
theorem Project.composeContexts_of_none {p : Project} {t : Tree}
    (unset : p.settings.defaultContexts = none) (nothing : t.directoriesOf p.contextsPath = []) :
    p.composeContexts t [] = .ok [] := by
  have defaults : p.defaultContexts t = [] := by
    rw [defaultContexts, contextNames, unset, nothing, Option.getD_none, List.filter_nil, sortNames]
    exact List.mergeSort_nil
  unfold composeContexts remainingDefaults
  rw [defaults]
  rfl

namespace Session

/-- A session is opened over explicit contexts with variables of its own: unsaved, with a directory
that nothing is written to yet, saved at once with or without a title, or read from a directory; and
it may be given another title. -/
inductive Opened (p : Project) (t : Tree) : List String → Fields → Session → Prop
  | unsaved {contexts : List String} {vars : Fields} {s : Session} :
      Session.unsaved p t contexts vars = .ok s → Opened p t contexts vars s
  | new {contexts : List String} {vars : Fields} {s : Session} (name : String) :
      Session.new p t name contexts vars = .ok s → Opened p t contexts vars s
  | created {contexts : List String} {vars : Fields} {s : Session} (name : String) :
      (Session.create p t name contexts vars).1 = .ok s → Opened p t contexts vars s
  | titled {contexts : List String} {vars : Fields} {s : Session} (name title : String) :
      (Session.createTitled p t name title contexts vars).1 = .ok s → Opened p t contexts vars s
  | loaded {dir : Path} {f : SessionFile} {s : Session} :
      loadFile t dir = .ok f → Session.load p t dir = .ok s → Opened p t f.contexts f.vars s
  | retitled {contexts : List String} {vars : Fields} {s : Session} (title : String) :
      Opened p t contexts vars s → Opened p t contexts vars { s with title := some title }

/-- What a session that was just opened is made of. -/
structure Composed (p : Project) (t : Tree) (contexts : List String) (vars : Fields)
    (s : Session) : Prop where
  project : s.project = p
  contextNames : s.contextNames = contexts
  vars : s.vars = vars
  executed : s.executed = []
  parents : p.composeContexts t contexts = .ok s.parents

variable {p : Project} {t : Tree} {contexts : List String} {vars : Fields} {s : Session}

theorem compose_eq_ok {name : String} : compose p t name contexts vars = .ok s ↔
    ∃ parents, p.composeContexts t contexts = .ok parents ∧
      s = ⟨p, name, none, none, contexts, vars, parents, []⟩ := by
  unfold compose
  rw [Outcome.bind_eq_ok]
  simp only [pure, Except.pure, Except.ok.injEq, eq_comm]

theorem new_eq_ok {name : String} : Session.new p t name contexts vars = .ok s ↔
    ∃ parents, p.composeContexts t contexts = .ok parents ∧
      s = ⟨p, name, none, some (p.sessionPath name), contexts, vars, parents, []⟩ := by
  unfold Session.new
  rw [Outcome.map_eq_ok]
  constructor
  · rintro ⟨_, composed, rfl⟩
    obtain ⟨parents, hparents, rfl⟩ := compose_eq_ok.mp composed
    exact ⟨parents, hparents, rfl⟩
  · rintro ⟨parents, hparents, rfl⟩
    exact ⟨_, compose_eq_ok.mpr ⟨parents, hparents, rfl⟩, rfl⟩

/-- A session that is saved at once is the one that was opened. -/
theorem opened_of_saved {opened : Except Error Session}
    (h : (saved opened t).1 = .ok s) : opened = .ok s := by
  unfold saved at h
  split at h
  · exact absurd h (by simp)
  · split at h
    · exact h
    · exact absurd h (by simp)

theorem load_eq_ok {dir : Path} : load p t dir = .ok s ↔
    t.isDirectory dir = true ∧ ∃ f parents, loadFile t dir = .ok f ∧
      p.composeContexts t f.contexts = .ok parents ∧
      s = ⟨p, dir.fileName?.getD "", f.title, some dir, f.contexts, f.vars, parents, []⟩ := by
  unfold load
  by_cases there : t.isDirectory dir = true
  · simp only [there, if_true, Outcome.bind_eq_ok, true_and, pure, Except.pure, Except.ok.injEq]
    constructor
    · rintro ⟨f, hf, parents, hparents, rfl⟩
      exact ⟨f, parents, hf, hparents, rfl⟩
    · rintro ⟨f, parents, hf, hparents, rfl⟩
      exact ⟨f, hf, parents, hparents, rfl⟩
  · simp [there]

theorem Opened.composed (h : Opened p t contexts vars s) : Composed p t contexts vars s := by
  induction h with
  | unsaved h =>
    obtain ⟨parents, hparents, rfl⟩ := compose_eq_ok.mp h
    exact ⟨rfl, rfl, rfl, rfl, hparents⟩
  | new name h =>
    obtain ⟨parents, hparents, rfl⟩ := new_eq_ok.mp h
    exact ⟨rfl, rfl, rfl, rfl, hparents⟩
  | created name h =>
    obtain ⟨parents, hparents, rfl⟩ := new_eq_ok.mp (opened_of_saved h)
    exact ⟨rfl, rfl, rfl, rfl, hparents⟩
  | titled name title h =>
    obtain ⟨s, hs, rfl⟩ := Outcome.map_eq_ok.mp (opened_of_saved h)
    obtain ⟨parents, hparents, rfl⟩ := new_eq_ok.mp hs
    exact ⟨rfl, rfl, rfl, rfl, hparents⟩
  | loaded hfile h =>
    obtain ⟨-, f, parents, hf, hparents, rfl⟩ := load_eq_ok.mp h
    obtain rfl := Except.ok.inj (hf.symm.trans hfile)
    exact ⟨rfl, rfl, rfl, rfl, hparents⟩
  | retitled title _ ih => exact ⟨ih.project, ih.contextNames, ih.vars, ih.executed, ih.parents⟩

end Session

end Runbook
