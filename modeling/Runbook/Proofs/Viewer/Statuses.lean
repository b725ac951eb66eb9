import Runbook.Proofs.Session.Contexts
import Runbook.Proofs.Viewer.Agreement

set_option autoImplicit false
set_option relaxedAutoImplicit false

/-!
The statuses of the viewer. Nothing but a name or an identifier that is not listed, a path that
cannot be looked up and a context that is missing makes an answer with 404: a session with any other
fault is answered with 500. An unknown name is thus not told apart from a session of which a context
was deleted.
-/

namespace Runbook

open Runbook.Files

namespace Viewer

variable {p : Project} {t : Tree} {name : String}

/-- The status of an answer. -/
def statusOf : Except Refusal Page → Nat
  | .ok _ => 200
  | .error r => r.status

/-- When a status says that something is unknown, that there is a fault, or what was asked for. -/
structure Tells (status : Nat) (unknown faulty shown : Prop) : Prop where
  unknown : status = 404 ↔ unknown
  faulty : status = 500 ↔ faulty
  shown : status = 200 ↔ shown

/-- Whether names of contexts have one whose file is not there, before any with another fault. -/
def Misses (p : Project) (t : Tree) (names : List String) : Prop :=
  ∃ before missing after, Project.firstOfEach names = before ++ missing :: after ∧
    (∀ context ∈ before, ∃ vars, p.contextVariables t context = .ok vars) ∧
    t.isFile (p.variantFile missing) = false

/-- Whether the file of a session is fine and misses a context. -/
def MissesContext (p : Project) (t : Tree) (name : String) : Prop :=
  ∃ f, Session.loadFile t (p.sessionPath name) = .ok f ∧ Misses p t f.contexts

/-- Whether the directory of a session can be looked up: its path and its name are not too long. -/
def Reachable (p : Project) (name : String) : Prop :=
  (p.sessionPath name).Acceptable ∧ IsShort name

/-- Whether nothing is found where a listed session is opened. -/
def Unfound (p : Project) (t : Tree) (name : String) : Prop :=
  ¬ Reachable p name ∨ MissesContext p t name

theorem isDirectory_sessionPath (plain : Plain name) (there : IsSession p t name) :
    t.isDirectory (p.sessionPath name) = true ↔ Reachable p name := by
  obtain ⟨l, located, inside⟩ := there
  have sessions : Plain "sessions" := by decide
  constructor
  · intro h
    obtain ⟨l, found, -⟩ := Tree.locate_of_isDirectory h
    obtain ⟨accepted, -, -, short, -⟩ := (Tree.locate_join_eq_ok plain).mp found
    exact ⟨accepted, short⟩
  · rintro ⟨accepted, short⟩
    obtain ⟨-, walked, above, brief, rfl⟩ := (Tree.locate_join_eq_ok sessions).mp located
    have place : Location.walk [] p.sessionsPath.steps = Tree.placeIn p.root "sessions" :=
      Tree.walk_steps_join sessions
    have found : t.locate (p.sessionPath name) = .ok (Tree.placeIn p.sessionsPath name) := by
      refine (Tree.locate_join_eq_ok plain).mpr ⟨accepted, ?_, ?_, short, rfl⟩
      · rw [place, Project.sessionsPath, Path.steps_join p.root sessions]
        exact Tree.locateFrom_concat_eq_ok.mpr
          ⟨_, walked, above, brief, (Tree.enter_plain sessions _).symm⟩
      · rw [place]
        exact Tree.directory_above inside
    refine Tree.isDirectory_of_locate found ?_
    rw [Tree.placeIn, place]
    exact inside

theorem failed_of_loadFields {file : Path} {e : Error} (h : loadFields t file = .error e) :
    Refusal.ofError e = .failed := by
  rcases loadFields_eq_error h with ⟨_, rfl⟩ | ⟨_, rfl⟩ <;> rfl

theorem failed_of_loadFile {dir : Path} {e : Error} (h : Session.loadFile t dir = .error e) :
    Refusal.ofError e = .failed := by
  unfold Session.loadFile at h
  dsimp only at h
  split_ifs at h with there
  rcases Outcome.bind_eq_error.mp h with unread | ⟨fields, -, refused⟩
  · exact failed_of_loadFields unread
  · split at refused
    · cases refused
    · rw [← Except.error.inj refused]
      rfl

theorem ofError_eq_notFound {e : Error} :
    Refusal.ofError e = .notFound ↔ ∃ kind name, e = .notFound kind name := by
  cases e <;> simp [Refusal.ofError]

theorem misses_iff {names : List String} :
    Misses p t names ↔ ∃ context, p.FirstMissing t names context := by
  unfold Misses Project.FirstMissing
  simp only [Layers.firstOfEach_eq_leading, Project.exists_contextVariables]
  rw [exists_comm]

theorem composeContexts_notFound {names : List String} :
    (∃ e, p.composeContexts t names = .error e ∧ Refusal.ofError e = .notFound) ↔
      Misses p t names := by
  rw [misses_iff]
  constructor
  · rintro ⟨e, refused, unfound⟩
    obtain ⟨kind, context, rfl⟩ := ofError_eq_notFound.mp unfound
    exact ⟨context, (Project.composeContexts_eq_notFound.mp refused).2⟩
  · rintro ⟨context, missing⟩
    exact ⟨_, Project.composeContexts_eq_notFound.mpr ⟨rfl, missing⟩, rfl⟩

/-- Opening a session finds nothing if and only if its directory cannot be looked up or it misses a
context. -/
theorem openNamed_notFound :
    (∃ e, Session.openNamed p t name = .error e ∧ Refusal.ofError e = .notFound) ↔
      t.isDirectory (p.sessionPath name) = false ∨ MissesContext p t name := by
  unfold Session.openNamed Session.load
  by_cases there : t.isDirectory (p.sessionPath name) = true
  · simp only [there, if_true, Bool.true_eq_false, false_or]
    constructor
    · rintro ⟨e, refused, unfound⟩
      rcases Outcome.bind_eq_error.mp refused with unread | ⟨f, read, refused⟩
      · rw [failed_of_loadFile unread] at unfound
        cases unfound
      · rcases Outcome.bind_eq_error.mp refused with uncomposed | ⟨_, -, done⟩
        · exact ⟨f, read, composeContexts_notFound.mp ⟨e, uncomposed, unfound⟩⟩
        · cases done
    · rintro ⟨f, read, misses⟩
      obtain ⟨e, uncomposed, unfound⟩ := composeContexts_notFound.mpr misses
      refine ⟨e, Outcome.bind_eq_error.mpr (.inr ⟨f, read, ?_⟩), unfound⟩
      exact Outcome.bind_eq_error.mpr (.inl uncomposed)
  · rw [Bool.not_eq_true] at there
    simp [there, Refusal.ofError]

theorem unfound_iff (proper : t.isProper = true) (listed : name ∈ p.sessionNames t) :
    Unfound p t name ↔
      ∃ e, Session.openNamed p t name = .error e ∧ Refusal.ofError e = .notFound := by
  have plain := plain_of_mem_sessionNames proper listed
  have there := (mem_sessionNames proper).mp listed
  rw [openNamed_notFound, ← Bool.not_eq_true, isDirectory_sessionPath plain there]
  rfl

theorem ofError_cases (e : Error) :
    Refusal.ofError e = .notFound ∨ Refusal.ofError e = .failed := by
  cases e with
  | notFound kind name => exact .inl rfl
  | malformed path cause => exact .inr rfl
  | invalidRequest cause => exact .inr rfl
  | io fault => exact .inr rfl

theorem page_of_refused {e : Error} (listed : name ∈ p.sessionNames t)
    (refused : Session.openNamed p t name = .error e) (identifier : Nat) :
    page p t (.session name) = .error (.ofError e) ∧
      page p t (.exchange name identifier) = .error (.ofError e) := by
  have answered : Viewer.listed p t name = .error (.ofError e) := by
    unfold Viewer.listed
    rw [if_pos listed, refused]
    rfl
  unfold page
  dsimp only
  rw [answered]
  exact ⟨rfl, rfl⟩

theorem page_of_opened {s : Session} (listed : name ∈ p.sessionNames t)
    (opened : Session.openNamed p t name = .ok s) (identifier : Nat) :
    page p t (.session name) = .ok (.session s (s.recorded t)) ∧
      statusOf (page p t (.exchange name identifier)) =
        if identifier ∈ (s.recorded t).map (·.identifier) then 200 else 404 := by
  have answered := listed_eq_ok.mpr ⟨listed, opened⟩
  refine ⟨page_session_eq_ok.mpr ⟨s, answered, rfl⟩, ?_⟩
  unfold page
  dsimp only
  rw [answered]
  have found : identifier ∈ (s.recorded t).map (·.identifier) ↔
      ((s.recorded t).find? (·.identifier == identifier)).isSome = true := by
    simp [List.find?_isSome]
  simp only [found, bind, Except.bind]
  cases (s.recorded t).find? (·.identifier == identifier) with
  | none => rfl
  | some r => rfl

/-- Whether a listed session is found and cannot be opened. -/
def Faulty (p : Project) (t : Tree) (name : String) : Prop :=
  name ∈ p.sessionNames t ∧ ¬ Unfound p t name ∧ ∃ e, Session.openNamed p t name = .error e

/-- What a status tells that is 404 for a name that is not listed, comes from the error where the
session cannot be opened, and shows an opened session if that has a property. -/
theorem tells_of_opening {status : Nat} {Shown : Session → Prop} (proper : t.isProper = true)
    (unlisted : name ∉ p.sessionNames t → status = 404)
    (refused : name ∈ p.sessionNames t → ∀ e, Session.openNamed p t name = .error e →
      status = (Refusal.ofError e).status)
    (opened : name ∈ p.sessionNames t → ∀ s, Session.openNamed p t name = .ok s →
      Shown s ∧ status = 200 ∨ ¬ Shown s ∧ status = 404) :
    Tells status
      (name ∉ p.sessionNames t ∨ Unfound p t name ∨
        ∃ s, Session.openNamed p t name = .ok s ∧ ¬ Shown s)
      (Faulty p t name)
      (name ∈ p.sessionNames t ∧ ∃ s, Session.openNamed p t name = .ok s ∧ Shown s) := by
  unfold Faulty
  by_cases listed : name ∈ p.sessionNames t
  · rw [unfound_iff proper listed]
    cases opening : Session.openNamed p t name with
    | error e =>
      rw [refused listed e opening]
      rcases ofError_cases e with unfound | failed
      · constructor <;> simp [listed, unfound, Refusal.status]
      · constructor <;> simp [listed, failed, Refusal.status]
    | ok s =>
      rcases opened listed s opening with ⟨shown, rfl⟩ | ⟨hidden, rfl⟩
      · constructor <;> simp [listed, shown]
      · constructor <;> simp [listed, hidden]
  · rw [unlisted listed]
    constructor <;> simp [listed]

theorem status_session (proper : t.isProper = true) (name : String) :
    Tells (statusOf (page p t (.session name))) (name ∉ p.sessionNames t ∨ Unfound p t name)
      (Faulty p t name) (name ∈ p.sessionNames t ∧ ∃ s, Session.openNamed p t name = .ok s) := by
  have tells : Tells (statusOf (page p t (.session name)))
      (name ∉ p.sessionNames t ∨ Unfound p t name ∨
        ∃ s, Session.openNamed p t name = .ok s ∧ ¬ True)
      (Faulty p t name)
      (name ∈ p.sessionNames t ∧ ∃ s, Session.openNamed p t name = .ok s ∧ True) := by
    refine tells_of_opening proper ?_ ?_ ?_
    · intro unlisted
      rw [(page_of_unlisted unlisted 0).1]
      rfl
    · intro listed e refused
      rw [(page_of_refused listed refused 0).1]
      rfl
    · intro listed s opened
      rw [(page_of_opened listed opened 0).1]
      exact .inl ⟨trivial, rfl⟩
  simpa using tells

theorem status_exchange (proper : t.isProper = true) (name : String) (identifier : Nat) :
    Tells (statusOf (page p t (.exchange name identifier)))
      (name ∉ p.sessionNames t ∨ Unfound p t name ∨ ∃ s, Session.openNamed p t name = .ok s ∧
        identifier ∉ (s.recorded t).map (·.identifier))
      (Faulty p t name)
      (name ∈ p.sessionNames t ∧ ∃ s, Session.openNamed p t name = .ok s ∧
        identifier ∈ (s.recorded t).map (·.identifier)) := by
  refine tells_of_opening proper ?_ ?_ ?_
  · intro unlisted
    rw [(page_of_unlisted unlisted identifier).2]
    rfl
  · intro listed e refused
    rw [(page_of_refused listed refused identifier).2]
    rfl
  · intro listed s opened
    rw [(page_of_opened listed opened identifier).2]
    by_cases recorded : identifier ∈ (s.recorded t).map (·.identifier)
    · exact .inl ⟨recorded, if_pos recorded⟩
    · exact .inr ⟨recorded, if_neg recorded⟩

/-- In a project with acceptable settings, an answer with 404 means that the name or the identifier
is not listed, or that nothing is found where the session is opened, because of its path or of a
context that is missing. Where a listed session cannot be opened for another reason, the answer has
the status 500, and else what was asked for is shown. -/
theorem status_tells_unknown {t : Tree} {root : Path} {p : Project} (proper : t.isProper = true)
    (loaded : Project.load t root = .ok p) :
    (∀ r : Route, r.Askable → Route.parse r.target = .ok r) ∧
    ∃ entries : List Entry,
      (∀ target, Route.parse target = .ok .sessions →
        answer t root target = .ok (.sessions p.name entries)) ∧
      (∀ name, Faulty p t name ↔ name ∈ entries.map (·.name) ∧ ¬ Unfound p t name ∧
        ∃ e, Session.openNamed p t name = .error e) ∧
      (∀ name target, Route.parse target = .ok (.session name) →
        Tells (statusOf (answer t root target))
          (name ∉ entries.map (·.name) ∨ Unfound p t name)
          (Faulty p t name)
          (name ∈ entries.map (·.name) ∧ ∃ s, Session.openNamed p t name = .ok s)) ∧
      ∀ name identifier target, Route.parse target = .ok (.exchange name identifier) →
        Tells (statusOf (answer t root target))
          (name ∉ entries.map (·.name) ∨ Unfound p t name ∨
            ∃ s, Session.openNamed p t name = .ok s ∧
              identifier ∉ (s.recorded t).map (·.identifier))
          (Faulty p t name)
          (name ∈ entries.map (·.name) ∧ ∃ s, Session.openNamed p t name = .ok s ∧
            identifier ∈ (s.recorded t).map (·.identifier)) := by
  have names : ((p.sessionNames t).map (entry p t)).map (·.name) = p.sessionNames t := by
    rw [List.map_map]
    exact List.map_id' _
  refine ⟨fun r => Route.parse_target, (p.sessionNames t).map (entry p t), ?_⟩
  rw [names]
  refine ⟨?_, fun name => Iff.rfl, ?_, ?_⟩
  · intro target asked
    rw [answer_eq_page loaded asked]
    rfl
  · intro name target asked
    rw [answer_eq_page loaded asked]
    exact status_session proper name
  · intro name identifier target asked
    rw [answer_eq_page loaded asked]
    exact status_exchange proper name identifier

/-- A project with a session whose file is no map and one that names a context that is missing. -/
private def deskTree : Tree :=
  .directory [("p", .directory [("sessions", .directory [
    ("broken", .directory [("session.yaml", .file (Text.encode "- x"))]),
    ("lost", .directory [("session.yaml", .file (Text.encode "contexts: [gone]\n"))])])])]

private def desk : Project := ⟨⟨"/p"⟩, .standard⟩

private theorem load_deskTree : Project.load deskTree ⟨"/p"⟩ = .ok desk :=
  Outcome.eq_ok_of_toOption (by decide)

private theorem proper_deskTree : deskTree.isProper = true := by decide

private theorem isSession_of_standing {name : String}
    (there : deskTree.standing ["p", "sessions", name] = .directory) :
    IsSession desk deskTree name := by
  have located : deskTree.locate desk.sessionsPath = .ok ["p", "sessions"] :=
    Outcome.eq_ok_of_toOption (by decide)
  exact ⟨_, located, there⟩

/-- A session whose file is no map is found and refused. -/
theorem status_tells_unknown_sample : ∃ entries,
    answer deskTree ⟨"/p"⟩ "/sessions" = .ok (.sessions "p" entries) ∧
      "broken" ∈ entries.map (·.name) ∧ ¬ Unfound desk deskTree "broken" ∧
      statusOf (answer deskTree ⟨"/p"⟩ "/sessions/broken") = 500 ∧
      statusOf (answer deskTree ⟨"/p"⟩ "/sessions/broken/requests/1") = 500 := by
  have unreadable : (Session.loadFile deskTree (desk.sessionPath "broken")).isOk = false := by
    decide +kernel
  have found : ¬ Unfound desk deskTree "broken" := by
    rintro (hidden | ⟨f, read, -⟩)
    · exact hidden ⟨⟨by decide +kernel, by decide +kernel⟩, .inr (.inr (by decide +kernel))⟩
    · rw [read] at unreadable
      cases unreadable
  have refused : ∃ e, Session.openNamed desk deskTree "broken" = .error e := by
    cases opened : Session.openNamed desk deskTree "broken" with
    | error e => exact ⟨e, rfl⟩
    | ok s =>
      obtain ⟨-, f, _, read, -⟩ := Session.load_eq_ok.mp opened
      rw [read] at unreadable
      cases unreadable
  have listed : "broken" ∈ desk.sessionNames deskTree :=
    (mem_sessionNames proper_deskTree).mpr (isSession_of_standing (by decide +kernel))
  obtain ⟨-, entries, list, faulty, session, exchange⟩ :=
    status_tells_unknown proper_deskTree load_deskTree
  have broken : Faulty desk deskTree "broken" := ⟨listed, found, refused⟩
  exact ⟨entries, list "/sessions" (by decide +kernel), ((faulty "broken").mp broken).1, found,
    (session "broken" _ (by decide +kernel)).faulty.mpr broken,
    (exchange "broken" 1 _ (by decide +kernel)).faulty.mpr broken⟩

/-- A session that is listed is answered with 404 if the context it names is not there. -/
theorem listed_session_unfound : ∃ entries,
    answer deskTree ⟨"/p"⟩ "/sessions" = .ok (.sessions "p" entries) ∧
      "lost" ∈ entries.map (·.name) ∧
      statusOf (answer deskTree ⟨"/p"⟩ "/sessions/lost") = 404 := by
  have listed : "lost" ∈ desk.sessionNames deskTree :=
    (mem_sessionNames proper_deskTree).mpr (isSession_of_standing (by decide +kernel))
  have read : Session.loadFile deskTree (desk.sessionPath "lost") = .ok ⟨none, ["gone"], []⟩ :=
    Outcome.eq_ok_of_toOption (by decide +kernel)
  have misses : Misses desk deskTree ["gone"] :=
    ⟨[], "gone", [], rfl, by simp, by decide +kernel⟩
  refine ⟨(desk.sessionNames deskTree).map (entry desk deskTree), ?_, ?_, ?_⟩
  · rw [answer_eq_page load_deskTree (by decide +kernel : Route.parse "/sessions" = .ok .sessions)]
    rfl
  · exact List.mem_map.mpr ⟨entry desk deskTree "lost", List.mem_map_of_mem listed, rfl⟩
  · rw [answer_eq_page load_deskTree
      (by decide +kernel : Route.parse "/sessions/lost" = .ok (.session "lost"))]
    exact (status_session proper_deskTree "lost").unknown.mpr (.inr (.inr ⟨_, read, misses⟩))

end Viewer

end Runbook
