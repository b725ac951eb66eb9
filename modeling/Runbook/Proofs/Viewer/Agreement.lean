import Runbook.Proofs.Files.Listing
import Runbook.Proofs.Session.Opening
import Runbook.Proofs.Viewer.Routing

set_option autoImplicit false
set_option relaxedAutoImplicit false

/-!
The pages of the viewer agree. The list of sessions shows each directory of a session once and in
order; the page of a session is shown if and only if its entry has no error; and an exchange is
shown if and only if the page of its session is shown and lists its identifier. Of a name that is
not listed nothing is shown.
-/

namespace Runbook

open Runbook.Files

namespace Viewer

variable {p : Project} {t : Tree} {root : Path} {name : String} {identifier : Nat}

/-- Whether there is a directory of a name right among the sessions of a project. -/
def IsSession (p : Project) (t : Tree) (name : String) : Prop :=
  ∃ l, t.locate p.sessionsPath = .ok l ∧ t.standing (l ++ [name]) = .directory

theorem mem_sessionNames (proper : t.isProper = true) :
    name ∈ p.sessionNames t ↔ IsSession p t name := by
  unfold Project.sessionNames IsSession
  rw [mem_sortNames, Tree.mem_directoriesOf]
  simp only [Tree.mem_directoriesAt_iff proper]

theorem pairwise_sessionNames (proper : t.isProper = true) :
    (p.sessionNames t).Pairwise (· < ·) :=
  pairwise_sortNames (Tree.nodup_directoriesOf proper _)

theorem plain_of_mem_sessionNames (proper : t.isProper = true) (h : name ∈ p.sessionNames t) :
    Plain name := by
  obtain ⟨l, -, there⟩ := (mem_sessionNames proper).mp h
  exact Tree.plain_of_mem_directoriesAt proper (Tree.mem_directoriesAt there)

theorem name_of_openNamed {s : Session} (plain : Plain name)
    (h : Session.openNamed p t name = .ok s) : s.name = name := by
  obtain ⟨-, f, parents, -, -, rfl⟩ := Session.load_eq_ok.mp h
  have last : (p.sessionPath name).fileName? = some name := by
    unfold Path.fileName? Project.sessionPath
    rw [Path.steps_join _ plain, List.getLast?_concat]
    simp [plain.descends]
  simp [last]

theorem pairwise_recorded (s : Session) (t : Tree) :
    (s.recorded t).Pairwise fun a b => a.identifier ≤ b.identifier := by
  unfold Session.recorded
  split
  · exact .nil
  · refine (List.pairwise_mergeSort ?_ ?_ _).imp of_decide_eq_true
    · intro a b c hab hbc
      rw [decide_eq_true_eq] at hab hbc ⊢
      exact le_trans hab hbc
    · intro a b
      rw [Bool.or_eq_true, decide_eq_true_eq, decide_eq_true_eq]
      exact le_total _ _

/-- The page of a listed session is shown if and only if its entry has no error, and then it says
the same. -/
theorem session_agrees (proper : t.isProper = true) (listed : name ∈ p.sessionNames t) :
    ((entry p t name).content.isOk = true ↔ ∃ shown, page p t (.session name) = .ok shown) ∧
      ∀ shown, page p t (.session name) = .ok shown → ∃ s recorded,
        shown = .session s recorded ∧ s.name = name ∧
        (entry p t name).content = .ok (s.title, recorded.length) ∧
        recorded.Pairwise fun a b => a.identifier ≤ b.identifier := by
  refine ⟨?_, ?_⟩
  · unfold entry
    constructor
    · intro fine
      obtain ⟨content, opened⟩ := Outcome.exists_of_isOk fine
      obtain ⟨s, opened, -⟩ := Outcome.map_eq_ok.mp opened
      exact ⟨_, page_session_eq_ok.mpr ⟨s, listed_eq_ok.mpr ⟨listed, opened⟩, rfl⟩⟩
    · rintro ⟨shown, h⟩
      obtain ⟨s, opened, -⟩ := page_session_eq_ok.mp h
      obtain ⟨-, opened⟩ := listed_eq_ok.mp opened
      rw [opened]
      rfl
  · intro shown h
    obtain ⟨s, opened, rfl⟩ := page_session_eq_ok.mp h
    obtain ⟨-, opened⟩ := listed_eq_ok.mp opened
    refine ⟨s, s.recorded t, rfl, ?_, ?_, pairwise_recorded s t⟩
    · exact name_of_openNamed (plain_of_mem_sessionNames proper listed) opened
    · unfold entry
      rw [opened]
      rfl

/-- What is shown of an exchange is in a record that the page of its session lists. -/
theorem exists_recorded_of_exchange {shown : Page}
    (h : page p t (.exchange name identifier) = .ok shown) : ∃ s recorded r,
      page p t (.session name) = .ok (.session s recorded) ∧ r ∈ recorded ∧
        r.identifier = identifier ∧ shown = exchangePage t r := by
  obtain ⟨s, r, opened, record, rfl⟩ := page_exchange_eq_ok.mp h
  refine ⟨s, s.recorded t, r, page_session_eq_ok.mpr ⟨s, opened, rfl⟩,
    List.mem_of_find?_eq_some record, ?_, rfl⟩
  simpa using List.find?_some record

theorem exchange_agrees : (∃ shown, page p t (.exchange name identifier) = .ok shown) ↔
    ∃ s recorded, page p t (.session name) = .ok (.session s recorded) ∧
      identifier ∈ recorded.map (·.identifier) := by
  constructor
  · rintro ⟨shown, h⟩
    obtain ⟨s, recorded, r, opened, member, rfl, -⟩ := exists_recorded_of_exchange h
    exact ⟨s, recorded, opened, List.mem_map_of_mem member⟩
  · rintro ⟨s, recorded, above, member⟩
    obtain ⟨s', opened, same⟩ := page_session_eq_ok.mp above
    obtain ⟨rfl, rfl⟩ := Page.session.inj same
    obtain ⟨r, listed, same⟩ := List.mem_map.mp member
    obtain ⟨first, record⟩ : ∃ first,
        (s.recorded t).find? (·.identifier == identifier) = some first := by
      refine Option.isSome_iff_exists.mp (List.find?_isSome.mpr ⟨r, listed, ?_⟩)
      simpa using same
    exact ⟨_, page_exchange_eq_ok.mpr ⟨s, first, opened, record, rfl⟩⟩

theorem page_of_unlisted (unlisted : name ∉ p.sessionNames t) (identifier : Nat) :
    page p t (.session name) = .error .notFound ∧
      page p t (.exchange name identifier) = .error .notFound := by
  have refused : listed p t name = .error .notFound := by
    unfold listed
    rw [if_neg unlisted]
  unfold page
  dsimp only
  rw [refused]
  exact ⟨rfl, rfl⟩

/-- The pages of a project with acceptable settings agree, whatever else its tree holds. The list
shows the directories of sessions, each once and in order. An entry has no error if and only if the
page of its session is shown; both then say the same title and number of exchanges, which the page
lists by their identifiers. An exchange is shown if and only if that page is, and lists it. Nothing
is found under a name that is not listed, such as one that is no name of a file. -/
theorem pages_agree {t : Tree} {root : Path} {p : Project} (proper : t.isProper = true)
    (loaded : Project.load t root = .ok p) :
    (∀ r : Route, r.Askable → Route.parse r.target = .ok r) ∧
    ∃ entries : List Entry,
      (∀ target, Route.parse target = .ok .sessions →
        answer t root target = .ok (.sessions p.name entries)) ∧
      (entries.map (·.name)).Pairwise (· < ·) ∧
      (∀ name, name ∈ entries.map (·.name) ↔ IsSession p t name) ∧
      (∀ name, IsSession p t name → Plain name) ∧
      (∀ e ∈ entries, ∀ target, Route.parse target = .ok (.session e.name) →
        (e.content.isOk = true ↔ ∃ shown, answer t root target = .ok shown) ∧
        ∀ shown, answer t root target = .ok shown → ∃ s recorded,
          shown = .session s recorded ∧ s.name = e.name ∧
          e.content = .ok (s.title, recorded.length) ∧
          recorded.Pairwise fun a b => a.identifier ≤ b.identifier) ∧
      (∀ name identifier above target, Route.parse above = .ok (.session name) →
        Route.parse target = .ok (.exchange name identifier) →
        ((∃ shown, answer t root target = .ok shown) ↔
          ∃ s recorded, answer t root above = .ok (.session s recorded) ∧
            identifier ∈ recorded.map (·.identifier))) ∧
      ∀ name, name ∉ entries.map (·.name) → ∀ identifier target,
        Route.parse target = .ok (.session name) ∨
          Route.parse target = .ok (.exchange name identifier) →
        answer t root target = .error .notFound := by
  have names : ((p.sessionNames t).map (entry p t)).map (·.name) = p.sessionNames t := by
    rw [List.map_map]
    exact List.map_id' _
  refine ⟨fun r => Route.parse_target, (p.sessionNames t).map (entry p t), ?_⟩
  rw [names]
  refine ⟨?_, pairwise_sessionNames proper, fun name => mem_sessionNames proper, ?_, ?_, ?_, ?_⟩
  · intro target asked
    rw [answer_eq_page loaded asked]
    rfl
  · intro name there
    exact plain_of_mem_sessionNames proper ((mem_sessionNames proper).mpr there)
  · intro e member target asked
    obtain ⟨name, listed, rfl⟩ := List.mem_map.mp member
    rw [answer_eq_page loaded asked]
    exact session_agrees proper listed
  · intro name identifier above target askedAbove asked
    rw [answer_eq_page loaded askedAbove, answer_eq_page loaded asked]
    exact exchange_agrees
  · intro name unlisted identifier target asked
    rcases asked with asked | asked
    · rw [answer_eq_page loaded asked]
      exact (page_of_unlisted unlisted identifier).1
    · rw [answer_eq_page loaded asked]
      exact (page_of_unlisted unlisted identifier).2

/-- A project with a session, a session whose file is no map, and a file beside them. -/
private def shelfTree : Tree :=
  .directory [("p", .directory [("sessions", .directory [
    ("main", .directory [("requests", .directory [("1-a", .directory [])])]),
    ("notes.txt", .file []),
    ("broken", .directory [("session.yaml", .file (Text.encode "- x"))])])])]

private def shelf : Project := ⟨⟨"/p"⟩, .standard⟩

private def shelvedSession : Session :=
  ⟨shelf, "main", none, some (shelf.sessionPath "main"), [], [], [], []⟩

private theorem openNamed_shelved :
    Session.openNamed shelf shelfTree "main" = .ok shelvedSession := by
  have parents : shelf.composeContexts shelfTree [] = .ok [] :=
    Project.composeContexts_of_none rfl (by decide)
  have file : Session.loadFile shelfTree (shelf.sessionPath "main") = .ok .empty :=
    Outcome.eq_ok_of_toOption (by decide +kernel)
  have named : (shelf.sessionPath "main").fileName?.getD "" = "main" := by decide
  refine Session.load_eq_ok.mpr ⟨by decide, .empty, [], file, parents, ?_⟩
  rw [named]
  rfl

private theorem recorded_shelved :
    shelvedSession.recorded shelfTree = [⟨1, "a", ⟨"/p/sessions/main/requests/1-a"⟩⟩] := by
  decide +kernel

private theorem not_openNamed_broken (s : Session) :
    Session.openNamed shelf shelfTree "broken" ≠ .ok s := by
  intro opened
  obtain ⟨-, f, -, read, -⟩ := Session.load_eq_ok.mp opened
  have unreadable : (Session.loadFile shelfTree (shelf.sessionPath "broken")).isOk = false := by
    decide +kernel
  rw [read] at unreadable
  cases unreadable

private theorem proper_shelfTree : shelfTree.isProper = true := by decide +kernel

private theorem load_shelfTree : Project.load shelfTree ⟨"/p"⟩ = .ok shelf :=
  Outcome.eq_ok_of_toOption (by decide +kernel)

private theorem locate_shelf : shelfTree.locate shelf.sessionsPath = .ok ["p", "sessions"] :=
  Outcome.eq_ok_of_toOption (by decide +kernel)

private theorem parse_main : Route.parse "/sessions/main" = .ok (.session "main") := by
  decide +kernel

private theorem answer_main : answer shelfTree ⟨"/p"⟩ "/sessions/main" =
    .ok (.session shelvedSession [⟨1, "a", ⟨"/p/sessions/main/requests/1-a"⟩⟩]) := by
  have there : shelfTree.standing ["p", "sessions", "main"] = .directory := by decide +kernel
  have listed : "main" ∈ shelf.sessionNames shelfTree :=
    (mem_sessionNames proper_shelfTree).mpr ⟨_, locate_shelf, there⟩
  rw [answer_eq_page load_shelfTree parse_main, page_session_eq_ok, ← recorded_shelved]
  exact ⟨_, listed_eq_ok.mpr ⟨listed, openNamed_shelved⟩, rfl⟩

/-- One session has a page with one exchange, another one has an error instead, and a file beside
them is no session. -/
theorem pages_agree_sample : ∃ entries,
    answer shelfTree ⟨"/p"⟩ "/sessions" = .ok (.sessions "p" entries) ∧
      (∃ e ∈ entries, e.name = "main" ∧ e.content = .ok (none, 1)) ∧
      (∃ shown, answer shelfTree ⟨"/p"⟩ "/sessions/main/requests/1" = .ok shown) ∧
      (¬ ∃ shown, answer shelfTree ⟨"/p"⟩ "/sessions/main/requests/2" = .ok shown) ∧
      (∃ e ∈ entries, e.name = "broken" ∧ e.content.isOk = false) ∧
      "notes.txt" ∉ entries.map (·.name) ∧
      answer shelfTree ⟨"/p"⟩ "/sessions/notes.txt" = .error .notFound ∧
      answer shelfTree ⟨"/p"⟩ "/sessions/%2E%2E/requests/1" = .error .notFound := by
  obtain ⟨-, entries, list, -, names, plain, session, exchange, unlisted⟩ :=
    pages_agree proper_shelfTree load_shelfTree
  have listed (name : String) (there : shelfTree.standing ["p", "sessions", name] = .directory) :
      ∃ e ∈ entries, e.name = name :=
    List.mem_map.mp ((names name).mpr ⟨_, locate_shelf, there⟩)
  have askedBroken : Route.parse "/sessions/broken" = .ok (.session "broken") := by decide +kernel
  obtain ⟨main, member, is_main⟩ := listed "main" (by decide +kernel)
  obtain ⟨broken, member', is_broken⟩ := listed "broken" (by decide +kernel)
  have notes : "notes.txt" ∉ entries.map (·.name) := by
    intro member
    obtain ⟨l, same, there⟩ := (names "notes.txt").mp member
    obtain rfl := Except.ok.inj (locate_shelf.symm.trans same)
    exact absurd there (by decide +kernel)
  have outside : ".." ∉ entries.map (·.name) := fun member =>
    (plain ".." ((names "..").mp member)).descends rfl
  refine ⟨entries, list "/sessions" (by decide +kernel), ⟨main, member, is_main, ?_⟩, ?_, ?_,
    ⟨broken, member', is_broken, ?_⟩, notes, ?_, ?_⟩
  · obtain ⟨s, recorded, same, -, content, -⟩ :=
      (session main member _ (is_main ▸ parse_main)).2 _ answer_main
    obtain ⟨rfl, rfl⟩ := Page.session.inj same
    exact content
  · exact (exchange "main" 1 _ _ parse_main (by decide +kernel)).mpr ⟨_, _, answer_main, by decide⟩
  · intro shown
    obtain ⟨s, recorded, same, known⟩ :=
      (exchange "main" 2 _ _ parse_main (by decide +kernel)).mp shown
    obtain ⟨rfl, rfl⟩ := Page.session.inj (Except.ok.inj (answer_main.symm.trans same))
    exact absurd known (by decide)
  · rw [← Bool.not_eq_true]
    intro fine
    obtain ⟨shown, answered⟩ := (session broken member' _ (is_broken ▸ askedBroken)).1.mp fine
    rw [answer_eq_page load_shelfTree askedBroken, page_session_eq_ok] at answered
    obtain ⟨s, opened, -⟩ := answered
    exact not_openNamed_broken s (listed_eq_ok.mp opened).2
  · exact unlisted "notes.txt" notes 0 _ (.inl (by decide +kernel))
  · exact unlisted ".." outside 1 _ (.inr (by decide +kernel))

end Viewer

end Runbook
