import Runbook.Proofs.Session.Messages
import Runbook.Proofs.Session.Reopening
import Runbook.Proofs.Viewer.Agreement

set_option autoImplicit false
set_option relaxedAutoImplicit false

/-!
What was sent is what is shown. Once a request of a session is done, its page in the viewer shows
the request as it was sent and the response as it is known to the session; and the pages of the
requests before show what they showed.
-/

namespace Runbook.Viewer

open Runbook.Files Runbook.Session

section Pages

variable {p : Project} {t u : Tree} {name : String} {identifier : Nat}

theorem mem_sessionNames_of_isDirectory (plain : Plain name)
    (there : t.isDirectory (p.sessionPath name) = true) : name ∈ p.sessionNames t := by
  obtain ⟨l, located, inside⟩ := Tree.locate_of_isDirectory there
  unfold Project.sessionPath at located
  obtain ⟨-, -, -, -, place⟩ := (Tree.locate_join_eq_ok plain).mp located
  rw [place] at inside
  unfold Project.sessionNames
  rw [mem_sortNames, Tree.mem_directoriesOf]
  exact ⟨_, Tree.locate_of_locate_join plain located, Tree.mem_directoriesAt inside⟩

theorem messageText_of_read {file : Path} {content : Text.Bytes} (h : t.read file = .ok content) :
    messageText t file = Text.decodeLossy content := by
  unfold messageText
  rw [h]

theorem messageText_congr {file : Path}
    (same : (u.read file).toOption = (t.read file).toOption) :
    messageText u file = messageText t file := by
  have shown : ∀ v : Tree,
      messageText v file = ((v.read file).toOption.map Text.decodeLossy).getD "" := by
    intro v
    unfold messageText
    cases v.read file <;> rfl
  rw [shown, shown, same]

theorem exchangePage_congr {r : Recorded}
    (same : ∀ file, Plain file → (u.read (r.directory.join file)).toOption =
      (t.read (r.directory.join file)).toOption) : exchangePage u r = exchangePage t r := by
  unfold exchangePage DumpPaths.ofDirectory
  dsimp only
  rw [messageText_congr (same "request.txt" (by decide)),
    messageText_congr (same "response.txt" (by decide))]

/-- The page of the first record with an identifier, in a session that is opened. -/
theorem page_of_recorded {s : Session} {r : Recorded} (plain : Plain name)
    (there : t.isDirectory (p.sessionPath name) = true) (opened : openNamed p t name = .ok s)
    (first : (recordsIn (p.sessionPath name) t).find? (·.identifier == identifier) = some r) :
    page p t (.exchange name identifier) = .ok (exchangePage t r) := by
  have member := mem_sessionNames_of_isDirectory plain there
  have place : s.directory = some (p.sessionPath name) := by
    obtain ⟨-, f, parents, -, -, rfl⟩ := load_eq_ok.mp opened
    rfl
  rw [← recorded_eq place] at first
  exact page_exchange_eq_ok.mpr ⟨s, r, listed_eq_ok.mpr ⟨member, opened⟩, first, rfl⟩

/-- What is shown of an exchange is the page of the first record with its identifier, whatever the
settings are. -/
theorem recorded_of_answer {target : String} {shown : Page}
    (asked : Route.parse target = .ok (.exchange name identifier))
    (h : answer t p.root target = .ok shown) : ∃ r,
      (recordsIn (p.sessionPath name) t).find? (·.identifier == identifier) = some r ∧
        shown = exchangePage t r := by
  unfold answer at h
  rw [asked] at h
  obtain ⟨_, same, h⟩ := Outcome.bind_eq_ok.mp h
  obtain rfl := Except.ok.inj same
  obtain ⟨q, loaded, h⟩ := Outcome.bind_eq_ok.mp h
  obtain ⟨s, r, opened, first, rfl⟩ := page_exchange_eq_ok.mp h
  obtain ⟨-, opened⟩ := listed_eq_ok.mp opened
  have root : q.root = p.root := by
    cases read : Project.load t p.root with
    | error e => simp [read, answered] at loaded
    | ok found =>
      obtain ⟨settings, -, rfl⟩ := Outcome.map_eq_ok.mp read
      rw [read] at loaded
      obtain rfl := Except.ok.inj loaded
      rfl
  have place : s.directory = some (p.sessionPath name) := by
    obtain ⟨-, f, parents, -, -, rfl⟩ := load_eq_ok.mp opened
    simp [Project.sessionPath, Project.sessionsPath, root]
  rw [recorded_eq place] at first
  exact ⟨r, first, rfl⟩

end Pages

section Requests

variable {σ : Type} {transport : Transport σ} {p : Project} {name : String} {s s' : Session}
  {ref : ActionRef} {o : BuildOptions} {b b' : Bench σ} {e : Executed}

/-- After a request is done, the first record with an identifier is the one that it was, or the new
one, which has an identifier of its own. -/
theorem find?_of_done {dir : Path} (quiet : transport.OnlyDumps) (place : s.directory = some dir)
    (grounded : b.tree.Grounded dir.steps) (h : perform transport s ref o b = (.ok e, s', b')) :
    (recordsIn dir b'.tree).find? (·.identifier == e.identifier) =
        some ⟨e.identifier, Recorded.safeName e.actionName,
          recordPath dir e.identifier e.actionName⟩ ∧
      ∀ identifier r, (recordsIn dir b.tree).find? (·.identifier == identifier) = some r →
        (recordsIn dir b'.tree).find? (·.identifier == identifier) = some r := by
  have advances := advances_of_perform quiet place grounded h
  have moved := directory_perform transport s ref o b
  rw [h] at moved
  have grew := advances.recorded
  rw [recorded_eq place, recorded_eq (moved.trans place)] at grew
  rw [grew]
  refine ⟨?_, ?_⟩
  · have fresh : (recordsIn dir b.tree).find? (·.identifier == e.identifier) = none := by
      refine List.find?_eq_none.mpr fun x hx => ?_
      rw [← recorded_eq place] at hx
      have less := advances.aboveRecorded x hx
      simp only [beq_iff_eq]
      omega
    rw [List.find?_append, fresh, Option.none_or]
    simp
  · intro identifier r first
    rw [List.find?_append, first, Option.some_or]

/-- The page of a request that is done shows the request and the response. -/
theorem exchangePage_of_done {dir : Path} (faithful : transport.Faithful)
    (place : s.directory = some dir) (grounded : b.tree.Grounded dir.steps)
    (h : perform transport s ref o b = (.ok e, s', b')) (action : String) :
    exchangePage b'.tree ⟨e.identifier, action, recordPath dir e.identifier e.actionName⟩ =
      .exchange ⟨e.identifier, action, recordPath dir e.identifier e.actionName⟩
        (Text.decodeLossy (Message.ofRequest e.request))
        (Text.decodeLossy (Message.ofResponse e.response)) := by
  obtain ⟨request, response⟩ := read_of_done faithful place grounded h
  unfold exchangePage DumpPaths.ofDirectory
  dsimp only
  rw [messageText_of_read request, messageText_of_read response]

/-- A session opened under a name is opened again once a request of it is done. -/
theorem opens_again {opened : Tree} {s₀ : Session} {b₀ : Bench σ} (as : OpenedAs p opened name s₀)
    (uses : Uses s₀ b₀ s b) (done : perform transport s ref o b = (.ok e, s', b'))
    (same : SameContexts p s'.contextNames opened b'.tree)
    (reads : Yaml.read? (Yaml.print s'.file.toValue) = some s'.file.toValue) :
    b'.tree.isDirectory (p.sessionPath name) = true ∧
      ∃ again, openNamed p b'.tree name = .ok again := by
  have after := (Use.perform done).anchored (uses.anchored as.anchored)
  obtain ⟨t, saved⟩ := saved_of_perform done
  obtain ⟨inside, file⟩ := loadFile_of_save after.directory saved reads
  have parents : p.composeContexts b'.tree s'.file.contexts = .ok s'.parents :=
    (composeContexts_eq same).trans after.parents
  exact ⟨inside, _, load_eq_ok.mpr ⟨inside, s'.file, s'.parents, file, parents, rfl⟩⟩

/-- After a request is done, a record from before is shown with the messages that were in it. -/
theorem answer_of_recorded {opened : Tree} {s₀ : Session} {b₀ : Bench σ} {identifier : Nat}
    {r : Recorded} {target : String} (quiet : transport.OnlyDumps) (plain : Plain name)
    (as : OpenedAs p opened name s₀) (uses : Uses s₀ b₀ s b)
    (there : b.tree.isDirectory p.root = true) (proper : b.tree.isProper = true)
    (done : perform transport s ref o b = (.ok e, s', b'))
    (settings : Project.load b'.tree p.root = .ok p)
    (same : SameContexts p s'.contextNames opened b'.tree)
    (reads : Yaml.read? (Yaml.print s'.file.toValue) = some s'.file.toValue)
    (found : (recordsIn (p.sessionPath name) b.tree).find? (·.identifier == identifier) = some r)
    (asked : Route.parse target = .ok (.exchange name identifier)) :
    answer b'.tree p.root target = .ok (exchangePage b.tree r) := by
  have place := (uses.anchored as.anchored).directory
  have grounded := Project.grounded_sessionPath there plain
  obtain ⟨inside, again, reopened⟩ := opens_again as uses done same reads
  obtain ⟨-, others⟩ := find?_of_done quiet place grounded done
  have listed := List.mem_of_find?_eq_some found
  rw [answer_eq_page settings asked,
    page_of_recorded plain inside reopened (others identifier r found)]
  refine congrArg Except.ok (exchangePage_congr fun file plainFile => ?_)
  exact toOption_read_of_done quiet place grounded proper done listed plainFile

end Requests

/-- A request of a saved session of a plain name that is done, with a transport that writes the
messages it exchanges, is shown: under its identifier, with the name of its action as in the name of
its directory, as it was sent, and with the response that the session knows. Under an identifier
that was recorded before, the record is shown that was the first with it, with the messages that
were in it; and what was shown before is shown as it was. The project is there, its settings and the
contexts are as the session was opened with, and the YAML text of the session file is assumed to be
read as the value it was printed from. -/
theorem done_is_shown {σ : Type} {transport : Transport σ} {p : Project} {opened : Tree}
    {name : String} {s₀ s s' : Session} {b₀ b b' : Bench σ} {ref : ActionRef} {o : BuildOptions}
    {e : Executed} (faithful : transport.Faithful) (plain : Plain name)
    (as : OpenedAs p opened name s₀) (uses : Uses s₀ b₀ s b)
    (there : b.tree.isDirectory p.root = true) (proper : b.tree.isProper = true)
    (done : perform transport s ref o b = (.ok e, s', b'))
    (settings : Project.load b'.tree p.root = .ok p)
    (same : SameContexts p s'.contextNames opened b'.tree)
    (reads : Yaml.read? (Yaml.print s'.file.toValue) = some s'.file.toValue) :
    Route.parse (Route.exchange name e.identifier).target =
        .ok (.exchange name e.identifier) ∧
      (∀ target, Route.parse target = .ok (.exchange name e.identifier) →
        answer b'.tree p.root target = .ok (.exchange
          ⟨e.identifier, Recorded.safeName e.actionName,
            recordPath (p.sessionPath name) e.identifier e.actionName⟩
          (Text.decodeLossy (Message.ofRequest e.request))
          (Text.decodeLossy (Message.ofResponse e.response)))) ∧
      (∀ identifier r target,
        (s.recorded b.tree).find? (·.identifier == identifier) = some r →
        Route.parse target = .ok (.exchange name identifier) →
        answer b'.tree p.root target = .ok (exchangePage b.tree r)) ∧
      ∀ identifier target shown, Route.parse target = .ok (.exchange name identifier) →
        answer b.tree p.root target = .ok shown → answer b'.tree p.root target = .ok shown := by
  have place := (uses.anchored as.anchored).directory
  have grounded := Project.grounded_sessionPath there plain
  have advances := advances_of_perform faithful.onlyDumps place grounded done
  obtain ⟨inside, again, reopened⟩ := opens_again as uses done same reads
  obtain ⟨first, -⟩ := find?_of_done faithful.onlyDumps place grounded done
  have kept : ∀ identifier r target,
      (recordsIn (p.sessionPath name) b.tree).find? (·.identifier == identifier) = some r →
      Route.parse target = .ok (.exchange name identifier) →
      answer b'.tree p.root target = .ok (exchangePage b.tree r) := fun identifier r target =>
    answer_of_recorded faithful.onlyDumps plain as uses there proper done settings same reads
  have askable : (Route.exchange name e.identifier).Askable :=
    ⟨plain.nonempty, advances.below⟩
  refine ⟨Route.parse_target askable, ?_, ?_, ?_⟩
  · intro target asked
    rw [answer_eq_page settings asked, page_of_recorded plain inside reopened first,
      exchangePage_of_done faithful place grounded done]
  · intro identifier r target found asked
    rw [recorded_eq place] at found
    exact kept identifier r target found asked
  · intro identifier target shown asked answered
    obtain ⟨r, found, rfl⟩ := recorded_of_answer asked answered
    exact kept identifier r target found asked

private def viewedProject : Project := ⟨⟨"/p"⟩, .standard⟩

/-- A project with a recorded session, whose file may be no map. -/
private def viewedTree (broken : Bool) : Tree :=
  let file := if broken then [("session.yaml", Node.file (Text.encode "- x"))] else []
  .directory [("p", .directory [("sessions", .directory [("main", .directory (file ++
    [("requests", .directory [("7-x", .directory [("request.txt", .file (Text.encode "old"))])])]
  ))])])]

example : (viewedTree true).isProper = true ∧ (viewedTree false).isProper = true := by
  decide +kernel

private def viewedBench (broken : Bool) : Bench Unit := ⟨viewedTree broken, (), []⟩

private def viewedSession (name : String) : Session :=
  ⟨viewedProject, name, none, some (viewedProject.sessionPath name), [], [], [], []⟩

private def viewedAction : ActionRef := .inline [("url", .str "x")]

private def lookedAt (course : Except Error Executed × Session × Bench Unit) :
    Option (Nat × String × String × String) × SessionFile × List String × Option Project :=
  (course.1.toOption.map fun e => (e.identifier, e.actionName,
      Text.decodeLossy (Message.ofRequest e.request),
      Text.decodeLossy (Message.ofResponse e.response)),
    course.2.1.file, course.2.2.tree.directoriesOf viewedProject.contextsPath,
    (Project.load course.2.2.tree viewedProject.root).toOption)

private theorem openedAs_viewedSession (name : String) (broken : Bool) :
    OpenedAs viewedProject (viewedTree broken) name (viewedSession name) := by
  have contexts : (viewedTree broken).directoriesOf viewedProject.contextsPath = [] := by
    cases broken <;> decide
  have parents := Project.composeContexts_of_none (p := viewedProject) rfl contexts
  exact .new (new_eq_ok.mpr ⟨[], parents, rfl⟩)

private theorem recorded_viewedSession (name : String) (t : Tree) :
    (viewedSession name).recorded t = recordsIn (viewedProject.sessionPath name) t :=
  recorded_eq rfl t

private theorem recordsIn_viewedTree (broken : Bool) :
    recordsIn (viewedProject.sessionPath "main") (viewedTree broken) =
      [⟨7, "x", ⟨"/p/sessions/main/requests/7-x"⟩⟩] := by
  have listed : (viewedTree broken).directoriesOf
      ((viewedProject.sessionPath "main").join "requests") = ["7-x"] := by
    cases broken <;> decide
  have named : ["7-x"].filterMap
      (Recorded.ofDirectory? ((viewedProject.sessionPath "main").join "requests")) =
      [⟨7, "x", ⟨"/p/sessions/main/requests/7-x"⟩⟩] := by
    decide
  unfold recordsIn
  rw [listed, named, List.mergeSort_singleton]

private theorem nextIdentifier_viewedSession (broken : Bool) :
    (viewedSession "main").nextIdentifier (viewedTree broken) = .ok 8 := by
  have highest : (viewedSession "main").highest (viewedTree broken) = 7 := by
    unfold highest
    rw [recorded_viewedSession, recordsIn_viewedTree]
    rfl
  exact nextIdentifier_eq_ok.mpr ⟨by rw [highest], by decide⟩

private theorem lookedAt_perform (broken : Bool) :
    lookedAt (perform (.conveying (.ofStatus 200 "OK")) (viewedSession "main") viewedAction .none
      (viewedBench broken)) =
      (some (8, "inline", "GET x HTTP/1.1\r\nUser-Agent: rest-flow/0.2.0\r\n\r\n",
        "HTTP/1.1 200 OK\r\n\r\n"), ⟨none, [], []⟩, [], some viewedProject) := by
  unfold perform prepare
  rw [show (viewedBench broken).tree = viewedTree broken from rfl, nextIdentifier_viewedSession]
  cases broken <;> decide +kernel

private theorem viewed_done (broken : Bool) : ∃ e s' b',
    perform (.conveying (.ofStatus 200 "OK")) (viewedSession "main") viewedAction .none
      (viewedBench broken) = (.ok e, s', b') ∧
    (e.identifier, e.actionName, Text.decodeLossy (Message.ofRequest e.request),
        Text.decodeLossy (Message.ofResponse e.response)) =
      (8, "inline", "GET x HTTP/1.1\r\nUser-Agent: rest-flow/0.2.0\r\n\r\n",
        "HTTP/1.1 200 OK\r\n\r\n") ∧
    Project.load b'.tree viewedProject.root = .ok viewedProject ∧
    SameContexts viewedProject s'.contextNames (viewedTree broken) b'.tree ∧
    Yaml.read? (Yaml.print s'.file.toValue) = some s'.file.toValue := by
  have looked := lookedAt_perform broken
  generalize perform (.conveying (.ofStatus 200 "OK")) (viewedSession "main") viewedAction .none
    (viewedBench broken) = course at looked ⊢
  obtain ⟨answer, s', b'⟩ := course
  simp only [lookedAt, Prod.mk.injEq] at looked
  obtain ⟨done, file, contexts, settings⟩ := looked
  obtain ⟨e, rfl, messages⟩ := Outcome.exists_of_toOption_map done
  obtain ⟨-, names, -⟩ := SessionFile.mk.inj file
  have before : (viewedTree broken).directoriesOf viewedProject.contextsPath = [] := by
    cases broken <;> decide +kernel
  have none : ∀ name, ¬ (name ∈ s'.contextNames ∨
      name ∈ viewedProject.defaultContexts (viewedTree broken)) := by
    intro name
    unfold Project.defaultContexts Project.contextNames
    rw [names, before]
    simp [viewedProject, Settings.standard, sortNames]
  refine ⟨e, s', b', rfl, messages, Outcome.eq_ok_of_toOption settings, ?_, ?_⟩
  · exact ⟨contexts.trans before.symm, fun name given => absurd given (none name),
      fun name given => absurd given (none name)⟩
  · rw [file]
    decide +kernel

theorem done_is_shown_sample : ∃ e s' b',
    perform (.conveying (.ofStatus 200 "OK")) (viewedSession "main") viewedAction .none
      (viewedBench false) = (.ok e, s', b') ∧
    (∃ record, answer b'.tree ⟨"/p"⟩ "/sessions/main/requests/8" = .ok (.exchange record
      "GET x HTTP/1.1\r\nUser-Agent: rest-flow/0.2.0\r\n\r\n" "HTTP/1.1 200 OK\r\n\r\n")) ∧
    ∃ record, answer b'.tree ⟨"/p"⟩ "/sessions/main/requests/7" =
      .ok (.exchange record "old" "") := by
  obtain ⟨e, s', b', done, messages, settings, same, reads⟩ := viewed_done false
  simp only [Prod.mk.injEq] at messages
  obtain ⟨number, -, request, response⟩ := messages
  obtain ⟨-, new, old, -⟩ := done_is_shown (Transport.faithful_conveying _)
    (by decide : Plain "main") (openedAs_viewedSession "main" false) .none (by decide +kernel)
    (by decide +kernel) done settings same reads
  refine ⟨e, s', b', done, ?_, ?_⟩
  · have shown := new "/sessions/main/requests/8" (by rw [number]; decide +kernel)
    rw [request, response] at shown
    exact ⟨_, shown⟩
  · have first : ((viewedSession "main").recorded (viewedTree false)).find?
        (·.identifier == 7) = some ⟨7, "x", ⟨"/p/sessions/main/requests/7-x"⟩⟩ := by
      rw [recorded_viewedSession, recordsIn_viewedTree]
      rfl
    have shown := old 7 _ "/sessions/main/requests/7" first (by decide +kernel)
    have page : exchangePage (viewedTree false) ⟨7, "x", ⟨"/p/sessions/main/requests/7-x"⟩⟩ =
        .exchange ⟨7, "x", ⟨"/p/sessions/main/requests/7-x"⟩⟩ "old" "" := by
      have request : messageText (viewedTree false)
          ⟨"/p/sessions/main/requests/7-x/request.txt"⟩ = "old" := by
        decide +kernel
      have response : messageText (viewedTree false)
          ⟨"/p/sessions/main/requests/7-x/response.txt"⟩ = "" := by
        decide +kernel
      rw [← request, ← response]
      rfl
    exact ⟨_, shown.trans (congrArg Except.ok page)⟩

private theorem answer_of_broken :
    answer (viewedTree true) viewedProject.root "/sessions/main/requests/7" = .error .failed := by
  have loaded : Project.load (viewedTree true) viewedProject.root = .ok viewedProject :=
    Outcome.eq_ok_of_toOption (by decide +kernel)
  have asked : Route.parse "/sessions/main/requests/7" = .ok (.exchange "main" 7) := by
    decide +kernel
  have member : "main" ∈ viewedProject.sessionNames (viewedTree true) :=
    mem_sessionNames_of_isDirectory (by decide) (by decide +kernel)
  have refused : listed viewedProject (viewedTree true) "main" = .error .failed := by
    have there : (viewedTree true).isDirectory (viewedProject.sessionPath "main") = true := by
      decide +kernel
    have unread : answered (loadFile (viewedTree true) (viewedProject.sessionPath "main")) =
        .error .failed := by
      decide +kernel
    unfold listed openNamed load
    rw [if_pos member]
    dsimp only
    rw [if_pos there]
    cases file : loadFile (viewedTree true) (viewedProject.sessionPath "main") with
    | ok f => simp [file, answered] at unread
    | error e =>
      rw [file] at unread
      exact congrArg Except.error (Except.error.inj unread)
  rw [answer_eq_page loaded asked]
  unfold page
  dsimp only
  rw [refused]
  rfl

-- A step upward from the sessions leads to the project itself.
example : (viewedTree false).locate (viewedProject.sessionPath "..") =
    (viewedTree false).locate viewedProject.root := by
  decide +kernel

private theorem upward_not_found : ∃ (s s' : Session) (e : Executed) (b b' : Bench Unit),
    OpenedAs viewedProject b.tree ".." s ∧
      perform (.conveying (.ofStatus 200 "OK")) s viewedAction .none b = (.ok e, s', b') ∧
      e.identifier = 1 ∧
      answer b'.tree ⟨"/p"⟩ "/sessions/%2E%2E/requests/1" = .error .notFound := by
  have nothing : (viewedTree false).directoriesOf
      ((viewedProject.sessionPath "..").join "requests") = [] := by
    decide +kernel
  have place : (viewedSession "..").directory = some (viewedProject.sessionPath "..") := rfl
  have first : (viewedSession "..").nextIdentifier (viewedBench false).tree = .ok 1 :=
    nextIdentifier_of_nothing place nothing rfl
  have looked : lookedAt (perform (.conveying (.ofStatus 200 "OK")) (viewedSession "..")
      viewedAction .none (viewedBench false)) =
      (some (1, "inline", "GET x HTTP/1.1\r\nUser-Agent: rest-flow/0.2.0\r\n\r\n",
        "HTTP/1.1 200 OK\r\n\r\n"), ⟨none, [], []⟩, [], some viewedProject) := by
    unfold perform prepare
    rw [first]
    decide +kernel
  have listed : (perform (.conveying (.ofStatus 200 "OK")) (viewedSession "..") viewedAction
      .none (viewedBench false)).2.2.tree.directoriesOf viewedProject.sessionsPath =
      ["main"] := by
    unfold perform prepare
    rw [first]
    decide +kernel
  generalize performed : perform (.conveying (.ofStatus 200 "OK")) (viewedSession "..")
    viewedAction .none (viewedBench false) = course at looked listed
  obtain ⟨answer, s', b'⟩ := course
  simp only [lookedAt, Prod.mk.injEq] at looked
  obtain ⟨done, -, -, settings⟩ := looked
  obtain ⟨e, rfl, messages⟩ := Outcome.exists_of_toOption_map done
  refine ⟨viewedSession "..", s', e, viewedBench false, b',
    openedAs_viewedSession ".." false, performed, congrArg Prod.fst messages, ?_⟩
  have unlisted : ".." ∉ viewedProject.sessionNames b'.tree := by
    unfold Project.sessionNames
    rw [mem_sortNames, listed]
    decide
  have asked : Route.parse "/sessions/%2E%2E/requests/1" = .ok (.exchange ".." 1) := by
    decide +kernel
  exact (answer_eq_page (Outcome.eq_ok_of_toOption settings) asked).trans
    (page_of_unlisted unlisted 1).2

/-- A request may mend a session that could not be opened, so that records from before are shown
that were not; and what is done in a session named by a step upward is not found. -/
theorem done_changes_shown :
    (∃ (s s' : Session) (e : Executed) (b b' : Bench Unit),
      OpenedAs viewedProject b.tree "main" s ∧
      perform (.conveying (.ofStatus 200 "OK")) s viewedAction .none b = (.ok e, s', b') ∧
      (s.recorded b.tree).map (·.identifier) = [7] ∧
      answer b.tree ⟨"/p"⟩ "/sessions/main/requests/7" = .error .failed ∧
      ∃ shown, answer b'.tree ⟨"/p"⟩ "/sessions/main/requests/7" = .ok shown) ∧
    ∃ (s s' : Session) (e : Executed) (b b' : Bench Unit),
      OpenedAs viewedProject b.tree ".." s ∧
      perform (.conveying (.ofStatus 200 "OK")) s viewedAction .none b = (.ok e, s', b') ∧
      e.identifier = 1 ∧
      answer b'.tree ⟨"/p"⟩ "/sessions/%2E%2E/requests/1" = .error .notFound := by
  refine ⟨?_, upward_not_found⟩
  obtain ⟨e, s', b', done, -, settings, same, reads⟩ := viewed_done true
  have first : (recordsIn (viewedProject.sessionPath "main") (viewedTree true)).find?
      (·.identifier == 7) = some ⟨7, "x", ⟨"/p/sessions/main/requests/7-x"⟩⟩ := by
    rw [recordsIn_viewedTree]
    rfl
  have asked : Route.parse "/sessions/main/requests/7" = .ok (.exchange "main" 7) := by
    decide +kernel
  have shown := answer_of_recorded (Transport.faithful_conveying _).onlyDumps
    (by decide : Plain "main") (openedAs_viewedSession "main" true) .none (by decide +kernel)
    (by decide +kernel) done settings same reads first asked
  refine ⟨viewedSession "main", s', e, viewedBench true, b',
    openedAs_viewedSession "main" true, done, ?_, answer_of_broken, _, shown⟩
  rw [recorded_viewedSession]
  exact congrArg (List.map _) (recordsIn_viewedTree true)

end Runbook.Viewer
