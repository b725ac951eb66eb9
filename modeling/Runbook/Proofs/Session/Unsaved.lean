import Runbook.Proofs.Session.Options

set_option autoImplicit false
set_option relaxedAutoImplicit false

/-!
Sessions without a directory. No record is begun, nothing is saved, and a transport gets no files
for the messages, so that one that only dumps leaves the files alone, whatever is done with the
session. The numbers of the requests are those of a list.
-/

namespace Runbook

open Runbook.Files

/-- A transport that also keeps the files for messages that it was given, the latest last. -/
def Transport.watched {σ : Type} (transport : Transport σ) :
    Transport (σ × List (Option DumpPaths)) := fun d dumps wire t =>
  match transport d dumps wire.1 t with
  | (answer, next, after) => (answer, (next, wire.2 ++ [dumps]), after)

/-- What can be done with an open session. -/
inductive Operation
  | set (name : String) (v : Value)
  | merge (vars : Fields)
  | save
  | perform (ref : ActionRef) (o : BuildOptions)
  | performFlow (name : String)

theorem Transport.OnlyDumps.watched {σ : Type} {transport : Transport σ}
    (quiet : transport.OnlyDumps) : transport.watched.OnlyDumps :=
  fun d dumps wire t => quiet d dumps wire.1 t

theorem Dumped.eq_of_none {t u : Tree} (h : Dumped none t u) : u = t := by
  induction h with
  | nothing => rfl
  | parents given => cases given
  | request _ given => cases given
  | response _ given => cases given

namespace Session

variable {σ : Type}

/-- What an operation leaves, whether it succeeds or not. -/
def operate (transport : Transport σ) (s : Session) (b : Bench σ) : Operation → Session × Bench σ
  | .set name v => (s.set name v, b)
  | .merge vars => (s.merge vars, b)
  | .save => (s, b.withTree (s.save b.tree).2)
  | .perform ref o => (perform transport s ref o b).2
  | .performFlow name => (performFlow transport s name b).2

/-- What operations leave, each of them done with what the one before it left. -/
def operateAll (transport : Transport σ) : List Operation → Session → Bench σ → Session × Bench σ
  | [], s, b => (s, b)
  | op :: rest, s, b =>
    operateAll transport rest (operate transport s b op).1 (operate transport s b op).2

/-- The files for messages that the transport is given over some operations. -/
def handed (transport : Transport σ) (ops : List Operation) (s : Session) (b : Bench σ) :
    List (Option DumpPaths) :=
  (operateAll transport.watched ops s ⟨b.tree, (b.wire, []), b.notices⟩).2.wire.2

/-- What performing a request comes to in a session without a directory: it cannot be made, or it is
sent without files for its messages, and done. -/
inductive UnsavedCourse (transport : Transport σ) (s : Session) (ref : ActionRef)
    (o : BuildOptions) (b : Bench σ) : Except Error Executed × Session × Bench σ → Prop
  | unprepared {e : Error} :
      s.prepare b.tree ref o = .error e → UnsavedCourse transport s ref o b (.error e, s, b)
  | done {p : Prepared} {answer : Except SendFault Response} {wire : σ} {after : Tree}
      {notices : List Notice} :
      s.prepare b.tree ref o = .ok p →
      transport p.built.descriptor none b.wire b.tree = (answer, wire, after) →
      UnsavedCourse transport s ref o b (.ok (executedOf p (recordedResponse answer)),
        { s with
          vars := (s.takeOutputs p.built.fields (recordedResponse answer)).vars
          executed := s.executed ++ [executedOf p (recordedResponse answer)] },
        ⟨after, wire, notices⟩)

variable {transport : Transport σ} {s : Session} {ref : ActionRef} {o : BuildOptions} {b : Bench σ}
  {t : Tree}

theorem save_of_unsaved (nowhere : s.directory = none) (t : Tree) : s.save t = (.ok (), t) := by
  unfold save
  rw [nowhere]

/-- Without a directory, a request has none for its record. -/
theorem dumpDirectory_of_unsaved {p : Prepared} (nowhere : s.directory = none)
    (prepared : s.prepare t ref o = .ok p) : p.dumpDirectory = none := by
  obtain ⟨built, identifier, -, -, rfl⟩ := prepare_eq_ok.mp prepared
  simp [requestsPath?, nowhere]

theorem perform_of_unsaved (nowhere : s.directory = none) (transport : Transport σ)
    (ref : ActionRef) (o : BuildOptions) (b : Bench σ) :
    UnsavedCourse transport s ref o b (perform transport s ref o b) := by
  unfold perform
  split
  · next unprepared => exact .unprepared unprepared
  · next p prepared =>
    have bare := dumpDirectory_of_unsaved nowhere prepared
    rw [bare]
    unfold exchange conclude
    dsimp only [makeRecord, Bench.withTree, Bench.note]
    rw [bare, Option.map_none]
    rcases sent : transport p.built.descriptor none b.wire b.tree with ⟨answer, wire, after⟩
    have kept : ∀ r, (s.takeOutputs p.built.fields r).directory = none :=
      fun r => (directory_takeOutputs s p.built.fields r).trans nowhere
    cases answer with
    | ok r =>
      dsimp only
      rw [save_of_unsaved (kept r), takeOutputs_eq]
      exact .done prepared sent
    | error fault =>
      dsimp only [recordFailure]
      rw [save_of_unsaved (kept _), takeOutputs_eq]
      exact .done prepared sent

/-- Without a directory, a request that is ready is done. -/
theorem perform_eq_ok_of_unsaved {p : Prepared} (nowhere : s.directory = none)
    (prepared : s.prepare b.tree ref o = .ok p) (transport : Transport σ) :
    ∃ e s' b', perform transport s ref o b = (.ok e, s', b') := by
  have course := perform_of_unsaved nowhere transport ref o b
  generalize perform transport s ref o b = outcome at course ⊢
  cases course with
  | unprepared unprepared => cases prepared.symm.trans unprepared
  | done => exact ⟨_, _, _, rfl⟩

/-- The numbers of what a session executed are one, two and so on. -/
def Counted (s : Session) : Prop :=
  s.executed.map (·.identifier) = List.range' 1 s.executed.length

theorem Counted.getElem? (h : Counted s) {n : Nat} {e : Executed} (he : s.executed[n]? = some e) :
    e.identifier = n + 1 := by
  have number : (s.executed.map (·.identifier))[n]? = some e.identifier := by
    rw [List.getElem?_map, he]
    rfl
  obtain ⟨inside, -⟩ := List.getElem?_eq_some_iff.mp he
  rw [h, List.getElem?_range' inside] at number
  have value := Option.some.inj number
  omega

/-- A session without a directory that has counted its requests, at a bench where the files are as
they were and the state of the transport is as wanted. -/
structure OffDisk (t : Tree) (clear : σ → Prop) (s : Session) (b : Bench σ) : Prop where
  nowhere : s.directory = none
  counted : Counted s
  tree : b.tree = t
  wire : clear b.wire

theorem recorded_of_unsaved (nowhere : s.directory = none) (t : Tree) : s.recorded t = [] := by
  simp [recorded, requestsPath?, nowhere]

/-- Without a directory, the highest number is that of the last request. -/
theorem Counted.highest_eq (h : Counted s) (nowhere : s.directory = none) (t : Tree) :
    s.highest t = s.executed.length := by
  have numbered : ∀ {e}, e ∈ s.executed → e.identifier ∈ List.range' 1 s.executed.length := by
    intro e he
    rw [← h]
    exact List.mem_map_of_mem he
  refine Nat.le_antisymm (highest_le ?_ ?_) ?_
  · simp [recorded_of_unsaved nowhere]
  · intro e he
    have bound := List.mem_range'_1.mp (numbered he)
    omega
  · cases last : s.executed.getLast? with
    | none => simp [List.getLast?_eq_none_iff.mp last]
    | some e =>
      have least : e.identifier ≤ s.highest t :=
        le_highest_of_executed (List.mem_of_getLast? last)
      rw [List.getLast?_eq_getElem?] at last
      have number := h.getElem? last
      omega

/-- One more request with the next number is counted. -/
theorem Counted.concat {s' : Session} {e : Executed} (h : Counted s)
    (executed : s'.executed = s.executed ++ [e]) (next : e.identifier = s.executed.length + 1) :
    Counted s' := by
  unfold Counted at h ⊢
  rw [executed, List.map_append, h, List.length_append, List.map_singleton, next,
    List.length_singleton, List.range'_1_concat, Nat.add_comm 1]

namespace OffDisk

variable {clear : σ → Prop}

section

variable (quiet : transport.OnlyDumps)
  (keeps : ∀ d wire t, clear wire → clear (transport d none wire t).2.1)

include quiet keeps

theorem perform (h : OffDisk t clear s b) (ref : ActionRef) (o : BuildOptions) :
    OffDisk t clear (perform transport s ref o b).2.1 (perform transport s ref o b).2.2 := by
  have course := perform_of_unsaved h.nowhere transport ref o b
  generalize Session.perform transport s ref o b = outcome at course ⊢
  cases course with
  | unprepared => exact h
  | @done p answer wire after notices prepared sent =>
    obtain ⟨built, number, -, next, rfl⟩ := prepare_eq_ok.mp prepared
    obtain ⟨next, -⟩ := nextIdentifier_eq_ok.mp next
    rw [h.counted.highest_eq h.nowhere] at next
    have untouched := (quiet built.descriptor none b.wire b.tree).eq_of_none
    have wanted := keeps built.descriptor b.wire b.tree h.wire
    rw [sent] at untouched wanted
    exact ⟨h.nowhere, h.counted.concat rfl next, untouched.trans h.tree, wanted⟩

theorem performSteps (h : OffDisk t clear s b) (steps : List ActionRef) :
    OffDisk t clear (performSteps transport steps s b).2.1
      (performSteps transport steps s b).2.2 := by
  induction steps generalizing s b with
  | nil => exact h
  | cons step rest ih =>
    have first := h.perform quiet keeps step .none
    unfold Session.performSteps
    generalize Session.perform transport s step .none b = one at first ⊢
    obtain ⟨outcome, s', b'⟩ := one
    cases outcome with
    | error e => exact first
    | ok executed =>
      have others := ih first
      dsimp only at others ⊢
      generalize Session.performSteps transport rest s' b' = more at others ⊢
      obtain ⟨outcome, s'', b''⟩ := more
      cases outcome <;> exact others

theorem performFlow (h : OffDisk t clear s b) (name : String) :
    OffDisk t clear (performFlow transport s name b).2.1 (performFlow transport s name b).2.2 := by
  unfold Session.performFlow
  cases s.project.flow b.tree name with
  | error e => exact h
  | ok flow =>
    have begun : OffDisk t clear s (b.note .info (flowText flow)) :=
      ⟨h.nowhere, h.counted, h.tree, h.wire⟩
    have steps := begun.performSteps quiet keeps flow.steps
    dsimp only
    generalize Session.performSteps transport flow.steps s (b.note .info (flowText flow)) = run
      at steps ⊢
    obtain ⟨outcome, s', b'⟩ := run
    cases outcome <;> exact steps

/-- Whatever is done, a session without a directory stays off the disk. -/
theorem operate (h : OffDisk t clear s b) (op : Operation) :
    OffDisk t clear (operate transport s b op).1 (operate transport s b op).2 := by
  unfold Session.operate
  cases op with
  | set name v => exact ⟨h.nowhere, h.counted, h.tree, h.wire⟩
  | merge vars => exact ⟨h.nowhere, h.counted, h.tree, h.wire⟩
  | save =>
    have same : (s.save b.tree).2 = t := by
      rw [save_of_unsaved h.nowhere, h.tree]
    exact ⟨h.nowhere, h.counted, same, h.wire⟩
  | perform ref o => exact h.perform quiet keeps ref o
  | performFlow name => exact h.performFlow quiet keeps name

theorem operateAll (h : OffDisk t clear s b) (ops : List Operation) :
    OffDisk t clear (operateAll transport ops s b).1 (operateAll transport ops s b).2 := by
  induction ops generalizing s b with
  | nil => exact h
  | cons op rest ih => exact ih (h.operate quiet keeps op)

end

end OffDisk

theorem handed_of_unsaved (quiet : transport.OnlyDumps) (nowhere : s.directory = none)
    (counted : Counted s) (ops : List Operation) (b : Bench σ) :
    ∀ dumps ∈ handed transport ops s b, dumps = none := by
  have start : OffDisk b.tree
      (fun wire : σ × List (Option DumpPaths) => ∀ dumps ∈ wire.2, dumps = none) s
      ⟨b.tree, (b.wire, []), b.notices⟩ :=
    ⟨nowhere, counted, rfl, by simp⟩
  refine (start.operateAll quiet.watched ?_ ops).wire
  intro d wire t clear dumps hdumps
  rcases List.mem_append.mp hdumps with before | last
  · exact clear dumps before
  · exact List.mem_singleton.mp last

end Session

end Runbook
