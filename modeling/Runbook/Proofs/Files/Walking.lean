import Mathlib.Data.List.Induction
import Runbook.Proofs.Files.Growth

set_option autoImplicit false
set_option relaxedAutoImplicit false

/-!
Where steps lead. A walk that can be taken ends where its steps alone say, and it can still be taken
after the tree has grown. What is not said by the steps alone is whether a step upward is possible:
a path is grounded in a tree if each of its steps upward leaves a directory that is there.
-/

namespace Runbook.Files

/-- Where a step leads, if it can be taken. -/
def Location.enter (here : Location) (step : String) : Location :=
  if step = "." then here else if step = ".." then here.dropLast else here ++ [step]

/-- Where steps lead, if they can be taken. -/
def Location.walk (here : Location) (steps : List String) : Location :=
  steps.foldl Location.enter here

/-- Whether a step is not too long to be taken. -/
def IsShort (step : String) : Prop :=
  step = "." ∨ step = ".." ∨ step.utf8ByteSize ≤ Tree.maxNameLength

/-- Whether each step upward leaves a directory that is there. -/
def Tree.Grounded (t : Tree) (steps : List String) : Prop :=
  ∀ before, before ++ [".."] <+: steps → t.standing (Location.walk [] before) = .directory

namespace Location

@[simp] theorem walk_nil (here : Location) : walk here [] = here := rfl

@[simp] theorem walk_append (here : Location) (first rest : List String) :
    walk here (first ++ rest) = walk (walk here first) rest := by
  simp [walk]

@[simp] theorem walk_singleton (here : Location) (step : String) :
    walk here [step] = enter here step :=
  rfl

@[simp] theorem walk_cons (here : Location) (step : String) (rest : List String) :
    walk here (step :: rest) = walk (enter here step) rest :=
  rfl

/-- Steps that stay where they are do not matter. -/
theorem walk_filter (here : Location) (steps : List String) :
    walk here (steps.filter (· != ".")) = walk here steps := by
  induction steps generalizing here with
  | nil => rfl
  | cons step rest ih =>
    by_cases stays : step = "."
    · simp [stays, ih, enter]
    · simp [stays, ih]

end Location

namespace Tree

open Location (walk enter)

variable {t u : Tree} {here l : Location} {steps : List String} {step : String}

private theorem locateFrom_cons_of_directory (h : t.standing here = .directory) :
    t.locateFrom here (step :: steps) =
      if step ≠ "." ∧ step ≠ ".." ∧ maxNameLength < step.utf8ByteSize then .error .nameTooLong
      else t.locateFrom (enter here step) steps := by
  obtain ⟨es, h⟩ := standing_eq_directory.mp h
  rw [locateFrom, h]
  unfold enter
  by_cases stays : step = "."
  · simp [stays]
  · by_cases climbs : step = ".."
    · simp [climbs]
    · by_cases long : maxNameLength < step.utf8ByteSize <;> simp [stays, climbs, long]

private theorem locateFrom_cons_of_not_directory (h : t.standing here ≠ .directory) (step : String)
    (steps : List String) :
    t.locateFrom here (step :: steps) =
      .error (if t.standing here = .nothing then .missing else .notADirectory) := by
  rw [locateFrom]
  unfold standing at h ⊢
  cases hl : t.at? here with
  | none => rfl
  | some node =>
    cases node with
    | file content => rfl
    | directory es => simp [hl, Node.standing] at h

/-- A first step can be taken from a directory. -/
theorem locateFrom_cons_eq_ok : t.locateFrom here (step :: steps) = .ok l ↔
    t.standing here = .directory ∧ IsShort step ∧ t.locateFrom (enter here step) steps = .ok l := by
  by_cases inside : t.standing here = .directory
  · rw [locateFrom_cons_of_directory inside]
    unfold IsShort
    by_cases short : step = "." ∨ step = ".." ∨ step.utf8ByteSize ≤ maxNameLength
    · have taken : ¬ (step ≠ "." ∧ step ≠ ".." ∧ maxNameLength < step.utf8ByteSize) := by
        rintro ⟨stays, climbs, long⟩
        rcases short with h | h | h
        · exact stays h
        · exact climbs h
        · omega
      simp [taken, inside, short]
    · have refused : step ≠ "." ∧ step ≠ ".." ∧ maxNameLength < step.utf8ByteSize := by
        simpa only [not_or, Nat.not_le] using short
      rw [if_pos refused]
      exact iff_of_false (by simp) fun h => short h.2.1
  · rw [locateFrom_cons_of_not_directory inside]
    simp [inside]

theorem locateFrom_append_eq_ok {first rest : List String} :
    t.locateFrom here (first ++ rest) = .ok l ↔
      ∃ m, t.locateFrom here first = .ok m ∧ t.locateFrom m rest = .ok l := by
  induction first generalizing here with
  | nil => simp [locateFrom]
  | cons step first ih =>
    rw [List.cons_append]
    simp only [locateFrom_cons_eq_ok, ih]
    constructor
    · rintro ⟨inside, short, m, hm, hl⟩
      exact ⟨m, ⟨inside, short, hm⟩, hl⟩
    · rintro ⟨m, ⟨inside, short, hm⟩, hl⟩
      exact ⟨inside, short, m, hm, hl⟩

/-- A last step can be taken from a directory. -/
theorem locateFrom_concat_eq_ok : t.locateFrom here (steps ++ [step]) = .ok l ↔
    ∃ m, t.locateFrom here steps = .ok m ∧ t.standing m = .directory ∧ IsShort step ∧
      l = enter m step := by
  rw [locateFrom_append_eq_ok]
  simp only [locateFrom_cons_eq_ok]
  simp only [locateFrom, Except.ok.injEq, eq_comm (b := l)]

/-- A walk that can be taken ends where its steps say. -/
theorem eq_walk_of_locateFrom (h : t.locateFrom here steps = .ok l) : l = walk here steps := by
  induction steps generalizing here with
  | nil => simpa [locateFrom] using h.symm
  | cons step steps ih =>
    obtain ⟨-, -, h⟩ := locateFrom_cons_eq_ok.mp h
    exact ih h

/-- A walk can still be taken where all directories stay. -/
theorem locateFrom_mono (stay : ∀ l, t.standing l = .directory → u.standing l = .directory)
    (h : t.locateFrom here steps = .ok l) : u.locateFrom here steps = .ok l := by
  induction steps generalizing here with
  | nil => simpa [locateFrom] using h
  | cons step steps ih =>
    obtain ⟨inside, short, h⟩ := locateFrom_cons_eq_ok.mp h
    exact locateFrom_cons_eq_ok.mpr ⟨stay here inside, short, ih h⟩

theorem isShort_of_locateFrom (h : t.locateFrom here steps = .ok l) :
    ∀ step ∈ steps, IsShort step := by
  induction steps generalizing here with
  | nil => simp
  | cons step steps ih =>
    obtain ⟨-, short, h⟩ := locateFrom_cons_eq_ok.mp h
    intro other member
    rcases List.mem_cons.mp member with rfl | member
    · exact short
    · exact ih h other member

/-- Before a step that is taken, a step that stays where it is does not matter. -/
theorem locateFrom_filter (name : String) :
    t.locateFrom here (steps.filter (· != ".") ++ [name]) =
      t.locateFrom here (steps ++ [name]) := by
  induction steps generalizing here with
  | nil => rfl
  | cons step rest ih =>
    by_cases inside : t.standing here = .directory
    · by_cases stays : step = "."
      · subst stays
        rw [List.filter_cons_of_neg (by simp), List.cons_append,
          locateFrom_cons_of_directory inside]
        simpa [enter] using ih
      · rw [List.filter_cons_of_pos (by simpa using stays), List.cons_append, List.cons_append,
          locateFrom_cons_of_directory inside, locateFrom_cons_of_directory inside, ih]
    · obtain ⟨first, others, nonempty⟩ :
          ∃ first others, (step :: rest).filter (· != ".") ++ [name] = first :: others :=
        List.exists_cons_of_ne_nil (by simp)
      rw [nonempty, List.cons_append, locateFrom_cons_of_not_directory inside,
        locateFrom_cons_of_not_directory inside]

/-- A walk that does not end at the root or at a directory ends right below a directory. -/
theorem exists_inside_of_locateFrom (h : t.locateFrom [] steps = .ok l)
    (free : t.standing l ≠ .directory) (below : l ≠ []) :
    ∃ m name, l = m ++ [name] ∧ t.standing m = .directory := by
  rcases List.eq_nil_or_concat' steps with rfl | ⟨steps, step, rfl⟩
  · simp only [locateFrom, Except.ok.injEq] at h
    exact absurd h.symm below
  obtain ⟨m, -, inside, -, rfl⟩ := locateFrom_concat_eq_ok.mp h
  unfold enter at free ⊢
  split_ifs at free ⊢ with stays climbs
  · exact absurd inside free
  · rcases List.eq_nil_or_concat' m with rfl | ⟨m, name, rfl⟩
    · exact absurd inside free
    · rw [List.dropLast_concat] at free
      exact absurd (directory_above inside) free
  · exact ⟨m, step, rfl, inside⟩

theorem Grounded.of_prefix {before : List String} (h : t.Grounded steps) (hb : before <+: steps) :
    t.Grounded before :=
  fun other ho => h other (ho.trans hb)

theorem Grounded.mono (stay : ∀ l, t.standing l = .directory → u.standing l = .directory)
    (h : t.Grounded steps) : u.Grounded steps :=
  fun before hb => stay _ (h before hb)

/-- A path that can be walked is grounded. -/
theorem grounded_of_locateFrom (h : t.locateFrom [] steps = .ok l) : t.Grounded steps := by
  rintro before ⟨rest, rfl⟩
  rw [List.append_assoc] at h
  obtain ⟨m, hm, h⟩ := locateFrom_append_eq_ok.mp h
  obtain rfl := eq_walk_of_locateFrom hm
  rw [List.singleton_append] at h
  exact (locateFrom_cons_eq_ok.mp h).1

/-- A path without steps upward is grounded in every tree. -/
theorem grounded_of_descending (t : Tree) (h : ".." ∉ steps) : t.Grounded steps := by
  rintro before ⟨rest, rfl⟩
  simp at h

/-- A grounded path to a directory can be walked. -/
theorem Grounded.locateFrom (h : t.Grounded steps) (short : ∀ step ∈ steps, IsShort step)
    (inside : t.standing (walk [] steps) = .directory) :
    t.locateFrom [] steps = .ok (walk [] steps) := by
  induction steps using List.reverseRecOn with
  | nil => simp [Tree.locateFrom]
  | append_singleton steps step ih =>
    have before : t.standing (walk [] steps) = .directory := by
      by_cases stays : step = "."
      · simpa [stays, enter] using inside
      by_cases climbs : step = ".."
      · subst climbs
        exact h steps (List.prefix_refl _)
      · have deeper : t.standing (walk [] steps ++ [step]) = .directory := by
          simpa [stays, climbs, enter] using inside
        exact directory_above deeper
    have walked := ih (h.of_prefix (List.prefix_append _ _))
      (fun other member => short other (by simp [member])) before
    rw [Location.walk_append]
    exact locateFrom_concat_eq_ok.mpr ⟨_, walked, before, short step (by simp), rfl⟩

/-- A grounded path never again leaves a place that it passes and where nothing stands. -/
theorem Grounded.walk_prefix {before : List String} (h : t.Grounded steps) (hb : before <+: steps)
    (free : t.standing (walk [] before) = .nothing) : walk [] before <+: walk [] steps := by
  obtain ⟨rest, rfl⟩ := hb
  induction rest using List.reverseRecOn with
  | nil => simp
  | append_singleton rest step ih =>
    rw [← List.append_assoc] at h ⊢
    have passed := ih (h.of_prefix (List.prefix_append _ _))
    rw [Location.walk_append, Location.walk_singleton, enter]
    split_ifs with stays climbs
    · exact passed
    · subst climbs
      have inside := h (before ++ rest) (List.prefix_refl _)
      obtain ⟨deeper, hd⟩ := passed
      rw [← hd] at inside
      rw [directory_above inside] at free
      cases free
    · exact passed.trans (List.prefix_append _ _)

end Tree

end Runbook.Files
