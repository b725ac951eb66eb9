import Mathlib.Data.List.TakeWhile
import Runbook.Proofs.Files.Joining
import Runbook.Proofs.Text.Trimming
import Runbook.Session.Record

set_option autoImplicit false
set_option relaxedAutoImplicit false

/-!
The numbers of records. The name of the directory of a request is a plain one and gives back the
number and the action; the next number is above all that are recorded or were executed; and a record
with such a number comes after all others.
-/

namespace Runbook

open Runbook.Files

/-- A text of digits alone has no sign. -/
theorem Text.natural?_of_digits {bound n : Nat} {ds : List Char}
    (digits : ∀ c ∈ ds, c.isDigit = true) :
    Text.natural? bound ds = some n ↔ ds ≠ [] ∧ Text.decimal ds = n ∧ n < bound := by
  rw [Text.natural?_eq_some]
  constructor
  · rintro ⟨sign, written, rfl, rfl | rfl, some, -, rest⟩
    · exact ⟨some, rest⟩
    · have plus := digits '+' List.mem_cons_self
      cases plus
  · rintro ⟨some, rest⟩
    exact ⟨[], ds, rfl, .inl rfl, some, digits, rest⟩

theorem Text.natural?_toDigits {bound n : Nat} (h : n < bound) :
    Text.natural? bound (Nat.toDigits 10 n) = some n :=
  (Text.natural?_of_digits fun _ hc => Nat.isDigit_of_mem_toDigits (by decide) (by decide) hc).mpr
    ⟨Nat.toDigits_ne_nil, Text.decimal_toDigits n, h⟩

namespace Recorded

/-- Whether a text begins with digits, all those that stand at its front, before a rest. -/
structure Numbered (text digits rest : List Char) : Prop where
  whole : text = digits ++ rest
  nonempty : digits ≠ []
  digits : ∀ c ∈ digits, c.isDigit = true
  longest : ∀ c, rest.head? = some c → c.isDigit = false

variable {text digits rest : List Char}

theorem numbered_of_takeWhile (some : text.takeWhile Char.isDigit ≠ []) :
    Numbered text (text.takeWhile Char.isDigit) (text.dropWhile Char.isDigit) :=
  ⟨List.takeWhile_append_dropWhile.symm, some, List.all_eq_true.mp List.all_takeWhile,
    fun _ first => Text.head?_dropWhile first⟩

/-- There is one way to take the digits from the front of a text. -/
theorem Numbered.cut (h : Numbered text digits rest) :
    text.takeWhile Char.isDigit = digits ∧ text.dropWhile Char.isDigit = rest := by
  obtain ⟨rfl, -, all, longest⟩ := h
  rw [List.takeWhile_append_of_pos all, List.dropWhile_append_of_pos all]
  cases rest with
  | nil => simp
  | cons c rest => simp [longest c rfl]

/-- What stands behind a dash, or all if there is none in front. -/
def BehindDash (rest action : List Char) : Prop :=
  rest = '-' :: action ∨ rest = action ∧ rest.head? ≠ some '-'

theorem exists_behindDash (rest : List Char) : ∃ action, BehindDash rest action := by
  by_cases dash : rest.head? = some '-'
  · obtain ⟨action, rfl⟩ := List.head?_eq_some_iff.mp dash
    exact ⟨action, .inl rfl⟩
  · exact ⟨rest, .inr ⟨rfl, dash⟩⟩

/-- The name of a directory is read as a number and an action if and only if it begins with digits
that write a number of 32 bits. -/
theorem parseName?_eq_some {name action : String} {n : Nat} :
    parseName? name = some (n, action) ↔ ∃ digits rest, Numbered name.toList digits rest ∧
      Text.decimal digits = n ∧ n < Text.bound32 ∧ BehindDash rest action.toList := by
  have all : ∀ c ∈ name.toList.takeWhile Char.isDigit, c.isDigit = true :=
    List.all_eq_true.mp List.all_takeWhile
  unfold parseName?
  simp only [Option.bind_eq_bind, Option.bind_eq_some_iff, Option.pure_def, Option.some.injEq,
    Prod.mk.injEq, Text.natural?_of_digits all, ← String.toList_inj, String.toList_ofList]
  constructor
  · rintro ⟨_, ⟨some, written, below⟩, rfl, read⟩
    refine ⟨_, _, numbered_of_takeWhile some, written, below, ?_⟩
    split at read
    · next rest dashed => exact .inl (by rw [dashed, read])
    · next other =>
      refine .inr ⟨read, ?_⟩
      intro dash
      obtain ⟨rest, dashed⟩ := List.head?_eq_some_iff.mp dash
      exact other rest dashed
  · rintro ⟨digits, rest, numbered, written, below, behind⟩
    obtain ⟨rfl, rfl⟩ := numbered.cut
    refine ⟨n, ⟨numbered.nonempty, written, below⟩, rfl, ?_⟩
    split
    · next rest dashed =>
      rcases behind with same | ⟨-, other⟩
      · exact (List.cons.inj (dashed.symm.trans same)).2
      · exact absurd (List.head?_eq_some_iff.mpr ⟨rest, dashed⟩) other
    · next other =>
      rcases behind with same | ⟨same, -⟩
      · exact absurd same (other _)
      · exact same

theorem toList_directoryName (n : Nat) (action : String) :
    (directoryName n action).toList = Nat.toDigits 10 n ++ '-' :: (safeName action).toList := by
  have number : toString n = n.repr := rfl
  simp [directoryName, number]

theorem isDigit_of_mem_toDigits {n : Nat} {c : Char} (h : c ∈ Nat.toDigits 10 n) :
    c.isDigit = true :=
  Nat.isDigit_of_mem_toDigits (by decide) (by decide) h

/-- The dash keeps the number apart from an action that begins with digits itself. -/
theorem numbered_directoryName (n : Nat) (action : String) : Numbered
    (directoryName n action).toList (Nat.toDigits 10 n) ('-' :: (safeName action).toList) where
  whole := toList_directoryName n action
  nonempty := Nat.toDigits_ne_nil
  digits _ member := isDigit_of_mem_toDigits member
  longest c first := by
    obtain rfl := Option.some.inj first
    rfl

/-- The name of a directory gives back its number and the name of its action. -/
theorem parseName?_directoryName {n : Nat} (h : n < Text.bound32) (action : String) :
    parseName? (directoryName n action) = some (n, safeName action) :=
  parseName?_eq_some.mpr ⟨_, _, numbered_directoryName n action, Text.decimal_toDigits n, h, .inl rfl⟩

private theorem isDigit_ne_slash {c : Char} (h : c.isDigit = true) : c ≠ '/' := by
  rintro rfl
  simp at h

private theorem safeChar_ne_slash (c : Char) : safeChar c ≠ '/' := by
  unfold safeChar
  split_ifs with safe
  · rintro rfl
    simp at safe
  · decide

/-- The name of a directory is plain. -/
theorem plain_directoryName (n : Nat) (action : String) : Plain (directoryName n action) := by
  have dash : '-' ∈ (directoryName n action).toList := by
    rw [toList_directoryName]
    simp
  have differs : ∀ name : String, '-' ∉ name.toList → directoryName n action ≠ name := by
    intro name absent same
    exact absent (same ▸ dash)
  refine ⟨differs _ (by decide), ?_, differs _ (by decide), differs _ (by decide)⟩
  intro slash
  rw [toList_directoryName] at slash
  rcases List.mem_append.mp slash with digit | rest
  · exact isDigit_ne_slash (isDigit_of_mem_toDigits digit) rfl
  · rcases List.mem_cons.mp rest with separator | safe
    · exact absurd separator (by decide)
    · simp only [safeName, String.toList_ofList, List.mem_map] at safe
      obtain ⟨c, -, hc⟩ := safe
      exact safeChar_ne_slash c hc

end Recorded

section Sorting

variable {α : Type} {le : α → α → Bool}

/-- An item that no other one comes after is sorted to the end. -/
theorem mergeSort_concat (trans : ∀ a b c, le a b → le b c → le a c)
    (total : ∀ a b, le a b || le b a) {xs : List α} {x : α} (last : ∀ a ∈ xs, le a x = true) :
    (xs ++ [x]).mergeSort le = xs.mergeSort le ++ [x] := by
  induction xs with
  | nil => simp
  | cons a xs ih =>
    have others := ih fun b hb => last b (List.mem_cons_of_mem a hb)
    obtain ⟨front, back, whole, rest, before⟩ := List.mergeSort_cons trans total a (xs ++ [x])
    obtain ⟨front', back', whole', rest', before'⟩ := List.mergeSort_cons trans total a xs
    have sorted := List.pairwise_mergeSort trans total (a :: (xs ++ [x]))
    have sorted' := List.pairwise_mergeSort trans total (a :: xs)
    rw [whole] at sorted
    rw [whole'] at sorted'
    have after := (List.pairwise_cons.mp (List.pairwise_append.mp sorted).2.1).1
    have after' := (List.pairwise_cons.mp (List.pairwise_append.mp sorted').2.1).1
    -- Both cut the same list before the first item that `a` may come before.
    have cut : front = front' ∧ back = back' ++ [x] := by
      have same : front ++ back = front' ++ (back' ++ [x]) := by
        rw [← rest, others, rest', List.append_assoc]
      have stops : ∀ b ∈ back' ++ [x], (!le a b) = false := by
        intro b hb
        rcases List.mem_append.mp hb with hb | hb
        · simp [after' b hb]
        · obtain rfl := List.mem_singleton.mp hb
          simp [last a List.mem_cons_self]
      have stops' : ∀ b ∈ back, (!le a b) = false := by
        intro b hb
        simp [after b hb]
      have taken : ∀ {first second : List α}, (∀ b ∈ first, (!le a b) = true) →
          (∀ b ∈ second, (!le a b) = false) →
          (first ++ second).takeWhile (fun b => !le a b) = first := by
        intro first second all none
        rw [List.takeWhile_append_of_pos all]
        cases second with
        | nil => simp
        | cons b second => simp [none b List.mem_cons_self]
      have fronts : front = front' := by
        rw [← taken before stops', same, taken before' stops]
      exact ⟨fronts, List.append_cancel_left (fronts ▸ same)⟩
    obtain ⟨rfl, rfl⟩ := cut
    rw [List.cons_append, whole, whole']
    simp

end Sorting

/-- The records of the session in a directory, in order of their numbers. -/
def recordsIn (dir : Path) (t : Tree) : List Recorded :=
  ((t.directoriesOf (dir.join "requests")).filterMap
    (Recorded.ofDirectory? (dir.join "requests"))).mergeSort fun a b =>
      decide (a.identifier ≤ b.identifier)

namespace Session

variable {s : Session} {t : Tree} {dir : Path}

theorem recorded_eq (h : s.directory = some dir) (t : Tree) : s.recorded t = recordsIn dir t := by
  simp [recorded, requestsPath?, h, recordsIn]

theorem mem_recordsIn {r : Recorded} : r ∈ recordsIn dir t ↔
    ∃ name ∈ t.directoriesOf (dir.join "requests"),
      Recorded.ofDirectory? (dir.join "requests") name = some r := by
  simp [recordsIn]

private theorem le_foldl_max {ns : List Nat} {n m : Nat} (h : n ∈ ns ∨ n ≤ m) :
    n ≤ ns.foldl max m := by
  induction ns generalizing m with
  | nil => simpa using h
  | cons k ns ih =>
    rw [List.foldl_cons]
    apply ih
    rcases h with h | h
    · rcases List.mem_cons.mp h with rfl | h
      · exact .inr (Nat.le_max_right m n)
      · exact .inl h
    · exact .inr (Nat.le_trans h (Nat.le_max_left m k))

theorem le_highest_of_recorded {r : Recorded} (h : r ∈ s.recorded t) :
    r.identifier ≤ s.highest t :=
  le_foldl_max (.inl (List.mem_append_left _ (List.mem_map_of_mem h)))

theorem le_highest_of_executed {e : Executed} (h : e ∈ s.executed) :
    e.identifier ≤ s.highest t :=
  le_foldl_max (.inl (List.mem_append_right _ (List.mem_map_of_mem h)))

private theorem foldl_max_le {ns : List Nat} {n m : Nat} (start : m ≤ n) (h : ∀ k ∈ ns, k ≤ n) :
    ns.foldl max m ≤ n := by
  induction ns generalizing m with
  | nil => exact start
  | cons k ns ih =>
    exact ih (Nat.max_le.mpr ⟨start, h k List.mem_cons_self⟩)
      fun j hj => h j (List.mem_cons_of_mem k hj)

/-- The highest number is at most one that is above all of them. -/
theorem highest_le {n : Nat} (recorded : ∀ r ∈ s.recorded t, r.identifier ≤ n)
    (executed : ∀ e ∈ s.executed, e.identifier ≤ n) : s.highest t ≤ n := by
  refine foldl_max_le (Nat.zero_le n) fun k hk => ?_
  rcases List.mem_append.mp hk with hk | hk
  · obtain ⟨r, hr, rfl⟩ := List.mem_map.mp hk
    exact recorded r hr
  · obtain ⟨e, he, rfl⟩ := List.mem_map.mp hk
    exact executed e he

theorem nextIdentifier_eq_ok {n : Nat} :
    s.nextIdentifier t = .ok n ↔ n = s.highest t + 1 ∧ n < Text.bound32 := by
  unfold nextIdentifier
  split_ifs with fits
  · simp only [Except.ok.injEq]
    omega
  · simp only [false_iff]
    omega

/-- There is no number after the highest one of 32 bits. -/
theorem nextIdentifier_eq_error {e : Error} : s.nextIdentifier t = .error e ↔
    Text.bound32 ≤ s.highest t + 1 ∧ e = .invalidRequest (.identifiersExhausted s.name) := by
  unfold nextIdentifier
  split_ifs with fits
  · simp only [false_iff]
    omega
  · simp only [Except.error.injEq, eq_comm]
    constructor
    · rintro rfl
      exact ⟨Nat.le_of_not_lt fits, rfl⟩
    · exact fun h => h.2

/-- The numbers begin with one. -/
theorem nextIdentifier_of_nothing (place : s.directory = some dir)
    (recorded : t.directoriesOf (dir.join "requests") = []) (executed : s.executed = []) :
    s.nextIdentifier t = .ok 1 := by
  have lowest : s.highest t = 0 := by
    simp [highest, recorded_eq place, recordsIn, recorded, executed]
  exact nextIdentifier_eq_ok.mpr ⟨by rw [lowest], by decide⟩

end Session

end Runbook
