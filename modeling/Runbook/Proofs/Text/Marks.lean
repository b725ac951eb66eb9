import Mathlib.Data.List.Infix

set_option autoImplicit false
set_option relaxedAutoImplicit false

/-!
Lists cut where two given items stand side by side. Lines that hold no such pair and are put
together with it between them are cut apart again; so is what stands behind a doubled pair, if no
line before it is empty.
-/

namespace Runbook.Text

variable {α : Type} [DecidableEq α]

/-- A list cut at the first place where a mark stands, a mark being not empty. -/
def cutAt? (mark : List α) : List α → Option (List α × List α)
  | [] => none
  | x :: xs =>
    if mark <+: x :: xs then some ([], (x :: xs).drop mark.length)
    else (cutAt? mark xs).map fun cut => (x :: cut.1, cut.2)

/-- The lines of a list, a line ending wherever two items stand side by side. -/
def linesBy (a b : α) : List α → List (List α)
  | [] => [[]]
  | [x] => [[x]]
  | x :: y :: rest =>
    if x = a ∧ y = b then [] :: linesBy a b rest
    else (linesBy a b (y :: rest)).modifyHead (x :: ·)

section Pair

variable {a b x : α} {mark line xs ys rest : List α}

omit [DecidableEq α] in
theorem not_infix_of_notMem (h : a ∉ xs) : ¬ a :: mark <:+: xs := by
  intro within
  exact h (within.subset List.mem_cons_self)

omit [DecidableEq α] in
/-- A mark that begins in no item of the first part stands in the second one. -/
theorem infix_of_notMem (absent : a ∉ xs) (h : a :: mark <:+: xs ++ ys) : a :: mark <:+: ys := by
  induction xs with
  | nil => exact h
  | cons x xs ih =>
    rcases List.infix_cons_iff.mp h with here | later
    · obtain ⟨rfl, -⟩ := List.cons_prefix_cons.mp here
      exact absurd List.mem_cons_self absent
    · exact ih (fun inside => absent (List.mem_cons_of_mem x inside)) later

omit [DecidableEq α] in
/-- An item that is not of the pair keeps what stands before it and behind it apart. -/
theorem not_infix_append_cons (first : x ≠ a) (second : x ≠ b) (left : ¬ [a, b] <:+: xs)
    (right : ¬ [a, b] <:+: ys) : ¬ [a, b] <:+: xs ++ x :: ys := by
  induction xs with
  | nil =>
    intro within
    rcases List.infix_cons_iff.mp within with here | later
    · exact first (List.cons_prefix_cons.mp here).1.symm
    · exact right later
  | cons d xs ih =>
    intro within
    rw [List.cons_append] at within
    rcases List.infix_cons_iff.mp within with here | later
    · obtain ⟨rfl, next⟩ := List.cons_prefix_cons.mp here
      cases xs with
      | nil => exact second (List.cons_prefix_cons.mp next).1.symm
      | cons e xs =>
        obtain ⟨rfl, -⟩ := List.cons_prefix_cons.mp next
        exact left ⟨[], xs, rfl⟩
    · exact ih (fun inside => left (List.infix_cons inside)) later

omit [DecidableEq α] in
/-- The pair begins nowhere in a line without it, even if its first item comes next. -/
theorem not_prefix_of_free (apart : a ≠ b) (free : ¬ [a, b] <:+: x :: line) (mark rest : List α) :
    ¬ a :: b :: mark <+: x :: (line ++ a :: rest) := by
  intro here
  obtain ⟨rfl, next⟩ := List.cons_prefix_cons.mp here
  cases line with
  | nil => exact apart (List.cons_prefix_cons.mp next).1.symm
  | cons y line =>
    obtain ⟨rfl, -⟩ := List.cons_prefix_cons.mp next
    exact free ⟨[], line, rfl⟩

theorem cutAt?_append (apart : a ≠ b) (free : ¬ [a, b] <:+: line) :
    cutAt? (a :: b :: mark) (line ++ a :: rest) =
      (cutAt? (a :: b :: mark) (a :: rest)).map fun cut => (line ++ cut.1, cut.2) := by
  induction line with
  | nil => simp
  | cons x line ih =>
    have later := ih fun within => free (List.infix_cons within)
    rw [List.cons_append, cutAt?, if_neg (not_prefix_of_free apart free mark rest), later,
      Option.map_map]
    rfl

theorem cutAt?_mark (a : α) (mark rest : List α) :
    cutAt? (a :: mark) (a :: mark ++ rest) = some ([], rest) := by
  have here : a :: mark <+: a :: (mark ++ rest) := List.prefix_append (a :: mark) rest
  rw [List.cons_append, cutAt?, if_pos here]
  simp

/-- A pair that the rest of the mark does not follow is passed over. -/
theorem cutAt?_pass (apart : a ≠ b) (other : ¬ mark <+: rest) :
    cutAt? (a :: b :: mark) (a :: b :: rest) =
      (cutAt? (a :: b :: mark) rest).map fun cut => (a :: b :: cut.1, cut.2) := by
  have nowhere : ¬ a :: b :: mark <+: a :: b :: rest := by
    simpa [List.cons_prefix_cons] using other
  have between : ¬ a :: b :: mark <+: b :: rest := fun here =>
    apart (List.cons_prefix_cons.mp here).1
  rw [cutAt?, if_neg nowhere, cutAt?, if_neg between, Option.map_map]
  rfl

/-- A text of two parts is cut where the pair between them stands. -/
theorem cutAt?_pair (apart : a ≠ b) (free : ¬ [a, b] <:+: line) (rest : List α) :
    cutAt? [a, b] (line ++ a :: b :: rest) = some (line, rest) := by
  have here := cutAt?_mark a [b] rest
  rw [List.cons_append, List.singleton_append] at here
  rw [cutAt?_append apart free, here, Option.map_some, List.append_nil]

theorem linesBy_eq_singleton (free : ¬ [a, b] <:+: line) : linesBy a b line = [line] := by
  fun_induction linesBy a b line with
  | case1 => rfl
  | case2 x => rfl
  | case3 x y rest pair => exact absurd ⟨[], rest, by simp [pair]⟩ free
  | case4 x y rest _ ih =>
    rw [ih fun within => free (List.infix_cons within), List.modifyHead_cons]

theorem linesBy_append (apart : a ≠ b) (free : ¬ [a, b] <:+: line) (rest : List α) :
    linesBy a b (line ++ a :: b :: rest) = line :: linesBy a b rest := by
  induction line with
  | nil => simp [linesBy]
  | cons x line ih =>
    have later := ih fun within => free (List.infix_cons within)
    have nowhere := not_prefix_of_free apart free [] (b :: rest)
    obtain ⟨y, ys, whole⟩ := List.exists_cons_of_ne_nil (l := line ++ a :: b :: rest) (by simp)
    rw [whole] at later nowhere
    have other : ¬ (x = a ∧ y = b) := by
      rintro ⟨rfl, rfl⟩
      exact nowhere ⟨ys, rfl⟩
    rw [List.cons_append, whole, linesBy, if_neg other, later, List.modifyHead_cons]

end Pair

section Lines

variable {a b : α} {line : List α} {lines : List (List α)}

/-- Lines without the pair, put together with it, are told apart again. The induction is on the
lines, each of which ends where the next one begins. -/
theorem linesBy_intercalate (apart : a ≠ b) (free : ∀ l ∈ line :: lines, ¬ [a, b] <:+: l) :
    linesBy a b ([a, b].intercalate (line :: lines)) = line :: lines := by
  induction lines generalizing line with
  | nil => simpa [List.intercalate] using linesBy_eq_singleton (free line List.mem_cons_self)
  | cons next lines ih =>
    obtain ⟨here, later⟩ := List.forall_mem_cons.mp free
    rw [List.intercalate_cons_cons, List.append_assoc, List.cons_append, List.singleton_append,
      linesBy_append apart here, ih later]

example : linesBy 13 10 [1, 10, 13, 10, 13, 13, 10, 2] = [[1, 10], [13], [2]] := by decide

/-- The doubled pair stands for the first time behind the lines, of which only the first one may be
empty. -/
theorem cutAt?_lines (apart : a ≠ b) (free : ∀ l ∈ line :: lines, ¬ [a, b] <:+: l)
    (full : [] ∉ lines) (rest : List α) :
    cutAt? [a, b, a, b] ((line :: lines).flatMap (· ++ [a, b]) ++ a :: b :: rest) =
      some ([a, b].intercalate (line :: lines), rest) := by
  induction lines generalizing line with
  | nil =>
    have here := cutAt?_mark a [b, a, b] rest
    have alone := free line List.mem_cons_self
    simp only [List.cons_append, List.nil_append] at here
    simp only [List.flatMap_cons, List.flatMap_nil, List.append_nil, List.append_assoc,
      List.cons_append, List.nil_append]
    rw [cutAt?_append apart alone, here]
    simp [List.intercalate]
  | cons next lines ih =>
    obtain ⟨here, later⟩ := List.forall_mem_cons.mp free
    have shorter := ih later fun member => full (List.mem_cons_of_mem next member)
    obtain ⟨x, xs, rfl⟩ := List.exists_cons_of_ne_nil fun empty : next = [] =>
      full (empty ▸ List.mem_cons_self)
    have other := not_prefix_of_free apart (later _ List.mem_cons_self) []
      (b :: (lines.flatMap (· ++ [a, b]) ++ a :: b :: rest))
    simp only [List.flatMap_cons, List.append_assoc, List.cons_append, List.nil_append]
      at shorter ⊢
    rw [cutAt?_append apart here, cutAt?_pass apart other, shorter, Option.map_some,
      Option.map_some, List.intercalate_cons_cons, List.append_assoc]
    rfl

end Lines

end Runbook.Text
