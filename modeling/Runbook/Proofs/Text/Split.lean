import Runbook.Text.Split

set_option autoImplicit false
set_option relaxedAutoImplicit false

/-!
Cutting a text that is put together from others.
-/

namespace Runbook.Text

theorem split_append_cut (cut : Char) (first rest : List Char) :
    split cut (first ++ cut :: rest) = split cut first ++ split cut rest := by
  induction first with
  | nil => simp [split, segments]
  | cons c first ih =>
    simp only [split] at ih ⊢
    obtain ⟨head, tail⟩ := List.cons.inj ih
    by_cases cuts : c = cut <;> simp [segments, cuts, head, tail]

theorem split_eq_singleton {cut : Char} {cs : List Char} (h : cut ∉ cs) : split cut cs = [cs] := by
  induction cs with
  | nil => rfl
  | cons c cs ih =>
    have kept : ¬ c = cut := by
      rintro rfl
      exact h List.mem_cons_self
    have rest := ih fun member => h (List.mem_cons_of_mem c member)
    simp only [split, List.cons.injEq] at rest
    simp [split, segments, kept, rest]

/-- Pieces with a cut before each are cut apart again. -/
theorem split_append_flatMap {cut : Char} {first : List Char} {rest : List (List Char)}
    (h : ∀ piece ∈ first :: rest, cut ∉ piece) :
    split cut (first ++ rest.flatMap (cut :: ·)) = first :: rest := by
  have head := split_eq_singleton (h first List.mem_cons_self)
  induction rest generalizing first with
  | nil => simpa using head
  | cons second rest ih =>
    have later : ∀ piece ∈ second :: rest, cut ∉ piece := fun piece member =>
      h piece (List.mem_cons_of_mem first member)
    rw [List.flatMap_cons, List.cons_append, split_append_cut, head,
      ih later (split_eq_singleton (later second List.mem_cons_self)), List.singleton_append]

theorem mem_of_mem_split {cut c : Char} {piece cs : List Char} (member : piece ∈ split cut cs)
    (h : c ∈ piece) : c ∈ cs := by
  rw [← intercalate_split cut cs]
  generalize split cut cs = pieces at member
  induction pieces with
  | nil => cases member
  | cons first rest ih =>
    cases rest with
    | nil =>
      obtain rfl := List.mem_singleton.mp member
      simpa [List.intercalate] using h
    | cons second rest =>
      rw [List.intercalate_cons_cons]
      rcases List.mem_cons.mp member with rfl | later
      · exact List.mem_append_left _ (List.mem_append_left _ h)
      · exact List.mem_append_right _ (ih later)

private theorem bne_of_notMem {cut : Char} {cs : List Char} (h : cut ∉ cs) :
    ∀ c ∈ cs, (c != cut) = true := by
  intro c member
  rw [bne_iff_ne]
  rintro rfl
  exact h member

/-- What stands before the character is all of a text in which it does not stand. -/
theorem takeWhile_eq_self {cut : Char} {cs : List Char} (h : cut ∉ cs) :
    cs.takeWhile (· != cut) = cs := by
  have whole : (cs ++ []).takeWhile (· != cut) = cs ++ [].takeWhile (· != cut) :=
    List.takeWhile_append_of_pos (bne_of_notMem h)
  simpa using whole

theorem takeWhile_append_cut {cut : Char} {first : List Char} (h : cut ∉ first)
    (rest : List Char) : (first ++ cut :: rest).takeWhile (· != cut) = first := by
  rw [List.takeWhile_append_of_pos (bne_of_notMem h), List.takeWhile_cons_of_neg (by simp),
    List.append_nil]

/-- A text is cut where the character stands for the first time. -/
theorem splitOnce?_append {cut : Char} {first : List Char} (h : cut ∉ first) (rest : List Char) :
    splitOnce? cut (first ++ cut :: rest) = some (first, rest) := by
  unfold splitOnce?
  rw [List.dropWhile_append_of_pos (bne_of_notMem h), takeWhile_append_cut h,
    List.dropWhile_cons_of_neg (by simp)]

/-- A text without an ending, if it has that ending. -/
theorem dropEnding?_eq_some {ending cs stem : List Char} :
    dropEnding? ending cs = some stem ↔ cs = stem ++ ending := by
  unfold dropEnding?
  constructor
  · intro h
    obtain ⟨ends, kept⟩ := Option.ite_none_right_eq_some.mp h
    obtain ⟨front, rfl⟩ := List.isSuffixOf_iff_suffix.mp ends
    obtain rfl := Option.some.inj kept
    simp
  · rintro rfl
    simp

theorem splitOnce?_eq_none {cut : Char} {cs : List Char} (h : cut ∉ cs) :
    splitOnce? cut cs = none := by
  have nothing : (cs ++ []).dropWhile (· != cut) = [] :=
    List.dropWhile_append_of_pos (bne_of_notMem h)
  rw [List.append_nil] at nothing
  unfold splitOnce?
  rw [nothing]

theorem splitOnce?_eq_some {cut : Char} {cs first rest : List Char} :
    splitOnce? cut cs = some (first, rest) ↔ cs = first ++ cut :: rest ∧ cut ∉ first := by
  constructor
  · intro h
    by_cases member : cut ∈ cs
    · obtain ⟨before, behind, rfl, fresh⟩ := List.eq_append_cons_of_mem member
      rw [splitOnce?_append fresh] at h
      obtain ⟨rfl, rfl⟩ := Prod.mk.inj (Option.some.inj h)
      exact ⟨rfl, fresh⟩
    · rw [splitOnce?_eq_none member] at h
      cases h
  · rintro ⟨rfl, fresh⟩
    exact splitOnce?_append fresh rest

end Runbook.Text
