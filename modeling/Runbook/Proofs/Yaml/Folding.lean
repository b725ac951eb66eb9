import Mathlib.Data.List.Basic
import Runbook.Yaml.Plain

set_option autoImplicit false
set_option relaxedAutoImplicit false

/-!
What a plain scalar is read from. Every character but white space is kept, and where white space
stands between two of them, some stands there in the scalar. So a scalar without white space is what
it was read from, and one that begins the same text as what it was read from is no shorter.
-/

namespace Runbook.Yaml

/-- White space, inside a line or at its end. -/
def isWhite (c : Char) : Bool := isBlank c || isBreak c

/-- Whether a text is a source with each run of white space exchanged for another one. Neither
begins or ends with white space. -/
inductive Folds : List Char → List Char → Prop
  | nil : Folds [] []
  | step {source text gap space : List Char} {c : Char} (before : Folds source text)
      (gap_white : ∀ d ∈ gap, isWhite d = true) (space_white : ∀ d ∈ space, isWhite d = true)
      (both : gap = [] ↔ space = []) (ink : isWhite c = false) :
      Folds (source ++ gap ++ [c]) (text ++ space ++ [c])

section Folds

variable {source text whole : List Char}

theorem Folds.eq_of_ink (h : Folds source text) (ink : ∀ c ∈ text, isWhite c = false) :
    source = text := by
  induction h with
  | nil => rfl
  | @step source text gap space c _ _ space_white both _ ih =>
    have no_space : space = [] := by
      refine List.eq_nil_iff_forall_not_mem.mpr fun d member => ?_
      have dark := ink d (by simp [member])
      rw [space_white d member] at dark
      cases dark
    have before : source = text := ih fun d member => ink d (by simp [member])
    rw [before, no_space, both.mpr no_space]

theorem Folds.ne_nil (h : Folds source text) (nonempty : source ≠ []) : text ≠ [] := by
  rintro rfl
  exact nonempty (h.eq_of_ink (by simp))

/-- White space up to the first other character is the same however it is split off. -/
private theorem gap_unique {gap space : List Char} {c d : Char} {rest others : List Char}
    (gap_white : ∀ e ∈ gap, isWhite e = true) (space_white : ∀ e ∈ space, isWhite e = true)
    (hc : isWhite c = false) (hd : isWhite d = false)
    (same : gap ++ c :: rest = space ++ d :: others) : gap = space := by
  have taken := congrArg (List.takeWhile isWhite) same
  rw [List.takeWhile_append_of_pos gap_white, List.takeWhile_append_of_pos space_white,
    List.takeWhile_cons_of_neg (by simp [hc]), List.takeWhile_cons_of_neg (by simp [hd]),
    List.append_nil, List.append_nil] at taken
  exact taken

theorem Folds.eq_of_prefix (h : Folds source text) (hs : source <+: whole) (ht : text <+: whole) :
    text = source := by
  induction h with
  | nil => rfl
  | @step source text gap space c _ gap_white space_white _ ink ih =>
    obtain ⟨rest, from_source⟩ := hs
    obtain ⟨others, from_text⟩ := ht
    simp only [List.append_assoc, List.singleton_append] at from_source from_text
    obtain rfl : text = source := ih ⟨_, from_source⟩ ⟨_, from_text⟩
    have same := List.append_cancel_left (from_text.trans from_source.symm)
    rw [gap_unique space_white gap_white ink ink same]

end Folds

namespace Folding

/-- Whether a source with white space behind it has been read so far. -/
structure Holds (f : Folding) (source held : List Char) : Prop where
  folds : Folds source f.text.reverse
  held_white : ∀ c ∈ held, isWhite c = true
  waits : f.isWaiting = true ↔ held ≠ []
  blanks_white : ∀ c ∈ f.blanks, isWhite c = true
  first_white : ∀ c ∈ f.first, isWhite c = true
  later_white : ∀ c ∈ f.later, isWhite c = true
  first_some : f.broken = true → f.first ≠ []

variable {f : Folding} {source held : List Char} {c : Char}

theorem holds_start : start.Holds [] [] where
  folds := .nil
  held_white := by simp
  waits := by decide
  blanks_white := by simp [start]
  first_white := by simp [start]
  later_white := by simp [start]
  first_some := by simp [start]

private theorem Holds.waiting_white (h : f.Holds source held) :
    ∀ c ∈ f.waiting, isWhite c = true := by
  intro c member
  unfold waiting at member
  split at member
  · split at member
    · split at member
      · obtain rfl := List.mem_singleton.mp member
        decide
      · exact h.later_white c member
    · rcases List.mem_append.mp member with first | later
      · exact h.first_white c first
      · exact h.later_white c later
  · exact h.blanks_white c member

private theorem waiting_eq_nil (some_first : f.broken = true → f.first ≠ []) :
    f.waiting = [] ↔ f.isWaiting = false := by
  unfold waiting isWaiting
  by_cases broken : f.broken = true
  · have first := some_first broken
    by_cases feed : f.first.head? = some '\n' <;> by_cases none_later : f.later = [] <;>
      simp [broken, first, feed, none_later]
  · simp [broken]

theorem Holds.push (h : f.Holds source held) (ink : isWhite c = false) :
    (f.push c).Holds (source ++ held ++ [c]) [] := by
  have none_held : held = [] ↔ f.waiting = [] := by
    rw [waiting_eq_nil h.first_some, ← Bool.not_eq_true, h.waits, not_not]
  have text : (f.push c).text.reverse = f.text.reverse ++ f.waiting ++ [c] := by
    simp [Folding.push, settle]
  exact {
    folds := text ▸ .step h.folds h.held_white h.waiting_white none_held ink
    held_white := by simp
    waits := by simp [Folding.push, settle, isWaiting]
    blanks_white := by simp [Folding.push, settle]
    first_white := by simp [Folding.push, settle]
    later_white := by simp [Folding.push, settle]
    first_some := by simp [Folding.push, settle] }

theorem Holds.blank (h : f.Holds source held) (hc : Yaml.isBlank c = true) :
    (f.blank c).Holds source (held ++ [c]) := by
  have white : isWhite c = true := by simp [isWhite, hc]
  have held_white : ∀ d ∈ held ++ [c], isWhite d = true :=
    List.forall_mem_append.mpr ⟨h.held_white, by simp [white]⟩
  unfold Folding.blank
  split
  · next broken =>
    exact { h with
      held_white
      waits := by simp [isWaiting, broken] }
  · exact { h with
      held_white
      waits := by simp [isWaiting]
      blanks_white := List.forall_mem_append.mpr ⟨h.blanks_white, by simp [white]⟩ }

private theorem breakText_white (hc : isBreak c = true) : ∀ d ∈ breakText c, isWhite d = true := by
  intro d member
  unfold breakText at member
  split at member
  · obtain rfl := List.mem_singleton.mp member
    simp [isWhite, hc]
  · obtain rfl := List.mem_singleton.mp member
    decide

private theorem breakText_ne_nil (c : Char) : breakText c ≠ [] := by
  unfold breakText
  split <;> simp

/-- A line break follows, which some characters of the source stand for. -/
theorem Holds.lineBreak (h : f.Holds source held) (gap : List Char) (hc : isBreak c = true)
    (gap_white : ∀ d ∈ gap, isWhite d = true) (nonempty : gap ≠ []) :
    (f.lineBreak c).Holds source (held ++ gap) := by
  have held_white : ∀ d ∈ held ++ gap, isWhite d = true :=
    List.forall_mem_append.mpr ⟨h.held_white, gap_white⟩
  have text_white := breakText_white hc
  unfold Folding.lineBreak
  split
  · next broken =>
    exact { h with
      held_white
      waits := by simp [isWaiting, broken, nonempty]
      later_white := List.forall_mem_append.mpr ⟨h.later_white, text_white⟩ }
  · exact { h with
      held_white
      waits := by simp [isWaiting, nonempty]
      blanks_white := by simp
      first_white := text_white
      first_some := fun _ => breakText_ne_nil c }

end Folding

/-- Where a plain scalar outside brackets ends: with the text, before a colon that ends a key, or
behind white space before a comment or a line that begins with the marker of a document. -/
def EndsScalar (held : List Char) (after : Cursor) : Prop :=
  after.rest = [] ∨
    (∃ behind, after.rest = ':' :: behind ∧ isBlankOrEnd behind.head? = true) ∨
    held ≠ [] ∧ (after.rest.head? = some '#' ∨ (after.mark.column = 0 ∧
      isMarker after.rest = true ∧ ∃ b, held.getLast? = some b ∧ isBreak b = true))

private theorem endsAfterBlanks_cases {m : Mark} {cs : List Char}
    (h : endsAfterBlanks false 0 m cs = true) :
    cs.head? = some '#' ∨ m.column = 0 ∧ isMarker cs = true := by
  simp only [endsAfterBlanks, Bool.not_false, Bool.true_and, Bool.or_eq_true, Bool.and_eq_true,
    decide_eq_true_eq, beq_iff_eq] at h
  rcases h with (before | marker) | comment
  · exact absurd before (by omega)
  · exact .inr marker
  · exact .inl comment

/-- The rest of a plain scalar outside brackets that need not be indented. -/
theorem plainFrom_eq_some {f g : Folding} {m : Mark} {cs source held : List Char} {after : Cursor}
    (h : plainFrom false 0 f m cs = some (g, after)) (holds : f.Holds source held)
    (fresh : m.column = 0 → held ≠ [] → ∃ b, held.getLast? = some b ∧ isBreak b = true) :
    ∃ source' held', source ++ held ++ cs = source' ++ held' ++ after.rest ∧
      g.Holds source' held' ∧ EndsScalar held' after := by
  fun_induction plainFrom false 0 f m cs generalizing source held with
  | case1 f m =>
    obtain ⟨rfl, rfl⟩ := Prod.mk.inj (Option.some.inj h)
    exact ⟨source, held, rfl, holds, .inl rfl⟩
  | case2 f m cs ih =>
    have white : ∀ d ∈ ['\r', '\n'], isWhite d = true := List.all_eq_true.mp rfl
    have passed := holds.lineBreak (c := '\n') ['\r', '\n'] rfl white (by simp)
    simpa using ih h passed fun _ _ => ⟨'\n', by simp, rfl⟩
  | case3 f m c cs _ breaks ih =>
    have passed := holds.lineBreak [c] breaks (by simp [isWhite, breaks]) (by simp)
    simpa using ih h passed fun _ _ => ⟨c, by simp, breaks⟩
  | case4 => cases h
  | case5 f m c cs _ _ blank _ ih =>
    simpa using ih h (holds.blank blank) (by simp [Mark.along])
  | case6 f m c cs _ _ _ ends =>
    obtain ⟨rfl, rfl⟩ := Prod.mk.inj (Option.some.inj h)
    obtain ⟨waiting, ends⟩ := Bool.and_eq_true_iff.mp ends
    have some_held := holds.waits.mp waiting
    refine ⟨source, held, rfl, holds, .inr (.inr ⟨some_held, ?_⟩)⟩
    rcases endsAfterBlanks_cases ends with comment | ⟨begins, marker⟩
    · exact .inl comment
    · exact .inr ⟨begins, marker, fresh begins some_held⟩
  | case7 => cases h
  | case8 f m c cs _ _ _ _ _ ends =>
    obtain ⟨rfl, rfl⟩ := Prod.mk.inj (Option.some.inj h)
    obtain ⟨rfl, apart⟩ : c = ':' ∧ isBlankOrEnd cs.head? = true := by simpa [endsPlain] using ends
    exact ⟨source, held, rfl, holds, .inr (.inl ⟨cs, rfl, apart⟩)⟩
  | case9 f m c cs _ breaks blank _ _ _ ih =>
    have ink : isWhite c = false := by simp [isWhite, breaks, blank]
    simpa using ih h (holds.push ink) (by simp)

end Runbook.Yaml
