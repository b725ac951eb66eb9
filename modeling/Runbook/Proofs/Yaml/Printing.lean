import Mathlib.Data.List.Basic
import Mathlib.Tactic.SplitIfs
import Runbook.Text.Blank
import Runbook.Yaml.Printer

set_option autoImplicit false
set_option relaxedAutoImplicit false

/-!
What is written of a YAML text stays written, so that the text of a map that has entries is not
blank: it has the colon of the first key.
-/

namespace Runbook.Yaml

/-- Whether a sheet holds all that another one holds, with more after it or not. -/
def Sheet.Extends (s' s : Sheet) : Prop := s.written <:+ s'.written

namespace Sheet

variable {s s' s'' : Sheet}

theorem Extends.trans (h : s''.Extends s') (k : s'.Extends s) : s''.Extends s :=
  List.IsSuffix.trans k h

/-- The indentation does not count. -/
private theorem Extends.indent {i j : Int} (h : s'.Extends { s with indent := i }) :
    ({ s' with indent := j } : Sheet).Extends s :=
  h

private theorem extends_put (s : Sheet) (c : Char) : (s.put c).Extends s := List.suffix_cons _ _

private theorem extends_putAll (s : Sheet) (cs : List Char) : (s.putAll cs).Extends s := by
  unfold putAll
  induction cs generalizing s with
  | nil => exact List.suffix_refl _
  | cons c cs ih => exact (ih (s.put c)).trans (extends_put s c)

private theorem extends_indented (s : Sheet) : s.indented.Extends s := by
  unfold indented
  dsimp only
  split_ifs
  · exact (extends_putAll (s.putBreak '\n') _).trans (List.suffix_cons _ _)
  · exact extends_putAll s _

private theorem extends_indicator (s : Sheet) (cs : List Char)
    (needsSpace isSpace keepsFresh : Bool) :
    (s.indicator cs needsSpace isSpace keepsFresh).Extends s := by
  unfold indicator
  dsimp only
  split_ifs
  · exact (extends_putAll (s.put ' ') cs).trans (extends_put s ' ')
  · exact extends_putAll s cs

private theorem extends_plain (s : Sheet) (cs : List Char) : (s.plain cs).Extends s := by
  unfold plain
  dsimp only
  split_ifs
  · exact (extends_putAll (s.put ' ') cs).trans (extends_put s ' ')
  · exact extends_putAll s cs

private theorem extends_singleChars (s : Sheet) (broken : Bool) (cs : List Char) :
    (s.singleChars broken cs).Extends s := by
  induction cs generalizing s broken with
  | nil =>
    unfold singleChars
    split_ifs
    · exact extends_indented s
    · exact List.suffix_refl _
  | cons c cs ih =>
    unfold singleChars
    dsimp only
    split_ifs
    · exact (ih _ _).trans (extends_put s c)
    · exact (ih _ _).trans (List.suffix_cons _ _)
    · exact (ih _ _).trans ((extends_putAll s.indented _).trans (extends_indented s))
    · exact (ih _ _).trans ((extends_putAll s.indented _).trans (extends_indented s))
    · exact (ih _ _).trans (extends_putAll s _)
    · exact (ih _ _).trans (extends_putAll s _)

private theorem extends_single (s : Sheet) (cs : List Char) : (s.single cs).Extends s :=
  (extends_indicator _ _ _ _ _).trans
    ((extends_singleChars _ _ _).trans (extends_indicator _ _ _ _ _))

private theorem extends_double (s : Sheet) (cs : List Char) : (s.double cs).Extends s :=
  (extends_indicator _ _ _ _ _).trans
    ((extends_putAll _ _).trans (extends_indicator _ _ _ _ _))

private theorem extends_literalChars (s : Sheet) (broken : Bool) (cs : List Char) :
    (s.literalChars broken cs).Extends s := by
  induction cs generalizing s broken with
  | nil => exact List.suffix_refl _
  | cons c cs ih =>
    unfold literalChars
    dsimp only
    split_ifs
    · exact (ih _ _).trans (List.suffix_cons _ _)
    · exact (ih _ _).trans ((extends_put s.indented c).trans (extends_indented s))
    · exact (ih _ _).trans (extends_put s c)

private theorem extends_literal (s : Sheet) (cs : List Char) : (s.literal cs).Extends s := by
  unfold literal
  dsimp only
  refine (extends_literalChars _ _ _).trans ?_
  exact List.IsSuffix.trans (extends_indicator s _ _ _ _) (List.suffix_cons _ _)

private theorem extends_scalar (s : Sheet) (style : Style) (cs : List Char) :
    (s.scalar style cs).Extends s := by
  unfold scalar
  cases style with
  | plain => exact (extends_plain _ cs).indent
  | single => exact (extends_single _ cs).indent
  | double => exact (extends_double _ cs).indent
  | literal => exact (extends_literal _ cs).indent
  | folded => exact (extends_literal _ cs).indent

private theorem extends_text (s : Sheet) (t : String) : (s.text t).Extends s :=
  extends_scalar _ _ _

private theorem mem_written_indicator (s : Sheet) (c : Char)
    (needsSpace isSpace keepsFresh : Bool) :
    c ∈ (s.indicator [c] needsSpace isSpace keepsFresh).written := by
  unfold indicator putAll
  exact List.mem_cons_self

private theorem extends_key (s : Sheet) (k : String) : (s.key k).Extends s := by
  unfold key
  dsimp only
  split_ifs
  · exact (extends_indicator _ _ _ _ _).trans ((extends_text _ _).trans (extends_indented s))
  · exact (extends_indicator _ _ _ _ _).trans ((extends_indented _).trans
      ((extends_text _ _).trans ((extends_indicator _ _ _ _ _).trans (extends_indented s))))

private theorem colon_mem_key (s : Sheet) (k : String) : ':' ∈ (s.key k).written := by
  unfold key
  dsimp only
  split_ifs
  · exact mem_written_indicator _ _ _ _ _
  · exact mem_written_indicator _ _ _ _ _

mutual

private theorem extends_value (s : Sheet) (inEntry : Bool) (v : Value) :
    (s.value inEntry v).Extends s := by
  cases v with
  | null => exact extends_scalar _ _ _
  | bool b => cases b <;> exact extends_scalar _ _ _
  | num n => exact extends_scalar _ _ _
  | str t => exact extends_text s t
  | list items =>
    cases items with
    | nil => exact (extends_indicator _ _ _ _ _).trans (extends_indicator _ _ _ _ _)
    | cons v vs =>
      rw [value]
      · exact (extends_items _ (v :: vs)).indent
      · exact List.cons_ne_nil v vs
  | map entries =>
    cases entries with
    | nil => exact (extends_indicator _ _ _ _ _).trans (extends_indicator _ _ _ _ _)
    | cons e es =>
      rw [value]
      · exact (extends_entries _ (e :: es)).indent
      · exact List.cons_ne_nil e es

private theorem extends_items (s : Sheet) (vs : List Value) : (s.items vs).Extends s := by
  cases vs with
  | nil => exact List.suffix_refl _
  | cons v vs =>
    exact (extends_items _ vs).trans ((extends_value _ false v).trans
      ((extends_indicator _ _ _ _ _).trans (extends_indented s)))

private theorem extends_entries (s : Sheet) (es : List (String × Value)) :
    (s.entries es).Extends s := by
  cases es with
  | nil => exact List.suffix_refl _
  | cons e es =>
    obtain ⟨k, v⟩ := e
    exact (extends_entries _ es).trans ((extends_value _ true v).trans (extends_key s k))

end

private theorem mem_finish {c : Char} (h : c ∈ s.written) : c ∈ s.finish.toList := by
  unfold finish
  dsimp only
  rw [String.toList_ofList, List.mem_reverse]
  split_ifs
  · exact ((extends_indented _).trans ((extends_indicator _ _ _ _ _).trans
      (extends_indented s))).subset h
  · exact (extends_indented s).subset h

end Sheet

/-- The text of a map with entries is not blank. -/
theorem isAllBlank_print_map (k : String) (v : Value) (rest : List (String × Value)) :
    Text.isAllBlank (print (.map ((k, v) :: rest))) = false := by
  have written : ':' ∈ (Sheet.blank.value false (.map ((k, v) :: rest))).written := by
    have key := Sheet.colon_mem_key { Sheet.blank with indent := deeper Sheet.blank.indent } k
    have value := (Sheet.extends_value
      (Sheet.key { Sheet.blank with indent := deeper Sheet.blank.indent } k) true v).subset key
    exact (Sheet.extends_entries _ rest).subset value
  have there := Sheet.mem_finish written
  rw [← Bool.not_eq_true]
  intro blank
  have colon := List.all_eq_true.mp blank ':' there
  exact absurd colon (by decide)

end Runbook.Yaml
