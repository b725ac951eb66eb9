import Runbook.Proofs.Yaml.Opening
import Runbook.Proofs.Yaml.Root

set_option autoImplicit false
set_option relaxedAutoImplicit false

/-!
What a text is read as in YAML. Only a plain scalar is null, and then it is a spelling of null or of
a number that is not finite, word for word; one that is a text is that text.
-/

namespace Runbook.Yaml

open Runbook.Text (Trimmed)

/-- Whether a text is read as null: a spelling of null itself or of a number that is not finite. -/
def spellsNull (s : String) : Bool := isNull s || isNotFinite s

section Meaning

variable {s t : String} {m : Meaning}

private theorem ofInteger?_ne_null (h : Meaning.ofInteger? s = some m) :
    m.value? s ≠ some .null := by
  obtain ⟨i, -, h⟩ := Option.bind_eq_some_iff.mp h
  split at h
  · obtain rfl := Option.some.inj h
    simp [Meaning.value?]
  · obtain ⟨-, same⟩ := Option.ite_none_right_eq_some.mp h
    obtain rfl := Option.some.inj same
    simp [Meaning.value?]

private theorem ofReal?_ne_null (finite : isNotFinite s = false) :
    ((Meaning.ofReal? s).getD .text).value? s ≠ some .null := by
  rw [Meaning.ofReal?, if_neg (by simp [finite])]
  cases real? s.toList with
  | none => simp [Meaning.value?]
  | some x => simp [Meaning.value?]

/-- A scalar that is null spells it, unless it is empty. -/
theorem spellsNull_of_value? (nonempty : s ≠ "") (h : (Meaning.of s).value? s = some .null) :
    spellsNull s = true := by
  by_contra other
  obtain ⟨no_null, finite⟩ := Bool.or_eq_false_iff.mp (Bool.not_eq_true _ ▸ other)
  unfold Meaning.of at h
  rw [if_neg (by simp [nonempty, no_null])] at h
  split at h
  · cases h
  · split at h
    · next whole => exact ofInteger?_ne_null whole h
    · split at h
      · cases h
      · exact ofReal?_ne_null finite h

theorem eq_of_value? (h : m.value? s = some (.str t)) : t = s := by
  cases m with
  | text => exact (Value.str.inj (Option.some.inj h)).symm
  | _ => simp [Meaning.value?] at h

end Meaning

theorem ink_of_spellsNull {s : String} (h : spellsNull s = true) :
    ∀ c ∈ s.toList, isWhite c = false := by
  simp only [spellsNull, isNull, isNotFinite, Bool.or_eq_true, decide_eq_true_eq] at h
  have spellings : (["null", "Null", "NULL", "~"] ++ [".inf", ".Inf", ".INF", "+.inf", "+.Inf",
      "+.INF", "-.inf", "-.Inf", "-.INF", ".nan", ".NaN", ".NAN"]).all
      (fun t => t.toList.all fun c => !isWhite c) = true := rfl
  intro c member
  have listed := List.all_eq_true.mp spellings s (List.mem_append.mpr h)
  have dark := List.all_eq_true.mp listed c member
  simpa using dark

/-- A trimmed text of which nothing is set apart is read as a collection, as a marked scalar, or as
what a plain scalar means, which is all of the text but what may be left out. -/
theorem read?_cases {cs : List Char} {v : Value} (nonempty : cs ≠ []) (trimmed : Trimmed cs)
    (whole : beginsApart cs = false) (h : read? (String.ofList cs) = some v) :
    isCollection v = true ∨ (beginsMarked cs = true ∧ ∃ s, v = .str s) ∨
      ∃ source text, source <+: cs ∧ Folds source text ∧ text ≠ [] ∧
        (source = cs ∨ LeavesOut source cs) ∧
        (Meaning.of (String.ofList text)).value? (String.ofList text) = some v := by
  obtain ⟨tokens, document, lexed, made, found⟩ := read?_eq_some h
  rw [String.toList_ofList] at lexed
  have valued {root : Written} (known : document = some root) : ∃ node anchors,
      link .none root = some (node, anchors) ∧
        ((⟨node, anchors, size root⟩ : Document).value Document.maxDepth node).run' 0 = some v := by
    rcases found with ⟨nothing, -⟩ | ⟨written, node, anchors, same, linked, value⟩
    · cases known.symm.trans nothing
    · obtain rfl := Option.some.inj (known.symm.trans same)
      exact ⟨node, anchors, linked, value⟩
  have collected {root : Written} (known : document = some root)
      (no_scalar : root.isScalar = false) : isCollection v = true := by
    obtain ⟨node, anchors, linked, value⟩ := valued known
    exact isCollection_value no_scalar linked value
  have scalar {p : Properties} {style : Style} {text : String}
      (known : document = some (.scalar p style text)) : scalarValue? p style text = some v := by
    obtain ⟨node, anchors, linked, value⟩ := valued known
    exact scalarValue?_of_value linked value
  have no_mark_alone : cs ≠ ['!'] := by
    rintro rfl
    cases h.symm.trans (show read? (String.ofList ['!']) = none by decide)
  cases opens_of_lex? nonempty trimmed whole no_mark_alone lexed with
  | structural t ts is =>
    obtain ⟨root, known, no_scalar⟩ := ofTokens?_structural is made
    exact .inl (collected known no_scalar)
  | directive t is => cases (ofTokens?_directive is).symm.trans made
  | tagged handle suffix ts own =>
    obtain ⟨root, known, no_scalar | ⟨p, style, text, rfl, own_tag⟩⟩ := ofTokens?_tag own made
    · exact .inl (collected known no_scalar)
    · cases (scalarValue?_of_isLocal own_tag style text).symm.trans (scalar known)
  | marked style text ts differs begins =>
    have value := scalar (ofTokens?_scalar made).1
    rw [scalarValue?, if_neg differs] at value
    exact .inr (.inl ⟨begins, text, (Option.some.inj value).symm⟩)
  | plain source text ts begins some_source folds leaves =>
    obtain ⟨known, ends⟩ := ofTokens?_scalar made
    have value := scalar known
    exact .inr (.inr ⟨source, text, begins, folds, folds.ne_nil some_source, leaves ends, value⟩)

end Runbook.Yaml
