import Mathlib.Data.String.Basic
import Runbook.Settings.Reading

set_option autoImplicit false
set_option relaxedAutoImplicit false

/-!
Default headers put together. Header lines are in order of their names, each name once, whether they
are the standard ones, those of a text, or both: then a line of the text takes the place of a
standard one with the very same name, and any other standard line stays.
-/

namespace Runbook.Settings

open Runbook.Yaml

/-- Header lines in order of their names, each name once. -/
def Ordered (headers : Headers) : Prop := headers.Pairwise fun a b => a.1 < b.1

/-- The settings that a text declares, before they are put over the standard ones; a text that is
blank or holds no document declares none. -/
def Own (text : String) (own : Settings) : Prop :=
  Text.isAllBlank text = false ∧
    ∃ d, Document.read? text = some (some d) ∧ (ofDocument d).run' 0 = some own

variable {headers others : Headers} {line x : String × String}

theorem mem_insertHeader (h : Ordered headers) :
    x ∈ insertHeader line headers ↔ x = line ∨ (x ∈ headers ∧ x.1 ≠ line.1) := by
  induction headers with
  | nil => simp [insertHeader]
  | cons first rest ih =>
    obtain ⟨before, sorted⟩ := List.pairwise_cons.mp h
    have apart : ∀ y ∈ rest, first.1 ≠ y.1 := fun y hy => (before y hy).ne
    rw [insertHeader]
    split_ifs with below same
    · have above : ∀ y ∈ first :: rest, y.1 ≠ line.1 := by
        intro y hy
        rcases List.mem_cons.mp hy with rfl | hy
        · exact below.ne'
        · exact (below.trans (before y hy)).ne'
      rw [List.mem_cons]
      exact or_congr Iff.rfl ⟨fun hx => ⟨hx, above x hx⟩, fun hx => hx.1⟩
    · have above : ∀ y ∈ rest, y.1 ≠ line.1 := by
        intro y hy
        rw [same]
        exact (apart y hy).symm
      rw [List.mem_cons, List.mem_cons]
      constructor
      · rintro (rfl | hx)
        · exact .inl rfl
        · exact .inr ⟨.inr hx, above x hx⟩
      · rintro (rfl | ⟨rfl | hx, other⟩)
        · exact .inl rfl
        · exact absurd same.symm other
        · exact .inr hx
    · rw [List.mem_cons, List.mem_cons, ih sorted]
      constructor
      · rintro (rfl | rfl | ⟨hx, other⟩)
        · exact .inr ⟨.inl rfl, Ne.symm same⟩
        · exact .inl rfl
        · exact .inr ⟨.inr hx, other⟩
      · rintro (rfl | ⟨rfl | hx, other⟩)
        · exact .inr (.inl rfl)
        · exact .inl rfl
        · exact .inr (.inr ⟨hx, other⟩)

theorem ordered_insertHeader (h : Ordered headers) (line : String × String) :
    Ordered (insertHeader line headers) := by
  induction headers with
  | nil => exact List.pairwise_singleton _ _
  | cons first rest ih =>
    obtain ⟨before, sorted⟩ := List.pairwise_cons.mp h
    rw [insertHeader]
    split_ifs with below same
    · refine List.pairwise_cons.mpr ⟨?_, h⟩
      intro y hy
      rcases List.mem_cons.mp hy with rfl | hy
      · exact below
      · exact below.trans (before y hy)
    · refine List.pairwise_cons.mpr ⟨?_, sorted⟩
      intro y hy
      rw [same]
      exact before y hy
    · refine List.pairwise_cons.mpr ⟨?_, ih sorted⟩
      intro y hy
      rcases (mem_insertHeader sorted).mp hy with rfl | ⟨hy, -⟩
      · exact lt_of_le_of_ne (not_lt.mp below) (Ne.symm same)
      · exact before y hy

theorem ordered_mergeHeaders (h : Ordered headers) (others : Headers) :
    Ordered (mergeHeaders headers others) := by
  unfold mergeHeaders
  induction others generalizing headers with
  | nil => exact h
  | cons line rest ih => exact ih (ordered_insertHeader h line)

/-- Of the first lines those stay of which the name is not set. -/
theorem mem_mergeHeaders (h : Ordered headers) (once : Ordered others) :
    x ∈ mergeHeaders headers others ↔
      x ∈ others ∨ (x ∈ headers ∧ ∀ line ∈ others, x.1 ≠ line.1) := by
  unfold mergeHeaders
  induction others generalizing headers with
  | nil => simp
  | cons line rest ih =>
    obtain ⟨before, sorted⟩ := List.pairwise_cons.mp once
    rw [List.foldl_cons, ih (ordered_insertHeader h line) sorted, mem_insertHeader h]
    constructor
    · rintro (hx | ⟨rfl | ⟨hx, other⟩, others⟩)
      · exact .inl (List.mem_cons_of_mem _ hx)
      · exact .inl List.mem_cons_self
      · exact .inr ⟨hx, List.forall_mem_cons.mpr ⟨other, others⟩⟩
    · rintro (hx | ⟨hx, unset⟩)
      · rcases List.mem_cons.mp hx with rfl | hx
        · exact .inr ⟨.inl rfl, fun y hy => (before y hy).ne⟩
        · exact .inl hx
      · obtain ⟨other, others⟩ := List.forall_mem_cons.mp unset
        exact .inr ⟨.inr ⟨hx, other⟩, others⟩

theorem Ordered.eq_of_name (h : Ordered headers) (hline : line ∈ headers) (hx : x ∈ headers)
    (same : x.1 = line.1) : x = line := by
  induction headers with
  | nil => cases hx
  | cons first rest ih =>
    obtain ⟨before, sorted⟩ := List.pairwise_cons.mp h
    rcases List.mem_cons.mp hx with first_x | rest_x
    · rcases List.mem_cons.mp hline with first_line | rest_line
      · rw [first_x, first_line]
      · rw [first_x] at same
        exact absurd same (before line rest_line).ne
    · rcases List.mem_cons.mp hline with first_line | rest_line
      · rw [first_line] at same
        exact absurd same (before x rest_x).ne'
      · exact ih sorted rest_line rest_x

/-- The first of the lines that pass a test is before all others that pass it. -/
theorem Ordered.find?_le {p : String × String → Bool} (h : Ordered headers)
    (found : headers.find? p = some line) (hx : x ∈ headers) (passes : p x = true) :
    x = line ∨ line.1 < x.1 := by
  obtain ⟨-, front, back, rfl, passed⟩ := List.find?_eq_some_iff_append.mp found
  rcases List.mem_append.mp hx with hx | hx
  · exact absurd passes (by simpa using passed x hx)
  · rcases List.mem_cons.mp hx with rfl | hx
    · exact .inl rfl
    · exact .inr ((List.pairwise_cons.mp (List.pairwise_append.mp h).2.1).1 x hx)

section Reading

variable {α β : Type}

/-- Whether everything that a walk can come to has a property. -/
def Finds (w : Walk α) (P : α → Prop) : Prop := ∀ n a m, w n = some (a, m) → P a

theorem finds_bind_of {w : Walk α} {f : α → Walk β} {Q : α → Prop} {P : β → Prop} (hw : Finds w Q)
    (h : ∀ a, Q a → Finds (f a) P) : Finds (w >>= f) P := by
  intro n b m found
  obtain ⟨⟨a, k⟩, first, next⟩ := Option.bind_eq_some_iff.mp found
  exact h a (hw n a k first) k b m next

theorem finds_bind {w : Walk α} {f : α → Walk β} {P : β → Prop} (h : ∀ a, Finds (f a) P) :
    Finds (w >>= f) P :=
  finds_bind_of (Q := fun _ => True) (fun _ _ _ _ => trivial) fun a _ => h a

theorem finds_pure {a : α} {P : α → Prop} (h : P a) : Finds (pure a) P := by
  intro n b m found
  cases found
  exact h

theorem finds_failure {P : α → Prop} : Finds failure P := by
  intro n b m found
  cases found

end Reading

theorem ordered_standard : Ordered standard.defaultHeaders := List.pairwise_singleton _ _

theorem finds_headersAt (d : Document) (n : Node Nat) : Finds (headersAt d n) Ordered := by
  unfold headersAt
  refine finds_bind fun target => ?_
  split
  · refine finds_bind fun lines => finds_pure ?_
    exact ordered_mergeHeaders List.Pairwise.nil lines
  · split_ifs
    · exact finds_pure List.Pairwise.nil
    · exact finds_failure
  · exact finds_failure

theorem finds_ofNodes (d : Document) (nodes : List (Option (Node Nat))) :
    Finds (ofNodes d nodes) fun own => Ordered own.defaultHeaders := by
  unfold ofNodes
  split
  · next timeout follow max validate headers contexts =>
    have declared : Finds (fieldAt (headersAt d) standard.defaultHeaders headers) Ordered := by
      cases headers with
      | none => exact finds_pure ordered_standard
      | some n => exact finds_headersAt d n
    refine finds_bind fun _ => finds_bind fun _ => finds_bind fun _ => finds_bind fun _ => ?_
    exact finds_bind_of declared fun lines ordered => finds_bind fun _ => finds_pure ordered
  · exact finds_failure

theorem finds_ofDocument (d : Document) :
    Finds (ofDocument d) fun own => Ordered own.defaultHeaders := by
  unfold ofDocument
  refine finds_bind fun root => ?_
  split
  · exact finds_bind fun _ => finds_bind fun _ => finds_ofNodes d _
  · split_ifs
    · exact finds_bind fun _ => finds_ofNodes d _
    · exact finds_ofNodes d _
  · split_ifs
    · exact finds_pure ordered_standard
    · exact finds_failure
  · exact finds_failure

variable {text : String} {own settings : Settings}

/-- The default headers of a text are in order of their names, each name once. -/
theorem Own.ordered (h : Own text own) : Ordered own.defaultHeaders := by
  obtain ⟨-, d, -, read⟩ := h
  obtain ⟨⟨_, m⟩, found, rfl⟩ := Option.map_eq_some_iff.mp read
  exact finds_ofDocument d 0 _ m found

/-- The settings of a text are its own over the standard ones. -/
theorem eq_merge_of_parse (declares : Own text own) (accepted : parse text = .ok settings) :
    settings = standard.merge own := by
  obtain ⟨notBlank, d, document, read⟩ := declares
  unfold parse at accepted
  simp only [notBlank, document, read, Bool.false_eq_true, if_false, pure_bind] at accepted
  split at accepted
  · cases accepted
  · exact (Except.ok.inj accepted).symm

/-- The standard default header. -/
def standardLine : String × String := ("User-Agent", "rest-flow/0.2.0")

open Runbook.Text (sameIgnoringCase)

/-- Of all default headers of a name that a text sets in one spelling, the first one is that of the
text, unless the standard one is another spelling that comes before it. -/
theorem find?_mergeHeaders {own : Headers} {name value : String} (ordered : Ordered own)
    (sets : (name, value) ∈ own)
    (alone : ∀ line ∈ own, sameIgnoringCase line.1 name = true → line.1 = name) :
    ((mergeHeaders standard.defaultHeaders own).find? fun line => sameIgnoringCase line.1 name) =
      some (if sameIgnoringCase standardLine.1 name = true ∧ standardLine.1 < name then standardLine
        else (name, value)) := by
  have merged := ordered_mergeHeaders ordered_standard own
  have member : ∀ {line}, line ∈ mergeHeaders standard.defaultHeaders own ↔
      line ∈ own ∨ line = standardLine ∧ ∀ other ∈ own, line.1 ≠ other.1 := by
    intro line
    rw [mem_mergeHeaders ordered_standard ordered]
    exact or_congr Iff.rfl (and_congr List.mem_singleton Iff.rfl)
  have there := member.mpr (.inl sets)
  have passes := Text.sameIgnoringCase_refl name
  have some_line : ((mergeHeaders standard.defaultHeaders own).find? fun line =>
      sameIgnoringCase line.1 name).isSome = true :=
    List.find?_isSome.mpr ⟨(name, value), there, passes⟩
  obtain ⟨line, found⟩ := Option.isSome_iff_exists.mp some_line
  have same := List.find?_some found
  rw [found]
  rcases member.mp (List.mem_of_find?_eq_some found) with own_line | ⟨rfl, unset⟩
  · have spelled := alone line own_line same
    obtain rfl := ordered.eq_of_name sets own_line spelled
    -- A standard line of another spelling was not replaced, so it would come first.
    have unbeaten : ¬ (sameIgnoringCase standardLine.1 name = true ∧ standardLine.1 < name) := by
      rintro ⟨standard_same, below⟩
      have kept : ∀ other ∈ own, standardLine.1 ≠ other.1 := by
        intro other hother spelling
        have again := alone other hother (spelling ▸ standard_same)
        exact below.ne (spelling.trans again)
      rcases merged.find?_le found (member.mpr (.inr ⟨rfl, kept⟩)) standard_same with first | above
      · exact kept _ own_line (congrArg Prod.fst first)
      · exact lt_asymm below above
    rw [if_neg unbeaten]
  · rcases merged.find?_le found there passes with first | above
    · exact absurd (congrArg Prod.fst first).symm (unset _ sets)
    · rw [if_pos ⟨same, above⟩]

end Runbook.Settings
