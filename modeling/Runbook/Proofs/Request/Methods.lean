import Mathlib.Data.List.Basic
import Runbook.Proofs.Request.Headers
import Runbook.Proofs.Text.Letters

set_option autoImplicit false
set_option relaxedAutoImplicit false

/-!
Names of methods. A text names a method by the letters of its name, small or capital, with white
space around them. As its letters are made capitals before they are compared, four letters outside
ASCII do for letters of a name as well: a dotless i, a long s and two ligatures of an s and a t. The
texts with one of them are the only ones that name a method without spelling it. A request is refused
for its method if and only if it is given a text for one that names none.
-/

namespace Runbook

namespace Request

open Runbook.Text (isBlank sameIgnoringCase trimBlanks upperLetters)

namespace Method

variable {s name : String} {m : Method} {c : Char} {cs : List Char}

/-- The letters outside ASCII that can stand in a name. -/
def standIns : List Char := ['\u0131', '\u017f', '\ufb05', '\ufb06']

/-- The letters that a character stands for in a name. -/
def stoodFor : Char → List Char
  | '\u0131' => ['i']
  | '\u017f' => ['s']
  | '\ufb05' => ['s', 't']
  | '\ufb06' => ['s', 't']
  | c => [c]

/-- Whether a text is the name of a method, whatever its case and the white space around it. -/
def SpelledBy (m : Method) (s : String) : Prop := sameIgnoringCase (Text.trim s) m.text = true

/-- Whether a text is the name of a method, whatever its case and the white space around it, once
each character is replaced by what it stands for. -/
def NamedBy (m : Method) (s : String) : Prop :=
  sameIgnoringCase (String.ofList ((trimBlanks s.toList).flatMap stoodFor)) m.text = true

instance : Decidable (m.SpelledBy s) := inferInstanceAs (Decidable (_ = true))

instance : Decidable (m.NamedBy s) := inferInstanceAs (Decidable (_ = true))

theorem spelledBy_iff : m.SpelledBy s ↔
    (trimBlanks s.toList).map Char.toLower = m.text.toList.map Char.toLower := by
  rw [SpelledBy, Text.sameIgnoringCase_iff, Text.trim, String.toList_ofList]

theorem namedBy_iff : m.NamedBy s ↔
    ((trimBlanks s.toList).flatMap stoodFor).map Char.toLower = m.text.toList.map Char.toLower := by
  rw [NamedBy, Text.sameIgnoringCase_iff, String.toList_ofList]

theorem named?_eq_some : named? name = some m ↔ m.text = name := by
  constructor
  · intro found
    rw [named?] at found
    have same := List.find?_some found
    exact beq_iff_eq.mp same
  · rintro rfl
    exact named?_text m

/-- Names are in capitals, and none has an F or two S in a row. -/
theorem text_letters (m : Method) : (∀ d ∈ m.text.toList, d.isUpper = true) ∧
    'F' ∉ m.text.toList ∧ ¬ ['S', 'S'] <:+: m.text.toList := by
  refine ⟨List.all_eq_true.mp ?_, ?_, ?_⟩
  · cases m <;> decide
  · cases m <;> decide
  · cases m <;> simp [text, List.infix_cons_iff, List.cons_prefix_cons]

/-- The letters outside ASCII with capitals in it. -/
private def foreign : List Char :=
  standIns ++ ['\u00df', '\ufb00', '\ufb01', '\ufb02', '\ufb03', '\ufb04']

private theorem upperLetters_of_notMem (domestic : c ∉ foreign) : upperLetters c = [c.toUpper] := by
  have code : c.toNat ∉ foreign.map Char.toNat := by
    rwa [List.mem_map_of_injective fun _ _ => Char.toNat_inj.mp]
  unfold upperLetters
  split
  all_goals first
    | rfl
    | next known => exact absurd (known ▸ by decide) code

theorem stoodFor_of_notMem (plain : c ∉ standIns) : stoodFor c = [c] := by
  unfold stoodFor
  split
  all_goals first
    | rfl
    | exact absurd (by decide) plain

/-- The capitals of a character are those of the letters that it stands for, unless it is a letter
outside ASCII of which no name has the capitals. -/
theorem upperLetters_cases (c : Char) :
    upperLetters c = (stoodFor c).map Char.toUpper ∨
      stoodFor c = [c] ∧ c.isAlpha = false ∧ ('F' ∈ upperLetters c ∨ upperLetters c = ['S', 'S']) := by
  by_cases known : c ∈ foreign
  · simp only [foreign, standIns, List.cons_append, List.nil_append, List.mem_cons,
      List.not_mem_nil, or_false] at known
    rcases known with rfl | rfl | rfl | rfl | rfl | rfl | rfl | rfl | rfl | rfl <;> decide
  · have plain : c ∉ standIns := fun member => known (List.mem_append_left _ member)
    rw [upperLetters_of_notMem known, stoodFor_of_notMem plain]
    exact .inl rfl

theorem isAlpha_of_small (small : c.toLower ∈ m.text.toList.map Char.toLower) :
    c.isAlpha = true := by
  obtain ⟨d, letter, same⟩ := List.mem_map.mp small
  exact Text.isAlpha_of_toLower_eq ((text_letters m).1 d letter) same.symm

/-- A character that stands for itself in a name is an ASCII letter. -/
theorem isAlpha_of_named (own : stoodFor c = [c]) (member : c ∈ cs)
    (named : (cs.flatMap stoodFor).map Char.toLower = m.text.toList.map Char.toLower) :
    c.isAlpha = true := by
  have written : c ∈ cs.flatMap stoodFor :=
    List.mem_flatMap.mpr ⟨c, member, own ▸ List.mem_singleton_self c⟩
  exact isAlpha_of_small (named ▸ List.mem_map_of_mem written)

private theorem flatMap_eq_or_exists_ne (f g : Char → List Char) (cs : List Char) :
    cs.flatMap f = cs.flatMap g ∨ ∃ c ∈ cs, f c ≠ g c := by
  by_cases same : ∀ c ∈ cs, f c = g c
  · exact .inl (List.flatMap_congr same)
  · right
    simpa only [not_forall, exists_prop] using same

/-- The capitals of a text are a name if and only if the letters that it stands for are those of the
name. -/
theorem upper_eq_text : Text.upper cs = m.text.toList ↔
    (cs.flatMap stoodFor).map Char.toLower = m.text.toList.map Char.toLower := by
  rcases flatMap_eq_or_exists_ne upperLetters (fun c => (stoodFor c).map Char.toUpper) cs with
    plain | ⟨c, member, other⟩
  · rw [Text.upper, plain, ← List.map_flatMap, Text.map_toUpper_eq_iff (text_letters m).1]
  · obtain ⟨own, unlettered, capitals⟩ := (upperLetters_cases c).resolve_left other
    -- Neither side holds of such a letter: its capitals fit no name, and by itself it is not ASCII.
    refine iff_of_false ?_ ?_
    · intro same
      have within : upperLetters c <:+: m.text.toList :=
        same ▸ List.infix_flatMap_of_mem member upperLetters
      rcases capitals with f | ss
      · exact (text_letters m).2.1 (within.subset f)
      · exact (text_letters m).2.2 (ss ▸ within)
    · intro named
      have letter := isAlpha_of_named own member named
      rw [unlettered] at letter
      cases letter

theorem parse?_eq_some : parse? s = some m ↔ m.NamedBy s := by
  rw [parse?, named?_eq_some, namedBy_iff, ← upper_eq_text, ← String.toList_inj,
    String.toList_ofList]
  exact eq_comm

example : NamedBy .post " PO\ufb06" := by decide

theorem parse?_eq_none : parse? s = none ↔ ∀ m, ¬ NamedBy m s := by
  simp only [Option.eq_none_iff_forall_ne_some, ne_eq, parse?_eq_some]

theorem named?_of_not_ascii (member : c ∈ cs) (high : 128 ≤ c.toNat) :
    named? (String.ofList cs) = none := by
  rw [Option.eq_none_iff_forall_ne_some]
  intro m named
  have whole : m.text.toList = cs := by rw [named?_eq_some.mp named, String.toList_ofList]
  have letter : c.isAlpha = true := isAlpha_of_small (whole ▸ List.mem_map_of_mem member)
  have code := Text.isAlpha_iff.mp letter
  omega

/-- Whether a way to make letters capitals makes the same of those with capitals in ASCII, and of
every other one something that is not all ASCII. -/
def CapitalizesAlike (raise : Char → List Char) : Prop :=
  ∀ c, raise c = upperLetters c ∨
    (∃ d ∈ raise c, 128 ≤ d.toNat) ∧ ∃ d ∈ upperLetters c, 128 ≤ d.toNat

/-- It makes no difference to the methods that are named what the capitals of other letters are. -/
theorem named?_of_capitalizesAlike {raise : Char → List Char} (alike : CapitalizesAlike raise)
    (s : String) : named? (String.ofList ((trimBlanks s.toList).flatMap raise)) = parse? s := by
  rcases flatMap_eq_or_exists_ne raise upperLetters (trimBlanks s.toList) with
    same | ⟨c, member, differs⟩
  · rw [parse?, Text.upper, same]
  · obtain ⟨⟨d, made, high⟩, d', made', high'⟩ := (alike c).resolve_left differs
    have unnamed := named?_of_not_ascii (List.mem_flatMap.mpr ⟨c, member, made⟩) high
    have unnamed' := named?_of_not_ascii (List.mem_flatMap.mpr ⟨c, member, made'⟩) high'
    rw [unnamed, parse?, Text.upper, unnamed']

/-- No stand-in is white space or an ASCII letter. -/
theorem of_mem_standIns (standIn : c ∈ standIns) : isBlank c = false ∧ c.isAlpha = false := by
  simp only [standIns, List.mem_cons, List.not_mem_nil, or_false] at standIn
  rcases standIn with rfl | rfl | rfl | rfl <;> decide

/-- A text spells a method if and only if it names it without a letter that stands in for others. -/
theorem spelledBy_iff_namedBy : m.SpelledBy s ↔ m.NamedBy s ∧ ∀ c ∈ standIns, c ∉ s.toList := by
  have itself : (∀ c ∈ standIns, c ∉ s.toList) →
      (trimBlanks s.toList).flatMap stoodFor = trimBlanks s.toList := by
    intro absent
    have each : ∀ c ∈ trimBlanks s.toList, stoodFor c = [c] := by
      intro c member
      refine stoodFor_of_notMem fun standIn => absent c standIn ?_
      exact (Text.mem_trimBlanks (of_mem_standIns standIn).1).mp member
    rw [List.flatMap_congr each, List.flatMap_singleton']
  constructor
  · intro spelled
    have absent : ∀ c ∈ standIns, c ∉ s.toList := by
      intro c standIn member
      have kept := (Text.mem_trimBlanks (of_mem_standIns standIn).1).mpr member
      have letter : c.isAlpha = true :=
        isAlpha_of_small (spelledBy_iff.mp spelled ▸ List.mem_map_of_mem kept)
      rw [(of_mem_standIns standIn).2] at letter
      cases letter
    rw [namedBy_iff, itself absent, ← spelledBy_iff]
    exact ⟨spelled, absent⟩
  · rintro ⟨named, absent⟩
    rwa [namedBy_iff, itself absent, ← spelledBy_iff] at named

/-- A text with a character of any other kind names no method. -/
theorem parse?_of_other (member : c ∈ s.toList) (ink : isBlank c = false)
    (unlettered : c.isAlpha = false) (plain : c ∉ standIns) : parse? s = none := by
  rw [parse?_eq_none]
  intro m named
  have kept := (Text.mem_trimBlanks ink).mpr member
  have letter := isAlpha_of_named (stoodFor_of_notMem plain) kept (namedBy_iff.mp named)
  rw [unlettered] at letter
  cases letter

end Method

section Refusal

open Outcome

variable {fields : Fields} {scope : Scope} {settings : Settings} {v : Value} {name : String}
  {m : Method}

private theorem spares_parse (input : String) :
    Spares (Target.parse input) (.unsupportedMethod name) := by
  unfold Target.parse
  split
  · exact spares_ok _
  · exact spares_ok _
  · exact spares_error nofun

private theorem spares_portOf (components : Fields) :
    Spares (Target.portOf components) (.unsupportedMethod name) := by
  unfold Target.portOf
  split
  · exact spares_ok _
  · exact spares_ok _
  · split
    · exact spares_ok _
    · exact spares_error nofun
  · split
    · exact spares_ok _
    · exact spares_error nofun
  · exact spares_error nofun

private theorem spares_ofComponents (components : Fields) :
    Spares (Target.ofComponents components) (.unsupportedMethod name) := by
  unfold Target.ofComponents
  extract_lets path scheme finish
  split
  · exact spares_ok _
  · exact spares_ok _
  · split
    · exact spares_error nofun
    · refine (spares_portOf components).bind fun port => ?_
      split
      · exact spares_ok _
      · split
        · exact spares_ok _
        · exact spares_error nofun

private theorem spares_ofValue (v : Value) : Spares (Target.ofValue v) (.unsupportedMethod name) := by
  unfold Target.ofValue
  split
  · exact spares_ok _
  · exact (spares_parse _).map some
  · exact (spares_ofComponents _).map some
  · exact spares_error nofun

private theorem spares_resolve (target : Target) (base : Option Target) :
    Spares (target.resolve base) (.unsupportedMethod name) := by
  unfold Target.resolve
  split
  · split
    · exact spares_ok _
    · exact spares_error nofun
  · exact spares_ok _

private theorem spares_expandPairs (field : String) (v : Option Value) :
    Spares (expandPairs field v) (.unsupportedMethod name) := by
  unfold expandPairs
  split
  · exact spares_ok _
  · exact spares_ok _
  · exact spares_ok _
  · exact spares_error nofun

private theorem spares_ownTarget (fields : Fields) :
    Spares (ownTarget fields) (.unsupportedMethod name) := by
  unfold ownTarget
  refine (spares_ofValue _).bind fun found => ?_
  split
  · exact spares_ok _
  · exact spares_ofComponents _

/-- Fields make no request for lack of a method only where their method is at fault. -/
theorem describe_eq_unsupported : describe fields scope settings = .error (.unsupportedMethod name) ↔
    methodOf fields = .error (.unsupportedMethod name) := by
  unfold describe
  rw [bind_eq_error]
  refine or_iff_left ?_
  rintro ⟨method, -, later⟩
  revert later
  show Spares _ (Fault.unsupportedMethod name)
  refine (spares_ownTarget fields).bind fun own => ?_
  refine (spares_ofValue _).bind fun base => ?_
  refine (spares_resolve own base).bind fun target => ?_
  refine (spares_expandPairs "query" _).bind fun query => ?_
  exact (spares_expandPairs "headers" _).bind fun headers => spares_ok _

/-- A value that is given for the method is taken for the name of one. -/
theorem methodOf_of_given (given : given? fields "method" = some v) :
    methodOf fields = (Method.parse? (Template.textOf v)).elim
      (.error (.unsupportedMethod (Template.textOf v))) .ok := by
  simp only [methodOf, given]
  cases Method.parse? (Template.textOf v) <;> rfl

theorem methodOf_eq_ok (given : given? fields "method" = some v) :
    methodOf fields = .ok m ↔ Method.parse? (Template.textOf v) = some m := by
  rw [methodOf_of_given given]
  cases Method.parse? (Template.textOf v) <;> simp

theorem methodOf_eq_error (given : given? fields "method" = some v) :
    methodOf fields = .error (.unsupportedMethod (Template.textOf v)) ↔
      Method.parse? (Template.textOf v) = none := by
  rw [methodOf_of_given given]
  cases Method.parse? (Template.textOf v) <;> simp

end Refusal

end Request

open Runbook.Request
open Runbook.Text (isBlank)

/-- A text is recognised as a method if and only if it is its name, whatever its case and the white
space around it, with each letter that stands in for others taken for those. It spells the method if
and only if, besides, it has no such letter, and with a character of any other kind it is no method.
A request that is given a text for its method has the method that the text names, and is refused for
it if and only if the text names none. -/
theorem methods_recognised (s : String) :
    (∀ m, Method.parse? s = some m ↔ m.NamedBy s) ∧
    (∀ m, m.SpelledBy s ↔ Method.parse? s = some m ∧ ∀ c ∈ Method.standIns, c ∉ s.toList) ∧
    (∀ c ∈ s.toList, isBlank c = false → c.isAlpha = false → c ∉ Method.standIns →
      Method.parse? s = none) ∧
    ∀ fields v, given? fields "method" = some v → Template.textOf v = s → ∀ scope settings,
      (describe fields scope settings = .error (.unsupportedMethod s) ↔ ∀ m, ¬ Method.NamedBy m s) ∧
      ∀ d, describe fields scope settings = .ok d → d.method.NamedBy s := by
  refine ⟨?_, ?_, ?_, ?_⟩
  · intro m
    exact Method.parse?_eq_some
  · intro m
    rw [Method.parse?_eq_some, Method.spelledBy_iff_namedBy]
  · intro c member ink unlettered plain
    exact Method.parse?_of_other member ink unlettered plain
  · rintro fields v given rfl scope settings
    constructor
    · rw [describe_eq_unsupported, methodOf_eq_error given, Method.parse?_eq_none]
    · intro d built
      obtain ⟨_, _, _, _, _, _, known, -, -, -, -, -, rfl⟩ := describe_eq_ok.mp built
      exact Method.parse?_eq_some.mp ((methodOf_eq_ok given).mp known)

private def asking (method : String) : Fields := [("method", .str method), ("path", .str "x")]

private theorem given_asking (method : String) :
    given? (asking method) "method" = some (.str method) := rfl

private theorem describe_asking {method : String} {m : Method}
    (named : Method.parse? method = some m) :
    ∃ d, describe (asking method) .empty .standard = .ok d ∧ d.method = m := by
  have known : methodOf (asking method) = .ok m := (methodOf_eq_ok (given_asking method)).mpr named
  have target : ownTarget (asking method) = .ok (.relative "x") := rfl
  have unbased : Scope.evaluate .empty "base_url" = .null := by cbv
  have base : baseOf (asking method) .empty = .ok none := by
    show Target.ofValue (Scope.evaluate .empty "base_url") = .ok none
    rw [unbased]
    rfl
  exact ⟨_, describe_eq_ok.mpr ⟨_, _, _, _, _, _, known, target, base, rfl, rfl, rfl, rfl⟩, rfl⟩

/-- An accent makes a name unknown, and a request with it is refused; white space and other case do
not. -/
theorem methods_recognised_sample :
    Method.parse? "delete\u0301" = none ∧
    describe (asking "delete\u0301") .empty .standard =
      .error (.unsupportedMethod "delete\u0301") ∧
    ∃ d, describe (asking "\u00a0Delete\n") .empty .standard = .ok d ∧
      d.method.NamedBy "\u00a0Delete\n" := by
  have accented := methods_recognised "delete\u0301"
  have unknown : Method.parse? "delete\u0301" = none :=
    accented.2.2.1 '\u0301' (by decide) (by decide) (by decide) (by decide)
  have refused := (accented.2.2.2 _ _ (given_asking "delete\u0301") rfl .empty .standard).1
  have known : Method.parse? "\u00a0Delete\n" = some .delete := by decide
  obtain ⟨d, built, -⟩ := describe_asking known
  have spelled := methods_recognised "\u00a0Delete\n"
  have named := (spelled.2.2.2 _ _ (given_asking "\u00a0Delete\n") rfl .empty .standard).2 d built
  exact ⟨unknown, refused.mpr (Method.parse?_eq_none.mp unknown), d, built, named⟩

/-- A text with a letter outside ASCII that does not spell a method is recognised as one. -/
theorem methods_recognised_misspelled :
    '\u0131' ∈ "opt\u0131ons".toList ∧ 128 ≤ '\u0131'.toNat ∧
    ¬ Method.options.SpelledBy "opt\u0131ons" ∧ Method.parse? "opt\u0131ons" = some .options ∧
    ∃ d, describe (asking "opt\u0131ons") .empty .standard = .ok d ∧ d.method = .options := by
  have named : Method.parse? "opt\u0131ons" = some .options := by decide
  exact ⟨by decide, by decide, by decide, named, describe_asking named⟩

end Runbook
