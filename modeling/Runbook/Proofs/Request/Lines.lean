import Runbook.Proofs.Request.Headers

set_option autoImplicit false
set_option relaxedAutoImplicit false

/-!
The order of header lines. A request has the lines of its action as they are declared, behind them
the line that its JSON body needs if the action has none of that name, and behind both the default
headers of which the name is still missing, each name once. What an action sets is thus neither
dropped nor moved nor hidden.
-/

namespace Runbook

open Runbook.Text (sameIgnoringCase)

namespace Headers

/-- Which lines are supplied where some lines are there: one after the other, each of which neither
a line that is there nor one supplied before has the name. -/
inductive Supplied : Headers → Headers → Headers → Prop
  | done {there : Headers} : Supplied there [] []
  | passed {there lines added : Headers} {line other : String × String} :
      other ∈ there → sameIgnoringCase other.1 line.1 = true → Supplied there lines added →
      Supplied there (line :: lines) added
  | taken {there lines added : Headers} {line : String × String} :
      (∀ other ∈ there, sameIgnoringCase other.1 line.1 = false) →
      Supplied (there ++ [line]) lines added → Supplied there (line :: lines) (line :: added)

variable {there lines added headers : Headers} {name : String}

theorem exists_supplied (there lines : Headers) :
    ∃ added, lines.foldl addMissing there = there ++ added ∧ Supplied there lines added := by
  -- What is there grows with each line taken, so that a later one of its name is passed.
  induction lines generalizing there with
  | nil => exact ⟨[], (List.append_nil there).symm, .done⟩
  | cons line lines ih =>
    rw [List.foldl_cons]
    by_cases has : has there line.1 = true
    · have kept : addMissing there line = there := if_pos has
      rw [has_eq_any, List.any_eq_true] at has
      obtain ⟨other, member, same⟩ := has
      obtain ⟨added, folded, supplied⟩ := ih there
      exact ⟨added, by rw [kept, folded], .passed member same supplied⟩
    · have grown : addMissing there line = there ++ [line] := if_neg has
      rw [has_eq_any, Bool.not_eq_true, List.any_eq_false] at has
      have apart : ∀ other ∈ there, sameIgnoringCase other.1 line.1 = false := by
        intro other member
        exact Bool.eq_false_iff.mpr (has other member)
      obtain ⟨added, folded, supplied⟩ := ih (there ++ [line])
      refine ⟨line :: added, ?_, .taken apart supplied⟩
      rw [grown, folded, List.append_assoc, List.singleton_append]

theorem Supplied.sublist (h : Supplied there lines added) : added.Sublist lines := by
  induction h with
  | done => exact .slnil
  | passed _ _ _ ih => exact ih.cons _
  | taken _ _ ih => exact ih.cons_cons _

theorem Supplied.apart (h : Supplied there lines added) {line other : String × String}
    (member : line ∈ added) (before : other ∈ there) :
    sameIgnoringCase other.1 line.1 = false := by
  induction h with
  | done => cases member
  | passed _ _ _ ih => exact ih member before
  | taken free _ ih =>
    rcases List.mem_cons.mp member with rfl | member
    · exact free other before
    · exact ih member (List.mem_append_left _ before)

theorem Supplied.pairwise (h : Supplied there lines added) :
    added.Pairwise fun a b => sameIgnoringCase a.1 b.1 = false := by
  induction h with
  | done => exact .nil
  | passed _ _ _ ih => exact ih
  | taken _ supplied ih =>
    refine List.pairwise_cons.mpr ⟨?_, ih⟩
    intro other member
    exact supplied.apart member (List.mem_append_right _ (List.mem_singleton_self _))

theorem Supplied.covers (h : Supplied there lines added) {line : String × String}
    (member : line ∈ lines) : ∃ other ∈ there ++ added, sameIgnoringCase other.1 line.1 = true := by
  induction h with
  | done => cases member
  | @passed there lines added first other before same _ ih =>
    rcases List.mem_cons.mp member with rfl | member
    · exact ⟨other, List.mem_append_left _ before, same⟩
    · exact ih member
  | @taken there lines added first _ _ ih =>
    rcases List.mem_cons.mp member with rfl | member
    · exact ⟨line, List.mem_append_right _ List.mem_cons_self, Text.sameIgnoringCase_refl line.1⟩
    · obtain ⟨other, present, same⟩ := ih member
      rw [List.append_assoc, List.singleton_append] at present
      exact ⟨other, present, same⟩

theorem get?_eq_head?_named (headers : Headers) (name : String) :
    get? headers name = (named headers name).head?.map (·.2) := by
  unfold get? named
  rw [List.head?_filter]

end Headers

namespace Request

/-- The lines that an entry of the headers of an action writes: one for each item of a list, or for
any other value, that is not null. -/
def entryLines (name : String) (v : Value) : Headers :=
  let values := match v with
    | .list items => items
    | single => [single]
  (values.filter (· ≠ .null)).map fun item => (name, Template.textOf item)

/-- The header lines that the fields of an action declare, in their order. -/
def declaredLines (fields : Fields) : Headers :=
  match fields.get? "headers" with
  | some (.map entries) => entries.flatMap fun entry => entryLines entry.1 entry.2
  | _ => []

/-- Whether a JSON body is sent for which no line declares a content type. -/
def NeedsType (fields : Fields) (lines : Headers) : Prop :=
  (∃ v, fields.get? "json_body" = some v ∧ v ≠ .null) ∧
    ∀ line ∈ lines, sameIgnoringCase line.1 "Content-Type" = false

variable {fields : Fields} {scope : Scope} {settings : Settings} {d : Descriptor}

theorem pairsOf_eq_entryLines (name : String) (v : Value) : pairsOf name v = entryLines name v := by
  have given : ∀ item : Value, (!item.isNull) = decide (item ≠ .null) := by
    intro item
    cases item <;> simp [Value.isNull]
  cases v with
  | list items =>
    unfold pairsOf entryLines
    simp only [given]
  | null => rfl
  | bool b => rfl
  | num n => rfl
  | str s => rfl
  | map members => rfl

theorem eq_declaredLines {lines : Headers}
    (expanded : expandPairs "headers" (fields.get? "headers") = .ok lines) :
    lines = declaredLines fields := by
  unfold declaredLines
  cases declared : fields.get? "headers" with
  | none =>
    rw [declared] at expanded
    exact (Except.ok.inj expanded).symm
  | some v =>
    rw [declared] at expanded
    cases v with
    | null => exact (Except.ok.inj expanded).symm
    | map entries =>
      rw [← Except.ok.inj expanded]
      simp only [pairsOf_eq_entryLines]
    | bool b => cases expanded
    | num n => cases expanded
    | str s => cases expanded
    | list items => cases expanded

theorem isSome_given?_iff {key : String} : (given? fields key).isSome = true ↔
    ∃ v, fields.get? key = some v ∧ v ≠ .null := by
  unfold given?
  cases fields.get? key with
  | none => simp
  | some v => cases v <;> simp [Value.isNull]

/-- Behind the lines of an action comes the one that declares its JSON body, if it is needed. -/
theorem declareBody_cases (fields : Fields) (lines : Headers) :
    (NeedsType fields lines ∧ declareBody fields lines = lines ++ [jsonLine]) ∨
      (¬ NeedsType fields lines ∧ declareBody fields lines = lines) := by
  unfold NeedsType
  rw [← isSome_given?_iff]
  have absent : Headers.has lines "Content-Type" = false ↔
      ∀ line ∈ lines, sameIgnoringCase line.1 "Content-Type" = false := by
    rw [Headers.has_eq_any, List.any_eq_false]
    simp only [Bool.not_eq_true]
  rw [← absent]
  unfold declareBody Headers.addMissing
  by_cases body : (given? fields "json_body").isSome = true <;>
    by_cases typed : Headers.has lines "Content-Type" = true <;>
      simp [body, typed, jsonLine]

end Request

open Runbook.Request

/-- The header lines of a request: those of its action as declared, the one its JSON body needs, and
the default headers that are missing. No line of the action is dropped, moved or hidden, and no
default header is there twice. -/
theorem header_lines_in_order {fields : Fields} {scope : Scope} {settings : Settings}
    {d : Descriptor} (built : describe fields scope settings = .ok d) :
    ∃ automatic defaults, d.headers = declaredLines fields ++ automatic ++ defaults ∧
      ((NeedsType fields (declaredLines fields) ∧
          automatic = [("Content-Type", "application/json")]) ∨
        (¬ NeedsType fields (declaredLines fields) ∧ automatic = [])) ∧
      Headers.Supplied (declaredLines fields ++ automatic) settings.defaultHeaders defaults ∧
      defaults.Sublist settings.defaultHeaders ∧
      (Settings.Ordered settings.defaultHeaders → Settings.Ordered defaults) ∧
      (∀ line ∈ defaults, ∀ other ∈ declaredLines fields ++ automatic,
        sameIgnoringCase other.1 line.1 = false) ∧
      (defaults.Pairwise fun a b => sameIgnoringCase a.1 b.1 = false) ∧
      (∀ line ∈ settings.defaultHeaders,
        ∃ other ∈ d.headers, sameIgnoringCase other.1 line.1 = true) ∧
      ∀ name first rest, (declaredLines fields).named name = first :: rest →
        d.headers.get? name = some first.2 ∧
          (declaredLines fields).named name <+: d.headers.named name := by
  obtain ⟨_, _, _, _, _, lines, -, -, -, -, -, expanded, rfl⟩ := describe_eq_ok.mp built
  obtain rfl := eq_declaredLines expanded
  obtain ⟨automatic, typed, declared⟩ : ∃ automatic,
      ((NeedsType fields (declaredLines fields) ∧ automatic = [jsonLine]) ∨
        (¬ NeedsType fields (declaredLines fields) ∧ automatic = [])) ∧
      declareBody fields (declaredLines fields) = declaredLines fields ++ automatic := by
    rcases declareBody_cases fields (declaredLines fields) with ⟨needed, made⟩ | ⟨idle, made⟩
    · exact ⟨_, .inl ⟨needed, rfl⟩, made⟩
    · exact ⟨_, .inr ⟨idle, rfl⟩, by rw [made, List.append_nil]⟩
  obtain ⟨defaults, folded, supplied⟩ :=
    Headers.exists_supplied (declaredLines fields ++ automatic) settings.defaultHeaders
  rw [declared, folded]
  refine ⟨automatic, defaults, rfl, typed, supplied, supplied.sublist,
    fun ordered => ordered.sublist supplied.sublist, ?_, supplied.pairwise, ?_, ?_⟩
  · intro line member other before
    exact supplied.apart member before
  · intro line member
    exact supplied.covers member
  · intro name first rest found
    simp only [Headers.get?_eq_head?_named, Headers.named_append, found]
    rw [List.append_assoc]
    exact ⟨rfl, List.prefix_append _ _⟩

private def mixedFields : Fields :=
  [("url", .str "x"), ("headers", .map [("accept", .list [.str "a", .null, .list [.str "x"]]),
    ("X-Skip", .null), ("ACCEPT", .bool false)]), ("json_body", .bool true)]

private def mixedSettings : Settings :=
  { Settings.standard with
    defaultHeaders :=
      [("Accept", "*/*"), ("Content-Type", "text/plain"), ("X-A", "1"), ("x-a", "2")] }

/-- Of a list the nulls make no line, each other item makes one, and of two spellings of a default
header the first is added. -/
theorem header_lines_in_order_sample : ∃ d automatic defaults,
    describe mixedFields .empty mixedSettings = .ok d ∧
    d.headers = [("accept", "a"), ("accept", "[\"x\"]"), ("ACCEPT", "false"),
      ("Content-Type", "application/json"), ("X-A", "1")] ∧
    d.headers = declaredLines mixedFields ++ automatic ++ defaults ∧
    defaults.Sublist mixedSettings.defaultHeaders ∧ d.headers.get? "ACCEPT" = some "a" := by
  have described : (describe mixedFields .empty mixedSettings).toOption.map (·.headers) =
      some [("accept", "a"), ("accept", "[\"x\"]"), ("ACCEPT", "false"),
        ("Content-Type", "application/json"), ("X-A", "1")] := by
    decide +kernel
  obtain ⟨d, built, sent⟩ := Outcome.exists_of_toOption_map described
  obtain ⟨automatic, defaults, lines, -, -, within, -, -, -, -, first⟩ :=
    header_lines_in_order built
  have set : (declaredLines mixedFields).named "ACCEPT" =
      [("accept", "a"), ("accept", "[\"x\"]"), ("ACCEPT", "false")] := by
    decide +kernel
  exact ⟨d, automatic, defaults, built, sent, lines, within, (first _ _ _ set).1⟩

end Runbook
