import Mathlib.Tactic.SplitIfs
import Runbook.Proofs.Outcome
import Runbook.Proofs.Settings.Merging
import Runbook.Request.Build

set_option autoImplicit false
set_option relaxedAutoImplicit false

/-!
The header lines of a request. A default header is added where no line has its name, whatever the
case of the letters, so of the default headers of one name the first one counts. The standard ones
are among them under their own spelling: a default header of a project takes the place of a standard
one if it is spelled in the same way or comes before it in the order of names.
-/

namespace Runbook

namespace Headers

/-- The lines of a name, whatever the case of its letters. -/
def named (headers : Headers) (name : String) : Headers :=
  headers.filter fun line => Text.sameIgnoringCase line.1 name

variable {headers : Headers} {name other : String}

theorem has_congr (same : Text.sameIgnoringCase name other = true) :
    has headers name = has headers other := by
  have each : ∀ line : String × String,
      Text.sameIgnoringCase line.1 name = Text.sameIgnoringCase line.1 other := by
    intro line
    rw [Bool.eq_iff_iff]
    constructor
    · exact fun h => Text.sameIgnoringCase_trans h same
    · exact fun h => Text.sameIgnoringCase_trans h (Text.sameIgnoringCase_comm name other ▸ same)
  rw [has_eq_any, has_eq_any]
  simp only [each]

theorem named_eq_nil : named headers name = [] ↔ has headers name = false := by
  rw [has_eq_any]
  simp [named]

theorem named_append (headers lines : Headers) (name : String) :
    named (headers ++ lines) name = named headers name ++ named lines name :=
  List.filter_append ..

/-- A line that is added where its name is missing is the only one of its name. -/
theorem named_addMissing (headers : Headers) (line : String × String) (name : String) :
    named (addMissing headers line) name =
      if named headers name = [] ∧ Text.sameIgnoringCase line.1 name = true then [line]
      else named headers name := by
  by_cases same : Text.sameIgnoringCase line.1 name = true
  · have own : named [line] name = [line] := by simp [named, same]
    unfold addMissing
    rw [has_congr same]
    by_cases there : named headers name = []
    · simp [named_eq_nil.mp there, named_append, own, there, same]
    · have has : has headers name = true := Bool.of_not_eq_false (there ∘ named_eq_nil.mpr)
      simp [has, there]
  · have none : named [line] name = [] := by simp [named, same]
    unfold addMissing
    split_ifs with there other other
    · exact absurd other.2 same
    · rfl
    · exact absurd other.2 same
    · rw [named_append, none, List.append_nil]

/-- Of lines that are added where their name is missing, the first one of a name counts, and none if
the name was there. -/
theorem named_foldl_addMissing (lines headers : Headers) (name : String) :
    named (lines.foldl addMissing headers) name =
      if named headers name = [] then
        (lines.find? fun line => Text.sameIgnoringCase line.1 name).toList
      else named headers name := by
  induction lines generalizing headers with
  | nil =>
    split_ifs with there
    · exact there
    · rfl
  | cons line rest ih =>
    rw [List.foldl_cons, ih, named_addMissing, List.find?_cons]
    by_cases there : named headers name = [] <;>
      by_cases same : Text.sameIgnoringCase line.1 name = true <;> simp [there, same]

end Headers

namespace Request

open Runbook.Text (sameIgnoringCase)

/-- Whether the headers of an action set a name, whatever the case of its letters: an entry of that
name has a value, or a list that holds one. -/
def SetsHeader (fields : Fields) (name : String) : Prop :=
  ∃ entries key v, fields.get? "headers" = some (.map entries) ∧ (key, v) ∈ entries ∧
    sameIgnoringCase key name = true ∧ pairsOf key v ≠ []

variable {fields : Fields} {scope : Scope} {settings : Settings} {d : Descriptor}

/-- What a request is made of, each part from its fields. -/
theorem describe_eq_ok : describe fields scope settings = .ok d ↔
    ∃ method own base target query headers, methodOf fields = .ok method ∧
      ownTarget fields = .ok own ∧ baseOf fields scope = .ok base ∧ own.resolve base = .ok target ∧
      expandPairs "query" (fields.get? "query") = .ok query ∧
      expandPairs "headers" (fields.get? "headers") = .ok headers ∧
      d = {
        method
        target := target.appendQuery query
        headers := settings.defaultHeaders.foldl Headers.addMissing (declareBody fields headers)
        body := bodyOf fields
        credentials := credentialsOf fields } := by
  unfold describe
  simp only [Outcome.bind_eq_ok, pure, Except.pure, Except.ok.injEq]
  constructor
  · rintro ⟨method, hm, own, ho, base, hb, target, ht, query, hq, headers, hh, rfl⟩
    exact ⟨method, own, base, target, query, headers, hm, ho, hb, ht, hq, hh, rfl⟩
  · rintro ⟨method, own, base, target, query, headers, hm, ho, hb, ht, hq, hh, rfl⟩
    exact ⟨method, hm, own, ho, base, hb, target, ht, query, hq, headers, hh, rfl⟩

private theorem fst_of_mem_pairsOf {key : String} {v : Value} {line : String × String}
    (h : line ∈ pairsOf key v) : line.1 = key := by
  unfold pairsOf at h
  split at h
  · cases h
  · obtain ⟨item, -, rfl⟩ := List.mem_map.mp h
    rfl
  · rw [List.mem_singleton.mp h]

/-- Headers that do not set a name make no line of it. -/
theorem named_of_not_setsHeader {lines : Headers} {name : String} (unset : ¬ SetsHeader fields name)
    (expanded : expandPairs "headers" (fields.get? "headers") = .ok lines) :
    lines.named name = [] := by
  have absent : ∀ line ∈ lines, ¬ sameIgnoringCase line.1 name = true := by
    intro line member same
    cases declared : fields.get? "headers" with
    | none =>
      rw [declared] at expanded
      obtain rfl := Except.ok.inj expanded
      cases member
    | some v =>
      rw [declared] at expanded
      cases v with
      | map entries =>
        obtain rfl := Except.ok.inj expanded
        obtain ⟨⟨key, v⟩, entry, made⟩ := List.mem_flatMap.mp member
        have spelled := fst_of_mem_pairsOf made
        exact unset ⟨entries, key, v, declared, entry, spelled ▸ same, List.ne_nil_of_mem made⟩
      | null =>
        obtain rfl := Except.ok.inj expanded
        cases member
      | bool b => cases expanded
      | num n => cases expanded
      | str s => cases expanded
      | list items => cases expanded
  exact List.filter_eq_nil_iff.mpr absent

/-- The line that declares a body has no other name than its own. -/
theorem named_declareBody {headers : Headers} {name : String} (absent : headers.named name = [])
    (bodiless : sameIgnoringCase name "Content-Type" = true → given? fields "json_body" = none) :
    (declareBody fields headers).named name = [] := by
  unfold declareBody
  split_ifs with body
  · rw [Headers.named_addMissing, absent]
    refine if_neg ?_
    rintro ⟨-, same⟩
    have named := bodiless (Text.sameIgnoringCase_comm name "Content-Type" ▸ same)
    rw [named] at body
    cases body
  · exact absent

end Request

open Runbook.Request
open Runbook.Text (sameIgnoringCase)

/-- A request to which neither its headers nor its body give a header that the text of the settings
sets, in one spelling, has exactly one line of that header. It is the one of the settings, unless
the standard header is another spelling of it that comes first in the order of names. -/
theorem default_header_line {text : String} {own settings : Settings} {name value : String}
    {fields : Fields} {scope : Scope} {d : Descriptor} (declares : Settings.Own text own)
    (accepted : Settings.parse text = .ok settings) (sets : (name, value) ∈ own.defaultHeaders)
    (alone : ∀ line ∈ own.defaultHeaders, sameIgnoringCase line.1 name = true → line.1 = name)
    (unset : ¬ SetsHeader fields name)
    (bodiless : sameIgnoringCase name "Content-Type" = true → given? fields "json_body" = none)
    (built : describe fields scope settings = .ok d) :
    d.headers.named name =
      [if sameIgnoringCase "User-Agent" name = true ∧ "User-Agent" < name then
        ("User-Agent", "rest-flow/0.2.0") else (name, value)] := by
  obtain ⟨_, _, _, _, _, lines, -, -, -, -, -, expanded, rfl⟩ := describe_eq_ok.mp built
  obtain rfl := Settings.eq_merge_of_parse declares accepted
  have absent := named_declareBody (named_of_not_setsHeader unset expanded) bodiless
  have first := Settings.find?_mergeHeaders declares.ordered sets alone
  rw [Headers.named_foldl_addMissing, if_pos absent]
  unfold Settings.merge
  rw [first]
  rfl

private theorem own_of_eq_some {text : String} {own : Settings}
    (notBlank : Text.isAllBlank text = false)
    (read : ((Yaml.Document.read? text).bind fun found =>
      found.bind fun d => (Settings.ofDocument d).run' 0) = some own) : Settings.Own text own := by
  obtain ⟨_, document, read⟩ := Option.bind_eq_some_iff.mp read
  obtain ⟨d, rfl, read⟩ := Option.bind_eq_some_iff.mp read
  exact ⟨notBlank, d, document, read⟩

private theorem not_setsHeader_of_none {fields : Fields} {name : String}
    (undeclared : fields.get? "headers" = none) : ¬ SetsHeader fields name := by
  rintro ⟨entries, key, v, declared, -⟩
  rw [undeclared] at declared
  cases declared

private def plainFields : Fields := [("url", .str "x")]

private def withHeaders (headers : Headers) : Settings :=
  { Settings.standard with defaultHeaders := headers }

private def loudText : String := "defaultHeaders:\n  Accept: text/plain\n  USER-AGENT: mine\n"

private def loudHeaders : Headers := [("Accept", "text/plain"), ("USER-AGENT", "mine")]

/-- A spelling in capitals comes first and is sent, and so is a header that is not a standard one. -/
theorem default_header_line_sample : ∃ own settings d, Settings.Own loudText own ∧
    Settings.parse loudText = .ok settings ∧ describe plainFields .empty settings = .ok d ∧
    d.headers.named "USER-AGENT" = [("USER-AGENT", "mine")] ∧
    d.headers.named "Accept" = [("Accept", "text/plain")] := by
  have declares : Settings.Own loudText (withHeaders loudHeaders) :=
    own_of_eq_some (by decide) (by decide +kernel)
  have accepted : Settings.parse loudText =
      .ok (withHeaders (loudHeaders ++ [("User-Agent", "rest-flow/0.2.0")])) :=
    Outcome.eq_ok_of_toOption (by decide +kernel)
  have described : (describe plainFields .empty
      (withHeaders (loudHeaders ++ [("User-Agent", "rest-flow/0.2.0")]))).toOption.map (·.headers) =
      some loudHeaders := by
    decide +kernel
  obtain ⟨d, built, -⟩ := Outcome.exists_of_toOption_map described
  have agent : ("USER-AGENT", "mine") ∈ (withHeaders loudHeaders).defaultHeaders := by decide
  have accept : ("Accept", "text/plain") ∈ (withHeaders loudHeaders).defaultHeaders := by decide
  have unset : ∀ name, ¬ SetsHeader plainFields name := fun _ => not_setsHeader_of_none rfl
  refine ⟨_, _, d, declares, accepted, built, ?_, ?_⟩
  · exact (default_header_line declares accepted agent (by decide +kernel) (unset _)
      (by decide +kernel) built).trans (by decide +kernel)
  · exact (default_header_line declares accepted accept (by decide +kernel) (unset _)
      (by decide +kernel) built).trans (by decide +kernel)

private def quietText : String := "defaultHeaders:\n  user-agent: mine\n"

private def quietHeaders : Headers := [("user-agent", "mine")]

/-- A header that the text of the settings sets in small letters only may be sent with the standard
value. -/
theorem default_header_line_hidden : ∃ own settings d, Settings.Own quietText own ∧
    Settings.parse quietText = .ok settings ∧ ("user-agent", "mine") ∈ own.defaultHeaders ∧
    (∀ line ∈ own.defaultHeaders,
      sameIgnoringCase line.1 "user-agent" = true → line.1 = "user-agent") ∧
    ¬ SetsHeader plainFields "user-agent" ∧ given? plainFields "json_body" = none ∧
    describe plainFields .empty settings = .ok d ∧
    d.headers.named "user-agent" = [("User-Agent", "rest-flow/0.2.0")] := by
  have declares : Settings.Own quietText (withHeaders quietHeaders) :=
    own_of_eq_some (by decide) (by decide +kernel)
  have accepted : Settings.parse quietText =
      .ok (withHeaders (("User-Agent", "rest-flow/0.2.0") :: quietHeaders)) :=
    Outcome.eq_ok_of_toOption (by decide +kernel)
  have described : (describe plainFields .empty
      (withHeaders (("User-Agent", "rest-flow/0.2.0") :: quietHeaders))).toOption.map (·.headers) =
      some [("User-Agent", "rest-flow/0.2.0")] := by
    decide +kernel
  obtain ⟨d, built, sent⟩ := Outcome.exists_of_toOption_map described
  refine ⟨_, _, d, declares, accepted, by decide, by decide +kernel,
    not_setsHeader_of_none rfl, by decide +kernel, built, ?_⟩
  rw [sent]
  decide +kernel

end Runbook
