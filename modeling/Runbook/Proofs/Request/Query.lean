import Runbook.Proofs.Outcome
import Runbook.Proofs.Url.Form
import Runbook.Request.Target

set_option autoImplicit false
set_option relaxedAutoImplicit false

/-!
Appending pairs to the query of a target. In an absolute URL they are read back behind the pairs that
were there, and nothing but the query changes. In a relative reference the same holds as long as it
has no fragment; pairs that are appended to one with a fragment get into the fragment.
-/

namespace Runbook

/-- The pairs that the query of a URL holds. -/
def Url.pairs (u : Url) : List (String × String) := formPairs (u.query.getD "").toList

/-- The query of a URL as it stands in its text. -/
def Url.queryText (u : Url) : String := (u.query.map ("?" ++ ·)).getD ""

namespace Request

/-- A text up to the first occurrence of a character, and what follows it if there is one. -/
def cutOff (cut : Char) (cs : List Char) : List Char × Option (List Char) :=
  match Text.splitOnce? cut cs with
  | some (before, after) => (before, some after)
  | none => (cs, none)

/-- The parts of a relative reference. -/
structure Reference where
  path : List Char
  query : Option (List Char)
  fragment : Option (List Char)
  deriving DecidableEq

/-- A reference taken apart: the fragment follows the first number sign, and the query follows the
first question mark before it. -/
def Reference.ofText (cs : List Char) : Reference :=
  let (front, fragment) := cutOff '#' cs
  let (path, query) := cutOff '?' front
  ⟨path, query, fragment⟩

/-- The pairs that the query of a reference holds. -/
def Reference.pairs (r : Reference) : List (String × String) := Url.formPairs (r.query.getD [])

section Absolute

variable {url : Url} {pairs more : List (String × String)}

theorem pairs_appendPairs (url : Url) (pairs : List (String × String)) :
    (url.appendPairs pairs).pairs = url.pairs ++ pairs := by
  unfold Url.pairs Url.appendPairs
  rw [Option.getD_some, String.toList_ofList, Url.formPairs_formAppend]

theorem appendPairs_append (url : Url) (pairs more : List (String × String)) :
    (url.appendPairs pairs).appendPairs more = url.appendPairs (pairs ++ more) := by
  unfold Url.appendPairs
  rw [Option.getD_some, String.toList_ofList, Url.formAppend_append]

/-- The text of a URL but for its query is the same before and after pairs are appended. -/
theorem text_appendPairs (url : Url) (pairs : List (String × String)) : ∃ before after,
    url.text = before ++ url.queryText ++ after ∧
      (url.appendPairs pairs).text = before ++ (url.appendPairs pairs).queryText ++ after :=
  ⟨url.scheme ++ ":" ++ url.authorityText ++ url.path.text, (url.fragment.map ("#" ++ ·)).getD "",
    rfl, rfl⟩

theorem appendQuery_absolute (given : pairs ≠ []) :
    (Target.absolute url).appendQuery pairs = .absolute (url.appendPairs pairs) := by
  cases pairs with
  | nil => exact absurd rfl given
  | cons p pairs => rfl

end Absolute

section Relative

variable {cut : Char} {first rest : List Char}

theorem cutOff_append (h : cut ∉ first) (rest : List Char) :
    cutOff cut (first ++ cut :: rest) = (first, some rest) := by
  unfold cutOff
  rw [Text.splitOnce?_append h]

theorem cutOff_of_notMem (h : cut ∉ first) : cutOff cut first = (first, none) := by
  unfold cutOff
  rw [Text.splitOnce?_eq_none h]

/-- What is put behind the first occurrence of a character leaves what is before it alone. -/
theorem cutOff_append_of_mem (h : cut ∈ first) (rest : List Char) : ∃ before after,
    cutOff cut first = (before, some after) ∧
      cutOff cut (first ++ rest) = (before, some (after ++ rest)) := by
  obtain ⟨before, after, rfl, free⟩ := List.eq_append_cons_of_mem h
  refine ⟨before, after, cutOff_append free after, ?_⟩
  rw [List.append_assoc, List.cons_append, cutOff_append free]

/-- The mark that is put between a reference and the pairs appended to it. -/
def queryMark (cs : List Char) : Char := if '?' ∈ cs then '&' else '?'

theorem toList_appendQuery (r : String) {pairs : List (String × String)} (given : pairs ≠ []) :
    ∃ appended, (Target.relative r).appendQuery pairs = .relative appended ∧
      appended.toList = r.toList ++ queryMark r.toList :: Url.formAppend [] pairs := by
  cases pairs with
  | nil => exact absurd rfl given
  | cons p pairs =>
    refine ⟨_, rfl, ?_⟩
    by_cases marked : '?' ∈ r.toList <;> simp [queryMark, marked]

/-- Neither what ends a path nor what ends a query stands in pairs that are appended. -/
theorem mark_notMem_formAppend (pairs : List (String × String)) :
    '#' ∉ Url.formAppend [] pairs ∧ '?' ∉ Url.formAppend [] pairs := by
  constructor <;>
    · intro h
      exact absurd (Url.mem_formAppend h) (by decide)

/-- Pairs that are appended to a reference without a fragment are read back behind those of its
query. -/
theorem ofText_append_of_whole {cs : List Char} (whole : '#' ∉ cs)
    (pairs : List (String × String)) :
    let old := Reference.ofText cs
    let new := Reference.ofText (cs ++ queryMark cs :: Url.formAppend [] pairs)
    new.path = old.path ∧ new.fragment = old.fragment ∧ new.pairs = old.pairs ++ pairs := by
  obtain ⟨fragmentFree, queryFree⟩ := mark_notMem_formAppend pairs
  have appendedWhole : '#' ∉ cs ++ queryMark cs :: Url.formAppend [] pairs := by
    intro h
    rcases List.mem_append.mp h with before | after
    · exact whole before
    · rcases List.mem_cons.mp after with mark | after
      · unfold queryMark at mark
        split at mark <;> cases mark
      · exact fragmentFree after
  intro old new
  by_cases marked : '?' ∈ cs
  · obtain ⟨path, query, oldCut, newCut⟩ :=
      cutOff_append_of_mem marked (queryMark cs :: Url.formAppend [] pairs)
    have oldParts : old = ⟨path, some query, none⟩ := by
      simp only [old, Reference.ofText, cutOff_of_notMem whole, oldCut]
    have newParts : new = ⟨path, some (query ++ '&' :: Url.formAppend [] pairs), none⟩ := by
      simp only [new, Reference.ofText, cutOff_of_notMem appendedWhole, newCut]
      rw [queryMark, if_pos marked]
    rw [oldParts, newParts]
    refine ⟨rfl, rfl, ?_⟩
    show Url.formPairs (query ++ '&' :: Url.formAppend [] pairs) = Url.formPairs query ++ pairs
    rw [Url.formPairs_append, Url.formPairs_formAppend, Url.formPairs_nil, List.nil_append]
  · have mark : queryMark cs = '?' := if_neg marked
    have oldParts : old = ⟨cs, none, none⟩ := by
      simp only [old, Reference.ofText, cutOff_of_notMem whole, cutOff_of_notMem marked]
    have newParts : new = ⟨cs, some (Url.formAppend [] pairs), none⟩ := by
      simp only [new, Reference.ofText, cutOff_of_notMem appendedWhole]
      rw [mark, cutOff_append marked]
    rw [oldParts, newParts]
    exact ⟨rfl, rfl, Url.formPairs_formAppend [] pairs⟩

/-- Whatever is put behind a reference with a fragment gets into the fragment. -/
theorem ofText_append_of_fragment {cs : List Char} (ended : '#' ∈ cs) (behind : List Char) :
    ∃ fragment, (Reference.ofText cs).fragment = some fragment ∧
      Reference.ofText (cs ++ behind) =
        { Reference.ofText cs with fragment := some (fragment ++ behind) } := by
  obtain ⟨front, fragment, oldCut, newCut⟩ := cutOff_append_of_mem ended behind
  refine ⟨fragment, ?_, ?_⟩ <;> simp only [Reference.ofText, oldCut, newCut]

end Relative

end Request

open Runbook.Request

/-- Pairs that are appended to an absolute target are read back behind those of its query, and the
other parts stay as they are. To append nothing changes nothing, and to append twice is to append
both at once. -/
theorem absolute_query_appended (url : Url) (pairs : List (String × String)) :
    ∃ appended : Url, (Target.absolute url).appendQuery pairs = .absolute appended ∧
      appended.pairs = url.pairs ++ pairs ∧
      appended.scheme = url.scheme ∧ appended.authority = url.authority ∧
      appended.path = url.path ∧ appended.fragment = url.fragment ∧
      (∃ before after, url.text = before ++ url.queryText ++ after ∧
        appended.text = before ++ appended.queryText ++ after) ∧
      (pairs = [] → appended = url) ∧
      ∀ more, (Target.absolute appended).appendQuery more =
        (Target.absolute url).appendQuery (pairs ++ more) := by
  by_cases given : pairs = []
  · subst given
    refine ⟨url, rfl, (List.append_nil _).symm, rfl, rfl, rfl, rfl, ?_, fun _ => rfl, fun _ => rfl⟩
    exact ⟨_, _, rfl, rfl⟩
  · refine ⟨url.appendPairs pairs, appendQuery_absolute given, pairs_appendPairs url pairs, rfl, rfl,
      rfl, rfl, text_appendPairs url pairs, fun none => absurd none given, ?_⟩
    intro more
    have both : pairs ++ more ≠ [] := by simp [given]
    rw [appendQuery_absolute both]
    by_cases further : more = []
    · rw [further, List.append_nil]
      rfl
    · rw [appendQuery_absolute further, appendPairs_append]

/-- Pairs that are appended to a relative target are read back behind those of its query, and path
and fragment stay as they are, if and only if it has no fragment. The path stays in any case; where
there is a fragment, so does the query, and the pairs stand at the end of the fragment. -/
theorem relative_query_appended (r : String) {pairs : List (String × String)}
    (given : pairs ≠ []) :
    ∃ appended, (Target.relative r).appendQuery pairs = .relative appended ∧
      let old := Reference.ofText r.toList
      let new := Reference.ofText appended.toList
      new.path = old.path ∧
      (new.fragment = old.fragment ∧ new.pairs = old.pairs ++ pairs ↔ '#' ∉ r.toList) ∧
      ('#' ∈ r.toList → new.query = old.query ∧ ∃ fragment, old.fragment = some fragment ∧
        new.fragment =
          some (fragment ++ (if '?' ∈ r.toList then '&' else '?') :: Url.formAppend [] pairs)) := by
  obtain ⟨appended, put, text⟩ := toList_appendQuery r given
  refine ⟨appended, put, ?_⟩
  intro old new
  have read : new =
      Reference.ofText (r.toList ++ queryMark r.toList :: Url.formAppend [] pairs) :=
    congrArg Reference.ofText text
  by_cases ended : '#' ∈ r.toList
  · obtain ⟨fragment, was, becomes⟩ :=
      ofText_append_of_fragment ended (queryMark r.toList :: Url.formAppend [] pairs)
    rw [← read] at becomes
    refine ⟨by rw [becomes], ?_, fun _ => ⟨by rw [becomes], fragment, was, by rw [becomes]; rfl⟩⟩
    refine ⟨?_, fun whole => absurd ended whole⟩
    rintro ⟨same, -⟩
    rw [becomes, was] at same
    simp at same
  · obtain ⟨path, fragment, held⟩ := ofText_append_of_whole ended pairs
    rw [← read] at path fragment held
    exact ⟨path, ⟨fun _ => ended, fun _ => ⟨fragment, held⟩⟩, fun h => absurd h ended⟩

/-- Behind a query that ends in an ampersand a second one is put, which makes no pair. -/
theorem relative_query_appended_sample : ∃ appended,
    [("q", "ä #"), ("", "")] ≠ [] ∧
    (Target.relative "s?a=1&b&").appendQuery [("q", "ä #"), ("", "")] = .relative appended ∧
    (Reference.ofText appended.toList).path = "s".toList ∧
    (Reference.ofText appended.toList).pairs =
      [("a", "1"), ("b", ""), ("q", "ä #"), ("", "")] := by
  have given : [("q", "ä #"), ("", "")] ≠ [] := by simp
  obtain ⟨appended, put, path, whole, -⟩ := relative_query_appended "s?a=1&b&" given
  have held := (whole.mpr (by decide)).2
  have old : (Reference.ofText "s?a=1&b&".toList).pairs = [("a", "1"), ("b", "")] := by
    decide +kernel
  rw [old] at held
  exact ⟨appended, given, put, path, held⟩

/-- A reference with a fragment gets no query: the pair becomes a part of the fragment. -/
theorem relative_query_after_fragment :
    Target.parse "a#b" = .ok (.relative "a#b") ∧
    (Target.relative "a#b").appendQuery [("k", "v")] = .relative "a#b?k=v" ∧
    (Reference.ofText "a#b".toList).fragment = some "b".toList ∧
    (Reference.ofText "a#b?k=v".toList).fragment = some "b?k=v".toList ∧
    (Reference.ofText "a#b?k=v".toList).pairs = [] := by
  refine ⟨Outcome.eq_ok_of_toOption (by decide), ?_, ?_, ?_, ?_⟩ <;> decide

end Runbook
