import Mathlib.Logic.Relation
import Runbook.Extract
import Runbook.Proofs.Text.Letters
import Runbook.Proofs.Text.Split

set_option autoImplicit false
set_option relaxedAutoImplicit false

/-!
Declared media types. The first line with the name of a content type decides whether a body is JSON,
and of its value only what stands before the parameters does, apart from white space and letter
case. Whatever else is changed in the header lines, a response brings the same variables.
-/

namespace Runbook

open Runbook.Text (isBlank sameIgnoringCase Trimmed)

namespace Response

variable {r s : Response} {value other : String} {media : List Char}

/-- The media type of a content type, without its parameters and in small letters. -/
def mediaType (contentType : String) : List Char :=
  (Text.trimBlanks (contentType.toList.takeWhile (· != ';'))).map Char.toLower

/-- Whether a text is nothing or begins parameters. -/
def BeginsParameters (cs : List Char) : Prop := cs = [] ∨ ∃ text, cs = ';' :: text

/-- Whether a content type names a media type: it is what stands before the first semicolon, without
the white space around it and in small letters. -/
def NamesMedia (contentType : String) (media : List Char) : Prop :=
  ∃ lead middle trail parameters, contentType.toList = lead ++ middle ++ trail ++ parameters ∧
    (∀ c ∈ lead, isBlank c = true) ∧ (∀ c ∈ trail, isBlank c = true) ∧ Trimmed middle ∧
    ';' ∉ middle ∧ BeginsParameters parameters ∧ media = middle.map Char.toLower

/-- Whether a media type is that of JSON texts, or has a subtype that is written in JSON. -/
def IsJsonMedia (media : List Char) : Prop :=
  media = "application/json".toList ∨
    ∃ kind name, media = kind ++ '/' :: name ++ "+json".toList ∧
      kind ≠ [] ∧ '/' ∉ kind ∧ name ≠ []

private theorem semicolon_notMem {cs : List Char} (blank : ∀ c ∈ cs, isBlank c = true) :
    ';' ∉ cs := by
  intro member
  exact absurd (blank ';' member) (by decide)

private theorem takeWhile_parameters {front parameters : List Char} (free : ';' ∉ front)
    (ends : BeginsParameters parameters) :
    (front ++ parameters).takeWhile (· != ';') = front := by
  rcases ends with rfl | ⟨text, rfl⟩
  · rw [List.append_nil, Text.takeWhile_eq_self free]
  · exact Text.takeWhile_append_cut free text

private theorem exists_parameters (cs : List Char) : ∃ front parameters,
    cs = front ++ parameters ∧ ';' ∉ front ∧ BeginsParameters parameters := by
  by_cases member : ';' ∈ cs
  · obtain ⟨front, text, whole, free⟩ := List.eq_append_cons_of_mem member
    exact ⟨front, ';' :: text, whole, free, .inr ⟨text, rfl⟩⟩
  · exact ⟨cs, [], (List.append_nil cs).symm, member, .inl rfl⟩

theorem namesMedia_iff : NamesMedia value media ↔ mediaType value = media := by
  constructor
  · rintro ⟨lead, middle, trail, parameters, whole, before, behind, trimmed, inner, ends, rfl⟩
    have free : ';' ∉ lead ++ middle ++ trail := by
      simp only [List.mem_append, not_or]
      exact ⟨⟨semicolon_notMem before, inner⟩, semicolon_notMem behind⟩
    rw [mediaType, whole, takeWhile_parameters free ends,
      Text.trimBlanks_append before behind trimmed]
  · rintro rfl
    obtain ⟨front, parameters, whole, free, ends⟩ := exists_parameters value.toList
    obtain ⟨lead, trail, parts, before, behind⟩ := Text.exists_trimBlanks front
    refine ⟨lead, Text.trimBlanks front, trail, parameters, by rw [← parts, whole], before, behind,
      Text.trimmed_trimBlanks front, ?_, ends, ?_⟩
    · intro inner
      rw [parts] at free
      exact free (List.mem_append_left _ (List.mem_append_right _ inner))
    · rw [mediaType, whole, takeWhile_parameters free ends]

/-- A content type is JSON by its media type alone. -/
theorem isJsonType_iff : isJsonType value = true ↔ IsJsonMedia (mediaType value) := by
  rw [isJsonType, IsJsonMedia, mediaType]
  generalize (Text.trimBlanks (value.toList.takeWhile (· != ';'))).map Char.toLower = media
  simp only [Bool.or_eq_true, beq_iff_eq]
  refine or_congr_right ?_
  cases cut : Text.splitOnce? '/' media with
  | none =>
    refine iff_of_false Bool.false_ne_true ?_
    rintro ⟨kind, name, rfl, -, free, -⟩
    rw [List.append_assoc, List.cons_append, Text.splitOnce?_append free] at cut
    cases cut
  | some parts =>
    obtain ⟨kind, subtype⟩ := parts
    obtain ⟨rfl, free⟩ := Text.splitOnce?_eq_some.mp cut
    simp only [Bool.and_eq_true, Bool.not_eq_true', List.isEmpty_eq_false_iff, decide_eq_true_eq,
      List.isSuffixOf_iff_suffix]
    constructor
    · rintro ⟨⟨some, long⟩, name, rfl⟩
      refine ⟨kind, name, by rw [List.append_assoc, List.cons_append]; rfl, some, free, ?_⟩
      rintro rfl
      rw [List.nil_append] at long
      exact absurd long (Nat.lt_irrefl _)
    · rintro ⟨kind', name, same, some, free', named⟩
      rw [List.append_assoc, List.cons_append] at same
      have parts := Text.splitOnce?_eq_some.mpr ⟨same, free'⟩
      rw [cut] at parts
      obtain ⟨rfl, rfl⟩ := Prod.mk.inj (Option.some.inj parts)
      refine ⟨⟨some, ?_⟩, name, rfl⟩
      have size : 0 < name.length := List.length_pos_iff.mpr named
      rw [List.length_append]
      exact Nat.lt_add_of_pos_left size

theorem isJsonType_congr (same : mediaType value = mediaType other) :
    isJsonType value = isJsonType other := by
  rw [Bool.eq_iff_iff, isJsonType_iff, isJsonType_iff, same]

theorem isJson_congr (same : r.contentType?.map mediaType = s.contentType?.map mediaType) :
    r.isJson = s.isJson := by
  have decided : ∀ o p : Option String, o.map mediaType = p.map mediaType →
      o.any isJsonType = p.any isJsonType := by
    rintro (_ | value) (_ | other) same
    · rfl
    · cases same
    · cases same
    · exact isJsonType_congr (Option.some.inj same)
  exact decided _ _ same

theorem isJson_of_mediaType (typed : r.contentType?.map mediaType = some "application/json".toList) :
    r.isJson = true := by
  obtain ⟨contentType, declared, media⟩ := Option.map_eq_some_iff.mp typed
  rw [isJson, declared, Option.any_some, isJsonType_iff]
  exact .inl media

/-- The first line of its name declares the content type. -/
theorem contentType?_eq_some : r.contentType? = some value ↔ ∃ before name after,
    r.headers = before ++ (name, value) :: after ∧ sameIgnoringCase name "content-type" = true ∧
      ∀ line ∈ before, sameIgnoringCase line.1 "content-type" = false := by
  rw [contentType?, Headers.get?, Option.map_eq_some_iff]
  simp only [List.find?_eq_some_iff_append, Bool.not_eq_true']
  constructor
  · rintro ⟨⟨name, _⟩, ⟨named, before, after, whole, others⟩, rfl⟩
    exact ⟨before, name, after, whole, named, others⟩
  · rintro ⟨before, name, after, whole, named, others⟩
    exact ⟨(name, value), ⟨named, before, after, whole, others⟩, rfl⟩

end Response

/-- Ways to write a value that leave its media type as it is. -/
inductive Respelled : String → String → Prop
  | letters {s t : String} : sameIgnoringCase s t = true → Respelled s t
  | blanks {s lead trail : String} : (∀ c ∈ lead.toList, isBlank c = true) →
      (∀ c ∈ trail.toList, isBlank c = true) → Respelled s (lead ++ s ++ trail)
  | parameters (s text : String) : Respelled s (s ++ ";" ++ text)

theorem Respelled.mediaType_eq {s t : String} (h : Respelled s t) :
    Response.mediaType t = Response.mediaType s := by
  have folded : ∀ s : String, Response.mediaType s =
      Text.trimBlanks ((s.toList.map Char.toLower).takeWhile (· != ';')) := by
    intro s
    rw [Response.mediaType, Text.takeWhile_map_toLower (by decide), Text.trimBlanks_map_toLower]
  obtain ⟨front, middle, back, parameters, whole, before, behind, rest⟩ :=
    Response.namesMedia_iff.mpr (rfl : Response.mediaType s = Response.mediaType s)
  obtain ⟨trimmed, inner, ends, small⟩ := rest
  cases h with
  | letters same => rw [folded, folded, Text.sameIgnoringCase_iff.mp same]
  | @blanks lead trail lead_blank trail_blank =>
    have before' := List.forall_mem_append.mpr ⟨lead_blank, before⟩
    rcases ends with rfl | ⟨text, rfl⟩
    · refine Response.namesMedia_iff.mp ⟨lead.toList ++ front, middle, back ++ trail.toList, [], ?_,
        before', List.forall_mem_append.mpr ⟨behind, trail_blank⟩, trimmed, inner, .inl rfl, small⟩
      simp [whole]
    · refine Response.namesMedia_iff.mp ⟨lead.toList ++ front, middle, back,
        ';' :: (text ++ trail.toList), ?_, before', behind, trimmed, inner, .inr ⟨_, rfl⟩, small⟩
      simp [whole]
  | parameters text =>
    refine Response.namesMedia_iff.mp ⟨front, middle, back, parameters ++ ';' :: text.toList, ?_,
      before, behind, trimmed, inner, ?_, small⟩
    · simp [whole]
    · rcases ends with rfl | ⟨earlier, rfl⟩
      · exact .inr ⟨text.toList, rfl⟩
      · exact .inr ⟨_, List.cons_append⟩

namespace Headers

/-- Ways to change header lines that leave the media type as it is: a name in other letters, a value
in another spelling, and one more content type behind another. -/
inductive Restated : Headers → Headers → Prop
  | name (before after : Headers) {name other : String} (value : String) :
      sameIgnoringCase name other = true →
      Restated (before ++ (name, value) :: after) (before ++ (other, value) :: after)
  | value (before after : Headers) (name : String) {value other : String} :
      Respelled value other →
      Restated (before ++ (name, value) :: after) (before ++ (name, other) :: after)
  | again (before after : Headers) {name : String} (value : String) :
      before.has "content-type" = true → sameIgnoringCase name "content-type" = true →
      Restated (before ++ after) (before ++ (name, value) :: after)

variable {headers other : Headers}

theorem get?_append (before after : Headers) (name : String) :
    (before ++ after).get? name = (before.get? name).or (after.get? name) := by
  rw [get?, get?, get?, List.find?_append, Option.map_or]

theorem get?_cons (line : String × String) (after : Headers) (name : String) :
    Headers.get? (line :: after) name =
      if sameIgnoringCase line.1 name then some line.2 else after.get? name := by
  rw [get?, get?, List.find?_cons]
  cases sameIgnoringCase line.1 name <;> rfl

/-- No single change of the header lines changes the media type. -/
theorem Restated.mediaType_eq (h : Restated headers other) :
    (other.get? "content-type").map Response.mediaType =
      (headers.get? "content-type").map Response.mediaType := by
  cases h with
  | name _ _ _ same =>
    rw [get?_append, get?_append, get?_cons, get?_cons, Text.sameIgnoringCase_congr same]
  | value _ _ name respelled =>
    rw [get?_append, get?_append, get?_cons, get?_cons, Option.map_or, Option.map_or]
    cases sameIgnoringCase name "content-type" with
    | false => rfl
    | true => simp only [if_true, Option.map_some, respelled.mediaType_eq]
  | again _ _ _ declared _ =>
    rw [get?_append, get?_append, Option.or_of_isSome declared, Option.or_of_isSome declared]

/-- No changes of the header lines one after the other change the media type. -/
theorem mediaType_eq_of_restated (h : Relation.ReflTransGen Restated headers other) :
    (other.get? "content-type").map Response.mediaType =
      (headers.get? "content-type").map Response.mediaType := by
  induction h with
  | refl => rfl
  | tail _ step ih => exact step.mediaType_eq.trans ih

end Headers

namespace Response

variable {r s : Response}

theorem responseVars_congr (body : s.body = r.body) (json : s.isJson = r.isJson) :
    Extract.responseVars s = Extract.responseVars r := by
  rw [Extract.responseVars, Extract.responseVars, json, body]

end Response

open Response

/-- A response is JSON if and only if the first line with the name of a content type names a media
type of JSON. However its header lines are restated, it stays so or not, it brings the same variables
and the same outputs are taken from it. -/
theorem json_is_declared (r : Response) :
    (r.isJson = true ↔ ∃ before name value after media, r.headers = before ++ (name, value) :: after ∧
      sameIgnoringCase name "content-type" = true ∧
      (∀ line ∈ before, sameIgnoringCase line.1 "content-type" = false) ∧
      NamesMedia value media ∧ IsJsonMedia media) ∧
    ∀ s : Response, Relation.ReflTransGen Headers.Restated r.headers s.headers → s.body = r.body →
      s.isJson = r.isJson ∧ Extract.responseVars s = Extract.responseVars r ∧
        ∀ templates session,
          Extract.outputs templates s session = Extract.outputs templates r session := by
  refine ⟨?_, ?_⟩
  · rw [isJson, Option.any_eq_true]
    simp only [contentType?_eq_some, isJsonType_iff]
    constructor
    · rintro ⟨value, ⟨before, name, after, whole, named, others⟩, json⟩
      exact ⟨before, name, value, after, _, whole, named, others, namesMedia_iff.mpr rfl, json⟩
    · rintro ⟨before, name, value, after, media, whole, named, others, names, json⟩
      rw [← namesMedia_iff.mp names] at json
      exact ⟨value, ⟨before, name, after, whole, named, others⟩, json⟩
  · intro s restated body
    have json : s.isJson = r.isJson := isJson_congr (Headers.mediaType_eq_of_restated restated)
    have vars := responseVars_congr body json
    refine ⟨json, vars, ?_⟩
    intro templates session
    rw [Extract.outputs, Extract.outputs, Extract.scope, Extract.scope, vars]

private def vendorJson : Response :=
  ⟨200, "OK", "HTTP/1.1", [("Content-Type", "application/hal+json")], []⟩

private def restatedJson : Response :=
  ⟨200, "OK", "HTTP/1.1",
    [("CONTENT-type", " " ++ "Application/HAL+json" ++ " " ++ ";" ++ "charset=utf-8"),
      ("content-type", "text/html")], []⟩

/-- A JSON response stays one with its content type in other letters, with white space around it and
a parameter behind it, and with another content type after it. -/
theorem json_is_declared_restated :
    Relation.ReflTransGen Headers.Restated vendorJson.headers restatedJson.headers ∧
      vendorJson.isJson = true ∧ restatedJson.isJson = true := by
  have renamed : sameIgnoringCase "Content-Type" "CONTENT-type" = true := by decide
  have lettered : sameIgnoringCase "application/hal+json" "Application/HAL+json" = true := by decide
  have blank : ∀ c ∈ " ".toList, isBlank c = true := List.all_eq_true.mp (by decide)
  have restated : Relation.ReflTransGen Headers.Restated vendorJson.headers
      restatedJson.headers := by
    rw [vendorJson, restatedJson]
    refine .head (.name [] [] _ renamed) ?_
    refine .head (.value [] [] _ (.letters lettered)) ?_
    refine .head (.value [] [] _ (.blanks blank blank)) ?_
    refine .head (.value [] [] _ (.parameters _ "charset=utf-8")) ?_
    exact .single (.again [_] [] _ (by decide) (by decide))
  have json : vendorJson.isJson = true := by decide
  exact ⟨restated, json, ((json_is_declared vendorJson).2 restatedJson restated rfl).1.trans json⟩

end Runbook
