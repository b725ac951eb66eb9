import Runbook.Proofs.Json.Nesting
import Runbook.Proofs.Request.Headers
import Runbook.Proofs.Response.MediaType

set_option autoImplicit false
set_option relaxedAutoImplicit false

/-!
JSON bodies that are sent back. The text that is sent for the `json_body` of an action, received as
the JSON body of a response, brings the value of the field: its members as variables, in their
order, if it is a map, and the one variable of the body if it is not.
-/

namespace Runbook

open Runbook.Request

namespace Request

variable {fields : Fields} {scope : Scope} {settings : Settings} {d : Descriptor} {v : Value}

theorem bodyOf_json (given : fields.get? "json_body" = some v) (notNull : v ≠ .null) :
    bodyOf fields = some (Json.printBytes v) := by
  have isNull : v.isNull = false := by
    cases v with
    | null => exact absurd rfl notNull
    | _ => rfl
  have value : given? fields "json_body" = some v := by
    unfold given?
    rw [given, Option.filter_some, isNull]
    rfl
  unfold bodyOf
  rw [value]

end Request

/-- A JSON body comes back from the text that is sent for it. The response has the media type of
JSON and the body of the request that the fields of an action describe. The value of the field holds
no floating-point numbers, no map in it declares a key twice, and it has at most 127 lists and maps
inside one another; if it has more, the response brings no variables at all. -/
theorem json_body_comes_back {fields : Fields} {scope : Scope} {settings : Settings}
    {d : Descriptor} {v : Value} {r : Response} (given : fields.get? "json_body" = some v)
    (notNull : v ≠ .null) (integers : v.isExact = true) (distinct : v.isDistinct = true)
    (built : describe fields scope settings = .ok d)
    (typed : r.contentType?.map Response.mediaType = some "application/json".toList)
    (echoed : d.body = some r.body) :
    (v.depth ≤ 127 →
      (∀ members, v = .map members → Extract.responseVars r = members) ∧
      ((∀ members, v ≠ .map members) → Extract.responseVars r = [("body", v)])) ∧
    (127 < v.depth → Extract.responseVars r = []) := by
  obtain ⟨_, _, _, _, _, _, -, -, -, -, -, -, rfl⟩ := describe_eq_ok.mp built
  have sent : r.body = Json.printBytes v := by
    have body := bodyOf_json given notNull
    rw [body] at echoed
    exact (Option.some.inj echoed).symm
  have json := Response.isJson_of_mediaType typed
  have read := Json.readBytes?_printBytes integers distinct
  rw [← sent] at read
  unfold Extract.responseVars
  rw [if_pos json, read]
  refine ⟨fun shallow => ?_, fun deep => ?_⟩
  · have within : v.depth ≤ Json.maxDepth := shallow
    rw [if_pos within]
    refine ⟨?_, ?_⟩
    · rintro members rfl
      rfl
    · intro other
      cases v with
      | map members => exact absurd rfl (other members)
      | _ => rfl
  · have beyond : ¬ v.depth ≤ Json.maxDepth := Nat.not_le.mpr deep
    rw [if_neg beyond]

private def oddMembers : Fields := [
  ("a\"\\\n\x01é😀", .list [.natural 18446744073709551615, .bool true, .null]),
  ("", .map [("least", ((Num.ofInt? (-9223372036854775808)).map Value.num).getD .null)]),
  ("body", .str "\t/")]

/-- Lists inside one another, one more than so many. -/
private def nested : Nat → Value
  | 0 => .list []
  | n + 1 => .list [nested n]

example : (nested 126).depth = 127 := by decide +kernel

private def echo (body : Text.Bytes) : Response :=
  { Response.ofStatus 200 "OK" with
    headers := [("content-TYPE", "Application/JSON; charset=utf-8")], body }

private def posting (v : Value) : Fields := [("url", .str "x"), ("json_body", v)]

private theorem describe_posting {v : Value} (notNull : v ≠ .null) : ∃ d body,
    describe (posting v) .empty .standard = .ok d ∧ d.body = some body := by
  have parsed : Target.parse "x" = .ok (.relative "x") :=
    Outcome.eq_ok_of_toOption (by decide +kernel)
  have own : ownTarget (posting v) = .ok (.relative "x") := by
    have url : (Fields.get? (posting v) "url").getD .null = .str "x" := rfl
    unfold ownTarget
    rw [url, Target.ofValue, parsed]
    rfl
  have base : baseOf (posting v) .empty = .ok none := by
    have absent : given? (posting v) "base_url" = none := rfl
    have unknown : Scope.empty.evaluate "base_url" = .null := by decide +kernel
    unfold baseOf
    rw [absent, Option.getD_none, unknown]
    rfl
  exact ⟨_, _, describe_eq_ok.mpr ⟨.get, _, _, _, [], [], rfl, own, base, rfl, rfl, rfl, rfl⟩,
    bodyOf_json rfl notNull⟩

/-- A map with odd texts and the numbers at both ends comes back with its members, a list as deep as
may be as one variable, and a deeper one not at all. -/
theorem json_body_comes_back_sample :
    (∃ d body, describe (posting (.map oddMembers)) .empty .standard = .ok d ∧
      d.body = some body ∧ Extract.responseVars (echo body) = oddMembers) ∧
    (∃ d body, describe (posting (nested 126)) .empty .standard = .ok d ∧
      d.body = some body ∧ Extract.responseVars (echo body) = [("body", nested 126)]) ∧
    ∃ d body, describe (posting (nested 127)) .empty .standard = .ok d ∧
      d.body = some body ∧ Extract.responseVars (echo body) = [] := by
  have typed : ∀ body,
      (echo body).contentType?.map Response.mediaType = some "application/json".toList := by
    intro body
    have media : Response.mediaType "Application/JSON; charset=utf-8" =
        "application/json".toList := by
      decide +kernel
    exact congrArg some media
  have list : ∀ n members, nested n ≠ .map members := by
    intro n members
    cases n <;> simp [nested]
  have notNull : ∀ n, nested n ≠ .null := by
    intro n
    cases n <;> simp [nested]
  refine ⟨?_, ?_, ?_⟩
  · obtain ⟨d, body, built, sent⟩ := describe_posting (v := .map oddMembers) (by simp)
    have back := json_body_comes_back rfl (by simp) (by decide +kernel) (by decide +kernel) built
      (typed body) sent
    exact ⟨d, body, built, sent, (back.1 (by decide +kernel)).1 oddMembers rfl⟩
  · obtain ⟨d, body, built, sent⟩ := describe_posting (notNull 126)
    have back := json_body_comes_back rfl (notNull 126) (by decide +kernel) (by decide +kernel)
      built (typed body) sent
    exact ⟨d, body, built, sent, (back.1 (by decide +kernel)).2 (list 126)⟩
  · obtain ⟨d, body, built, sent⟩ := describe_posting (notNull 127)
    have back := json_body_comes_back rfl (notNull 127) (by decide +kernel) (by decide +kernel)
      built (typed body) sent
    exact ⟨d, body, built, sent, back.2 (by decide +kernel)⟩

end Runbook
