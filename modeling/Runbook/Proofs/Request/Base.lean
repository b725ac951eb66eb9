import Runbook.Proofs.Request.Headers

set_option autoImplicit false
set_option relaxedAutoImplicit false

/-!
The base of a request with an absolute target. It is read from the fields or the scope whatever the
target is, and a base that is no target is refused at once. A base that is not refused has no part
in the request: fields that agree on all the rest make the same one.
-/

namespace Runbook

namespace Request

/-- Fields of which at most the base differs. -/
def SameButBase (fields others : Fields) : Prop :=
  ∀ key, key ≠ "base_url" → fields.get? key = others.get? key

variable {fields others : Fields} {scope : Scope} {settings : Settings} {url : Url}

theorem SameButBase.symm (same : SameButBase fields others) : SameButBase others fields := by
  intro key other
  exact (same key other).symm

theorem SameButBase.given?_eq (same : SameButBase fields others) {key : String}
    (other : key ≠ "base_url") : given? fields key = given? others key := by
  unfold given?
  rw [same key other]

theorem SameButBase.methodOf_eq (same : SameButBase fields others) :
    methodOf fields = methodOf others := by
  unfold methodOf
  rw [same.given?_eq (by decide)]

theorem SameButBase.ofComponents_eq (same : SameButBase fields others) :
    Target.ofComponents fields = Target.ofComponents others := by
  have text : ∀ key, key ≠ "base_url" →
      Target.component? fields key = Target.component? others key := by
    intro key other
    unfold Target.component?
    rw [same key other]
  have port : Target.portOf fields = Target.portOf others := by
    unfold Target.portOf
    rw [same "port" (by decide)]
  unfold Target.ofComponents
  rw [text "path" (by decide), text "host" (by decide), text "scheme" (by decide), port]

theorem SameButBase.ownTarget_eq (same : SameButBase fields others) :
    ownTarget fields = ownTarget others := by
  unfold ownTarget
  rw [same "url" (by decide), same.ofComponents_eq]

/-- The request that fields describe once its method and its target are known. -/
def describeAt (fields : Fields) (settings : Settings) (method : Method) (target : Target) :
    Except Fault Descriptor := do
  let query ← expandPairs "query" (fields.get? "query")
  let headers ← expandPairs "headers" (fields.get? "headers")
  return {
    method
    target := target.appendQuery query
    headers := settings.defaultHeaders.foldl Headers.addMissing (declareBody fields headers)
    body := bodyOf fields
    credentials := credentialsOf fields }

theorem SameButBase.describeAt_eq (same : SameButBase fields others) (settings : Settings)
    (method : Method) (target : Target) :
    describeAt fields settings method target = describeAt others settings method target := by
  have body : bodyOf fields = bodyOf others := by
    unfold bodyOf
    rw [same.given?_eq (by decide), same.given?_eq (by decide)]
  have declared : declareBody fields = declareBody others := by
    unfold declareBody
    rw [same.given?_eq (by decide)]
  have credentials : credentialsOf fields = credentialsOf others := by
    unfold credentialsOf
    rw [same.given?_eq (by decide), same.given?_eq (by decide)]
  unfold describeAt
  rw [same "query" (by decide), same "headers" (by decide), body, declared, credentials]

/-- Of a base, an absolute target asks only whether it is refused. -/
theorem describe_of_absolute (own : ownTarget fields = .ok (.absolute url)) (scope : Scope)
    (settings : Settings) :
    describe fields scope settings = (do
      let method ← methodOf fields
      let _ ← baseOf fields scope
      describeAt fields settings method (.absolute url)) := by
  -- Resolving looks at the base of a relative target only; what is left of it is its refusal.
  have kept : ∀ base, Target.resolve (.absolute url) base = .ok (.absolute url) := fun _ => rfl
  unfold describe describeAt
  rw [own]
  simp only [kept, bind, Except.bind]

end Request

open Runbook.Request

/-- A request whose own target is absolute is the same, or fails for the same reason, whatever the
scope and the base in its fields are, as long as the base is not refused. It fails for the base
only if that is refused and the method is not, and the target of a request is its own one with the
pairs of the query appended. -/
theorem absolute_target_ignores_base {fields others : Fields} {url : Url}
    (same : SameButBase fields others) (own : ownTarget fields = .ok (.absolute url))
    (scope scope' : Scope) (settings : Settings) :
    (∀ base base', baseOf fields scope = .ok base → baseOf others scope' = .ok base' →
      describe fields scope settings = describe others scope' settings) ∧
    (∀ fault, methodOf fields = .error fault →
      describe fields scope settings = .error fault ∧
        describe others scope' settings = .error fault) ∧
    (∀ method fault, methodOf fields = .ok method → baseOf fields scope = .error fault →
      describe fields scope settings = .error fault) ∧
    ∀ d, describe fields scope settings = .ok d →
      ∃ pairs, expandPairs "query" (fields.get? "query") = .ok pairs ∧
        d.target = (Target.absolute url).appendQuery pairs := by
  have own' : ownTarget others = .ok (.absolute url) := same.ownTarget_eq ▸ own
  refine ⟨?_, ?_, ?_, ?_⟩
  · intro base base' accepted accepted'
    rw [describe_of_absolute own, describe_of_absolute own', accepted, accepted', same.methodOf_eq]
    refine bind_congr fun method => ?_
    exact same.describeAt_eq settings method _
  · intro fault refused
    have refused' : methodOf others = .error fault := same.methodOf_eq ▸ refused
    rw [describe_of_absolute own, describe_of_absolute own', refused, refused']
    exact ⟨rfl, rfl⟩
  · intro method fault known refused
    rw [describe_of_absolute own, known, refused]
    rfl
  · intro d built
    obtain ⟨_, target, base, resolved, query, _, -, found, -, kept, expanded, -, rfl⟩ :=
      describe_eq_ok.mp built
    obtain rfl : Target.absolute url = target := Except.ok.inj (own.symm.trans found)
    obtain rfl : Target.absolute url = resolved := Except.ok.inj kept
    exact ⟨query, expanded, rfl⟩

private def pointed (base : Value) : Fields := [("url", .str "https://a.dev/x"), ("base_url", base)]

private def pointedUrl : Url where
  scheme := "https"
  authority := some ⟨"", none, some (.domain "a.dev"), none⟩
  path := .hierarchy "/x"
  query := none
  fragment := none

private theorem sameButBase_pointed (base base' : Value) :
    SameButBase (pointed base) (pointed base') := by
  intro key other
  simp [pointed, Fields.get?, Ne.symm other]

/-- Another base than that of the fields makes no difference. -/
theorem absolute_target_ignores_base_sample : ∃ d,
    describe (pointed (.str "https://b.dev/")) .empty .standard = .ok d ∧
    describe (pointed .null) .empty .standard = .ok d ∧ d.target = .absolute pointedUrl := by
  have own : ownTarget (pointed (.str "https://b.dev/")) = .ok (.absolute pointedUrl) :=
    Outcome.eq_ok_of_toOption (by decide +kernel)
  have described : (describe (pointed (.str "https://b.dev/")) .empty .standard).toOption.map
      (·.target) = some (.absolute pointedUrl) := by
    decide +kernel
  have based : (baseOf (pointed (.str "https://b.dev/")) .empty).isOk = true := by decide +kernel
  have bare : baseOf (pointed .null) .empty = .ok none :=
    Outcome.eq_ok_of_toOption (by decide +kernel)
  obtain ⟨d, built, found⟩ := Outcome.exists_of_toOption_map described
  obtain ⟨base, accepted⟩ := Outcome.exists_of_isOk based
  have equal := (absolute_target_ignores_base (sameButBase_pointed _ .null) own .empty .empty
    .standard).1 base none accepted bare
  exact ⟨d, built, equal.symm.trans built, found⟩

/-- A base that is no target is refused, though the target needs none. -/
theorem absolute_target_refused_for_base : ∃ d,
    SameButBase (pointed (.bool true)) (pointed .null) ∧
    ownTarget (pointed (.bool true)) = .ok (.absolute pointedUrl) ∧
    describe (pointed .null) .empty .standard = .ok d ∧
    describe (pointed (.bool true)) .empty .standard = .error (.notATarget (.bool true)) := by
  have own : ownTarget (pointed (.bool true)) = .ok (.absolute pointedUrl) :=
    Outcome.eq_ok_of_toOption (by decide +kernel)
  have described : (describe (pointed .null) .empty .standard).isOk = true := by decide +kernel
  obtain ⟨d, built⟩ := Outcome.exists_of_isOk described
  refine ⟨d, sameButBase_pointed _ _, own, built, ?_⟩
  rw [describe_of_absolute own]
  rfl

end Runbook
