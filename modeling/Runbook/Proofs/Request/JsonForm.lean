import Runbook.Proofs.Json.Nesting
import Runbook.Proofs.Request.Headers
import Runbook.Proofs.Request.Query
import Runbook.Proofs.Url.Scheme
import Runbook.Request.Reading

set_option autoImplicit false
set_option relaxedAutoImplicit false

/-!
Requests in JSON and back. Everything of a request but its target comes back as it was. The target
comes back if it is a URL that its own text is read as, or a relative reference that is no text of a
URL; and of the requests that are described, only one that has a path for its target can hold a
reference that is.
-/

namespace Runbook.Request

open Runbook.Text (Bytes)

section Parts

private theorem areExact_of_forall {vs : List Value} (h : ∀ v ∈ vs, v.isExact = true) :
    Value.areExact vs = true := by
  induction vs with
  | nil => rfl
  | cons v vs ih =>
    obtain ⟨first, rest⟩ := List.forall_mem_cons.mp h
    rw [Value.areExact, first, ih rest]
    rfl

private theorem depthOfItems_le {vs : List Value} {n : Nat} (h : ∀ v ∈ vs, v.depth ≤ n) :
    Value.depthOfItems vs ≤ n := by
  induction vs with
  | nil => exact Nat.zero_le n
  | cons v vs ih =>
    obtain ⟨first, rest⟩ := List.forall_mem_cons.mp h
    exact Nat.max_le.mpr ⟨first, ih rest⟩

theorem natural_eq {n : Nat} (below : n < 18446744073709551616) : ∃ lower upper,
    Value.natural n = .num (.integer n lower upper) := by
  have fits : (-9223372036854775808 : Int) ≤ n ∧ (n : Int) < 18446744073709551616 := by omega
  refine ⟨fits.1, fits.2, ?_⟩
  rw [Value.natural, Num.ofInt?, dif_pos fits]
  rfl

variable (headers : Headers) (bytes : Bytes) (c : Credentials) (d : Descriptor)

theorem headers?_headersValue : headers? (headersValue headers) = some headers := by
  have each : ∀ line : String × String,
      headerLine? (.list [.str line.1, .str line.2]) = some line := fun _ => rfl
  exact Outcome.mapM_map_eq_some each headers

theorem bytes?_bytesValue : bytes? (bytesValue bytes) = some bytes := by
  refine Outcome.mapM_map_eq_some (fun b => ?_) bytes
  have below := b.toNat_lt
  obtain ⟨lower, upper, number⟩ := natural_eq (n := b.toNat) (by omega)
  rw [number, Record.natural?, if_pos (by omega)]
  simp

theorem Credentials.ofValue?_toValue : Credentials.ofValue? c.toValue = some c := by
  obtain ⟨username, password⟩ := c
  cases password <;> rfl

/-- A request is read from its value with the target that its text is read as. -/
theorem Descriptor.ofValue?_toValue : Descriptor.ofValue? d.toValue =
    (Target.ofText? (.str d.target.text)).map fun target => { d with target } := by
  obtain ⟨method, target, headers, body, credentials⟩ := d
  have named : Method.ofValue? (.str method.text) = some method := Method.named?_text method
  have octets : Record.nullable? bytes? (.optional (body.map bytesValue)) = some body := by
    cases body with
    | none => rfl
    | some bytes => exact congrArg (Option.map some) (bytes?_bytesValue bytes)
  have secret : Record.nullable? Credentials.ofValue?
      (.optional (credentials.map Credentials.toValue)) = some credentials := by
    cases credentials with
    | none => rfl
    | some c => exact congrArg (Option.map some) (Credentials.ofValue?_toValue c)
  have fields : Record.fields? [["method"], ["uri"], ["headers"], ["body"], ["credentials"]]
      (Descriptor.toValue ⟨method, target, headers, body, credentials⟩) =
        some [some (.str method.text), some (.str target.text), some (headersValue headers),
          some (.optional (body.map bytesValue)),
          some (.optional (credentials.map Credentials.toValue))] :=
    rfl
  unfold ofValue?
  rw [fields]
  simp only [hasLength, Descriptor.toValue, Bool.not_true, Bool.false_eq_true, if_false,
    Option.bind_eq_bind, Option.bind_some, named, headers?_headersValue, Option.getD_some, octets,
    secret]
  cases Target.ofText? (.str target.text) <;> rfl

theorem isExact_toValue : d.toValue.isExact = true := by
  have lines : ∀ headers : Headers, (headersValue headers).isExact = true := by
    intro headers
    refine areExact_of_forall fun v member => ?_
    obtain ⟨line, -, rfl⟩ := List.mem_map.mp member
    rfl
  have octets : ∀ bytes : Bytes, (bytesValue bytes).isExact = true := by
    intro bytes
    refine areExact_of_forall fun v member => ?_
    obtain ⟨b, -, rfl⟩ := List.mem_map.mp member
    have below := b.toNat_lt
    obtain ⟨lower, upper, number⟩ := natural_eq (n := b.toNat) (by omega)
    rw [number]
    rfl
  have body : (Value.optional (d.body.map bytesValue)).isExact = true := by
    cases d.body with
    | none => rfl
    | some bytes => exact octets bytes
  have credentials : (Value.optional (d.credentials.map Credentials.toValue)).isExact = true := by
    rcases d.credentials with _ | ⟨username, password⟩
    · rfl
    · cases password <;> rfl
  simp only [Descriptor.toValue, Value.isExact, Value.areExactIn, lines, body, credentials,
    Bool.and_self]

theorem depth_toValue : d.toValue.depth ≤ 3 := by
  have lines : (headersValue d.headers).depth ≤ 2 := by
    refine Nat.succ_le_succ (depthOfItems_le fun v member => ?_)
    obtain ⟨line, -, rfl⟩ := List.mem_map.mp member
    exact Nat.le_refl 1
  have body : (Value.optional (d.body.map bytesValue)).depth ≤ 2 := by
    cases d.body with
    | none => exact Nat.zero_le 2
    | some bytes =>
      refine Nat.succ_le_succ (depthOfItems_le fun v member => ?_)
      obtain ⟨b, -, rfl⟩ := List.mem_map.mp member
      have below := b.toNat_lt
      obtain ⟨lower, upper, number⟩ := natural_eq (n := b.toNat) (by omega)
      rw [number]
      exact Nat.zero_le 1
  have credentials : (Value.optional (d.credentials.map Credentials.toValue)).depth ≤ 2 := by
    rcases d.credentials with _ | ⟨username, password⟩
    · exact Nat.zero_le 2
    · cases password <;> exact Nat.le_succ 1
  simp only [Descriptor.toValue, Value.depth, Value.depthOfMembers]
  omega

/-- A request is read from its text with the target that its own text is read as. -/
theorem Descriptor.read?_print : Descriptor.read? (Json.print d.toValue) =
    (Target.ofText? (.str d.target.text)).map fun target => { d with target } := by
  have shallow : d.toValue.depth ≤ Json.maxDepth := (depth_toValue d).trans (by decide)
  rw [Descriptor.read?, Json.readDeclared?_print (isExact_toValue d), if_pos shallow,
    Option.bind_some, Descriptor.ofValue?_toValue]

end Parts

namespace Target

variable {r : String} {t : Target} {base : Option Target} {components : Fields} {v : Value}

theorem resolve_eq_relative (h : t.resolve base = .ok (.relative r)) :
    t = .relative r ∧ ∀ url, base ≠ some (.absolute url) := by
  unfold resolve at h
  split at h
  · split at h
    · cases h
    · cases h
  · next other =>
    obtain rfl := Except.ok.inj h
    refine ⟨rfl, ?_⟩
    rintro url rfl
    exact other r url rfl rfl

/-- Query pairs are put behind a relative reference after one of two marks. -/
theorem appendQuery_eq_relative {pairs : List (String × String)}
    (h : t.appendQuery pairs = .relative r) : ∃ path, t = .relative path ∧
      (r = path ∨ ∃ mark more, (mark = '?' ∨ mark = '&') ∧
        r = path ++ String.ofList (mark :: more)) := by
  cases pairs with
  | nil => exact ⟨r, h, .inl rfl⟩
  | cons pair pairs =>
    cases t with
    | absolute url => cases h
    | relative path =>
      obtain ⟨appended, whole, text⟩ := toList_appendQuery path (List.cons_ne_nil pair pairs)
      obtain rfl := Target.relative.inj (whole.symm.trans h)
      refine ⟨path, rfl, .inr ⟨queryMark path.toList, Url.formAppend [] (pair :: pairs), ?_, ?_⟩⟩
      · unfold queryMark
        split
        · exact .inr rfl
        · exact .inl rfl
      · rw [← String.toList_inj, text, String.toList_append, String.toList_ofList]

/-- Components make a relative reference of their path if they have no host. -/
theorem ofComponents_eq_relative (h : ofComponents components = .ok (.relative r)) :
    (component? components "host" = none ∨ component? components "host" = some "") ∧
      r = (component? components "path").getD "" := by
  unfold ofComponents at h
  extract_lets path scheme finish at h
  have absolute : ∀ url, finish url ≠ .ok (.relative r) := by
    intro url same
    cases same
  split at h
  · next none_ => exact ⟨.inl none_, (Target.relative.inj (Except.ok.inj h)).symm⟩
  · next empty => exact ⟨.inr empty, (Target.relative.inj (Except.ok.inj h)).symm⟩
  · split at h
    · cases h
    · obtain ⟨port, -, h⟩ := Outcome.bind_eq_ok.mp h
      split at h
      · obtain ⟨url, -, h⟩ := Outcome.bind_eq_ok.mp h
        exact absurd h (absolute url)
      · split at h
        · obtain ⟨url, -, h⟩ := Outcome.bind_eq_ok.mp h
          exact absurd h (absolute url)
        · cases h

theorem parse_eq_relative {input : String} (h : parse input = .ok (.relative r)) :
    input = r ∧ Url.read r = .error .noBase := by
  unfold parse at h
  split at h
  · cases h
  · next refused =>
    obtain rfl := Target.relative.inj (Except.ok.inj h)
    exact ⟨rfl, refused⟩
  · cases h

/-- A value names a relative reference as a text without a scheme or as components without a host,
and it names no target if it is null. -/
theorem ofValue_eq_ok {found : Option Target} (h : ofValue v = .ok found) :
    (found = none → v = .null) ∧ (found = some (.relative r) →
      (v = .str r ∧ Url.read r = .error .noBase) ∨
        ∃ components, v = .map components ∧ ofComponents components = .ok (.relative r)) := by
  unfold ofValue at h
  split at h
  · obtain rfl := Except.ok.inj h
    exact ⟨fun _ => rfl, fun absent => by cases absent⟩
  · next input =>
    obtain ⟨t, parsed, rfl⟩ := Outcome.map_eq_ok.mp h
    refine ⟨fun absent => (by cases absent), fun same => .inl ?_⟩
    obtain rfl := Option.some.inj same
    obtain ⟨rfl, refused⟩ := parse_eq_relative parsed
    exact ⟨rfl, refused⟩
  · next components =>
    obtain ⟨t, made, rfl⟩ := Outcome.map_eq_ok.mp h
    refine ⟨fun absent => (by cases absent), fun same => .inr ⟨components, rfl, ?_⟩⟩
    rw [made, Option.some.inj same]
  · cases h

theorem exists_ofText? (s : String) : ∃ t, ofText? (.str s) = some t := by
  cases read : Url.read s with
  | ok url => exact ⟨.absolute url, by simp only [ofText?, read]⟩
  | error _ => exact ⟨.relative s, by simp only [ofText?, read]⟩

/-- Whether the text of a target is read as the target. -/
def Reads : Target → Prop
  | .absolute url => Url.read url.text = .ok url
  | .relative r => ∀ url, Url.read r ≠ .ok url

theorem ofText?_eq_some : ofText? (.str t.text) = some t ↔ t.Reads := by
  unfold ofText? Reads
  cases t with
  | absolute url =>
    cases read : Url.read url.text <;> simp [text, read]
  | relative r =>
    cases read : Url.read r <;> simp [text, read]

end Target

/-- Whether fields name no target but a path: components without a host, in the field for the URL or
among the fields if that is null or not there. -/
def NamesPath (fields : Fields) (path : String) : Prop :=
  ∃ components : Fields,
    (fields.get? "url" = some (.map components) ∨
      (fields.get? "url" = none ∨ fields.get? "url" = some .null) ∧ components = fields) ∧
    (Target.component? components "host" = none ∨ Target.component? components "host" = some "") ∧
    path = (Target.component? components "path").getD ""

variable {fields : Fields} {scope : Scope} {settings : Settings} {d : Descriptor} {r : String}

/-- A relative reference that fields name is a text without a scheme or a path. -/
theorem ownTarget_eq_relative (h : ownTarget fields = .ok (.relative r)) :
    Url.read r = .error .noBase ∨ NamesPath fields r := by
  unfold ownTarget at h
  obtain ⟨found, named, h⟩ := Outcome.bind_eq_ok.mp h
  obtain ⟨absent, present⟩ := Target.ofValue_eq_ok (r := r) named
  split at h
  · next t =>
    obtain rfl := Except.ok.inj h
    rcases present rfl with ⟨-, refused⟩ | ⟨components, given, made⟩
    · exact .inl refused
    · obtain ⟨hostless, path⟩ := Target.ofComponents_eq_relative made
      have url : fields.get? "url" = some (.map components) := by
        cases there : fields.get? "url" with
        | none => simp [there] at given
        | some v => rw [there, Option.getD_some] at given; rw [given]
      exact .inr ⟨components, .inl url, hostless, path⟩
  · obtain ⟨hostless, path⟩ := Target.ofComponents_eq_relative h
    have url : fields.get? "url" = none ∨ fields.get? "url" = some .null := by
      cases there : fields.get? "url" with
      | none => exact .inl rfl
      | some v =>
        have null := absent rfl
        rw [there, Option.getD_some] at null
        exact .inr (by rw [null])
    exact .inr ⟨fields, .inr ⟨url, rfl⟩, hostless, path⟩

/-- Of a request with a relative reference, the reference has no scheme, or what it has is that of a
path that is all the fields name. -/
theorem relative_of_describe (described : describe fields scope settings = .ok d)
    (relative : d.target = .relative r) : Url.read r = .error .noBase ∨
      ∃ path query, NamesPath fields path ∧ Url.read path ≠ .error .noBase ∧
        expandPairs "query" (fields.get? "query") = .ok query ∧
        (Target.relative path).appendQuery query = .relative r ∧
        ∀ url, baseOf fields scope ≠ .ok (some (.absolute url)) := by
  obtain ⟨_, own, base, target, query, _, -, named, based, resolved, pairs, -, rfl⟩ :=
    describe_eq_ok.mp described
  obtain ⟨path, rfl, text⟩ := Target.appendQuery_eq_relative relative
  obtain ⟨rfl, unbased⟩ := Target.resolve_eq_relative resolved
  by_cases schemeless : Url.read path = .error .noBase
  · refine .inl ?_
    rcases text with rfl | ⟨mark, more, marks, rfl⟩
    · exact schemeless
    · rcases marks with rfl | rfl
      · exact Url.read_append_eq_noBase schemeless (by decide) ⟨by decide, by decide⟩ more
      · exact Url.read_append_eq_noBase schemeless (by decide) ⟨by decide, by decide⟩ more
  · refine .inr ⟨path, query, (ownTarget_eq_relative named).resolve_left schemeless, schemeless,
      pairs, relative, ?_⟩
    intro url same
    rw [based] at same
    exact unbased url (Except.ok.inj same)

/-- A request comes back from its JSON text with everything but its target as it was. The target
comes back, if a URL is read from its own text as it is, unless it is a relative reference that is
read as a URL. Then it comes back as that URL; and such a reference is a path with a scheme, with the
query pairs behind it, where the fields name nothing but a path and no URL is the base. -/
theorem request_in_json {fields : Fields} {scope : Scope} {settings : Settings} {d : Descriptor}
    (described : describe fields scope settings = .ok d)
    (reread : ∀ url, d.target = .absolute url → Url.read url.text = .ok url) :
    (∃ target, Descriptor.read? (Json.print d.toValue) = some { d with target }) ∧
    (Descriptor.read? (Json.print d.toValue) = some d ↔
      ∀ r url, d.target = .relative r → Url.read r ≠ .ok url) ∧
    ∀ r url, d.target = .relative r → Url.read r = .ok url →
      Descriptor.read? (Json.print d.toValue) = some { d with target := .absolute url } ∧
      ∃ path query, NamesPath fields path ∧ Url.read path ≠ .error .noBase ∧
        expandPairs "query" (fields.get? "query") = .ok query ∧
        (Target.relative path).appendQuery query = .relative r ∧
        ∀ base, baseOf fields scope ≠ .ok (some (.absolute base)) := by
  have comes := Descriptor.read?_print d
  have same : ∀ target, { d with target } = d ↔ target = d.target := by
    intro target
    constructor
    · intro whole
      exact congrArg Descriptor.target whole
    · rintro rfl
      rfl
  refine ⟨?_, ?_, ?_⟩
  · obtain ⟨target, read⟩ := Target.exists_ofText? d.target.text
    exact ⟨target, by rw [comes, read, Option.map_some]⟩
  · rw [comes, Option.map_eq_some_iff]
    simp only [same, exists_eq_right, Target.ofText?_eq_some]
    cases target : d.target with
    | absolute url => exact iff_of_true (reread url target) (by simp)
    | relative r =>
      constructor
      · intro reads other url equal
        obtain rfl := Target.relative.inj equal
        exact reads url
      · intro others url
        exact others r url rfl
  · intro r url relative read
    refine ⟨?_, ?_⟩
    · rw [comes, relative]
      simp only [Target.text, Target.ofText?, read, Option.map_some]
    · rcases relative_of_describe described relative with refused | path
      · rw [refused] at read
        cases read
      · exact path

/-- Fields of a request with all its parts. -/
private def wholeFields : Fields :=
  [("method", .str "POST"), ("url", .str "https://api.dev/x?q=1"),
    ("headers", .map [("Accept", .list [.str "a", .str "b"])]), ("body", .str "é"),
    ("username", .str "u"), ("password", .str "p")]

private def plainSettings : Settings := { Settings.standard with defaultHeaders := [] }

private def wholeUrl : Url :=
  ⟨"https", some ⟨"", none, some (.domain "api.dev"), none⟩, .hierarchy "/x", some "q=1", none⟩

private def wholeRequest : Descriptor :=
  ⟨.post, .absolute wholeUrl, [("Accept", "a"), ("Accept", "b")], some [195, 169],
    some ⟨"u", some "p"⟩⟩

/-- A request to a URL with header lines of one name, a body and credentials comes back. -/
theorem request_in_json_sample :
    describe wholeFields .empty plainSettings = .ok wholeRequest ∧
      Url.read wholeUrl.text = .ok wholeUrl ∧
      Descriptor.read? (Json.print wholeRequest.toValue) = some wholeRequest := by
  have described : describe wholeFields .empty plainSettings = .ok wholeRequest :=
    Outcome.eq_ok_of_toOption (by decide +kernel)
  have read : Url.read wholeUrl.text = .ok wholeUrl :=
    Outcome.eq_ok_of_toOption (by decide +kernel)
  have reread : ∀ url, wholeRequest.target = .absolute url → Url.read url.text = .ok url := by
    intro url same
    obtain rfl := Target.absolute.inj same
    exact read
  have absolute : ∀ r url, wholeRequest.target = .relative r → Url.read r ≠ .ok url := by
    intro r url same
    cases same
  exact ⟨described, read, (request_in_json described reread).2.1.mpr absolute⟩

/-- A path that is the text of a URL comes back as that URL. -/
theorem request_in_json_other : ∃ d back url,
    describe [("path", .str "http://x")] .empty plainSettings = .ok d ∧
      d.target = .relative "http://x" ∧ Descriptor.read? (Json.print d.toValue) = some back ∧
      back.target = .absolute url ∧ url.text = "http://x/" ∧ back ≠ d := by
  have described : describe [("path", .str "http://x")] .empty plainSettings = .ok
      ⟨.get, .relative "http://x", [], none, none⟩ :=
    Outcome.eq_ok_of_toOption (by decide +kernel)
  have read : (Url.read "http://x").toOption.map Url.text = some "http://x/" := by decide +kernel
  obtain ⟨url, read, text⟩ := Outcome.exists_of_toOption_map read
  refine ⟨_, ⟨.get, .absolute url, [], none, none⟩, url, described, rfl, ?_, rfl, text, by simp⟩
  rw [Descriptor.read?_print]
  simp only [Target.text, Target.ofText?, read, Option.map_some]

end Runbook.Request
