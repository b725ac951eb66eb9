import Runbook.Message
import Runbook.Proofs.Request.Headers
import Runbook.Proofs.Url.Reading

set_option autoImplicit false
set_option relaxedAutoImplicit false

/-!
The message of a request, read back. The first empty line ends its head; what comes before are the
first line and the header lines, and what comes behind is the body. A URL holds no line end, nor do
credentials in base 64; a relative target and the names and values of headers are written as they
are, and are read back if they hold none.
-/

namespace Runbook

open Runbook.Text (Bytes cutAt? linesBy encode)

namespace Request

/-- Whether a target, if it is a URL, holds no control characters. -/
def Target.AllClear (t : Target) : Prop := ∀ url, t = .absolute url → url.AllClear

theorem Target.allClear_absolute {url : Url} (h : url.AllClear) :
    (Target.absolute url).AllClear := fun _ same => Target.absolute.inj same ▸ h

theorem Target.allClear_relative (reference : String) : (Target.relative reference).AllClear :=
  fun _ same => by cases same

theorem Target.allClear_parse (input : String) :
    Outcome.Yields (Target.parse input) Target.AllClear := by
  unfold Target.parse
  split
  · next url read => exact Outcome.yields_pure (allClear_absolute (Url.allClear_read input url read))
  · exact Outcome.yields_pure (allClear_relative input)
  · exact Outcome.yields_error

theorem Target.allClear_ofComponents (components : Fields) :
    Outcome.Yields (Target.ofComponents components) Target.AllClear := by
  unfold Target.ofComponents
  extract_lets path scheme finish
  have finished : ∀ url : Url, url.AllClear → Outcome.Yields (finish url) Target.AllClear := by
    intro url clear
    refine Outcome.yields_pure (allClear_absolute ?_)
    split
    · exact clear
    · exact clear.setPath path
  split
  · exact Outcome.yields_pure (allClear_relative path)
  · exact Outcome.yields_pure (allClear_relative path)
  · split
    · exact Outcome.yields_error
    · next url read =>
      have clear := Url.allClear_read _ url read
      refine Outcome.yields_bind fun port _ => ?_
      split
      · exact Outcome.yields_bind fun _ same => finished _ (Except.ok.inj same ▸ clear)
      · split
        · next set =>
          have changed := clear.setPort set
          exact Outcome.yields_bind fun _ same => finished _ (Except.ok.inj same ▸ changed)
        · exact Outcome.yields_bind fun _ refused => by cases refused

theorem Target.allClear_ofValue (v : Value) :
    Outcome.Yields (Target.ofValue v) fun found => ∀ t ∈ found, Target.AllClear t := by
  have named : ∀ {x : Except Fault Target}, Outcome.Yields x Target.AllClear →
      Outcome.Yields (x.map some) fun found => ∀ t ∈ found, Target.AllClear t := by
    rintro x clear _ done t found
    obtain ⟨target, made, rfl⟩ := Outcome.map_eq_ok.mp done
    exact Option.some.inj found ▸ clear target made
  unfold Target.ofValue
  split
  · exact Outcome.yields_pure fun _ absent => by cases absent
  · exact named (allClear_parse _)
  · exact named (allClear_ofComponents _)
  · exact Outcome.yields_error

theorem Target.AllClear.resolve {t : Target} {base : Option Target} (h : t.AllClear)
    (known : ∀ b ∈ base, Target.AllClear b) : Outcome.Yields (t.resolve base) Target.AllClear := by
  unfold Target.resolve
  split
  · next reference url =>
    have clear : url.AllClear := known _ rfl url rfl
    split
    · next joined read =>
      exact Outcome.yields_pure (allClear_absolute (clear.join reference joined read))
    · exact Outcome.yields_error
  · exact Outcome.yields_pure h

theorem Target.AllClear.appendQuery {t : Target} (h : t.AllClear)
    (pairs : List (String × String)) : (t.appendQuery pairs).AllClear := by
  unfold Target.appendQuery
  split
  · exact h
  · exact allClear_absolute ((h _ rfl).appendPairs pairs)
  · exact allClear_relative _

/-- The target of a request, if it is a URL, holds no control characters, whatever its fields, the
base and the query pairs hold. -/
theorem allClear_target {fields : Fields} {scope : Scope} {settings : Settings} {d : Descriptor}
    (described : describe fields scope settings = .ok d) :
    d.target.AllClear := by
  obtain ⟨_, own, base, target, query, _, -, named, based, resolved, -, -, rfl⟩ :=
    describe_eq_ok.mp described
  have start : own.AllClear := by
    unfold ownTarget at named
    obtain ⟨found, value, done⟩ := Outcome.bind_eq_ok.mp named
    have clear := Target.allClear_ofValue _ found value
    split at done
    · next t => exact Except.ok.inj done ▸ clear t rfl
    · exact Target.allClear_ofComponents fields own done
  have known := Target.allClear_ofValue _ base based
  exact (start.resolve known target resolved).appendQuery query

end Request

namespace Message

/-- The head and the body of a message, which the first empty line keeps apart. -/
def cut? (message : Bytes) : Option (Bytes × Bytes) := cutAt? [13, 10, 13, 10] message

/-- The lines of a head. -/
def lines (head : Bytes) : List Bytes := linesBy 13 10 head

/-- The name and the value that the octets of a header line stand for. -/
def header? (line : Bytes) : Option (String × String) := do
  let (name, value) ← cutAt? [':', ' '] (← Text.decode? line).toList
  return (String.ofList name, String.ofList value)

/-- Whether a text holds no line end. -/
def Unbroken (s : String) : Prop := ¬ ['\r', '\n'] <:+: s.toList

instance (s : String) : Decidable (Unbroken s) := inferInstanceAs (Decidable (¬ _))

/-- The first line of a request. -/
def requestLine (d : Request.Descriptor) : String :=
  d.method.text ++ " " ++ d.target.text ++ " HTTP/1.1"

/-- The headers that the message of a request has: its own and the one of its credentials. -/
def requestHeaders (d : Request.Descriptor) : Headers :=
  d.headers ++ (d.credentials.map authorization).toList

/-- The text of a header line without its end. -/
def headerText (line : String × String) : String := line.1 ++ ": " ++ line.2

section Texts

variable {s : String} {line : String × String}

theorem unbroken_of_notMem (h : '\r' ∉ s.toList) : Unbroken s := Text.not_infix_of_notMem h

theorem unbroken_of_clear (h : Url.Clear s.toList) : Unbroken s := by
  refine unbroken_of_notMem fun member => ?_
  have free := h _ member
  cases free

theorem unbroken_headerText (name : Unbroken line.1) (value : Unbroken line.2) :
    Unbroken (headerText line) := by
  have text : (headerText line).toList = line.1.toList ++ ':' :: ([] ++ ' ' :: line.2.toList) := by
    simp [headerText]
  unfold Unbroken
  rw [text]
  exact Text.not_infix_append_cons (by decide) (by decide) name
    (Text.not_infix_append_cons (by decide) (by decide) (by decide) value)

theorem unbroken_requestLine {d : Request.Descriptor} (target : Unbroken d.target.text) :
    Unbroken (requestLine d) := by
  have text : (requestLine d).toList =
      d.method.text.toList ++ ' ' :: (d.target.text.toList ++ ' ' :: "HTTP/1.1".toList) := by
    simp [requestLine]
  have method : ¬ ['\r', '\n'] <:+: d.method.text.toList := by cases d.method <;> decide
  unfold Unbroken
  rw [text]
  exact Text.not_infix_append_cons (by decide) (by decide) method
    (Text.not_infix_append_cons (by decide) (by decide) target (by decide))

theorem mem_base64 (bytes : Bytes) : ∀ c ∈ Text.base64 bytes, c ≠ '\r' := by
  have digit : ∀ n < 64, Text.base64Digit n ≠ '\r' := by decide
  have bound : ∀ b : UInt8, b.toNat < 256 := fun b => b.toNat_lt_size
  fun_induction Text.base64 bytes with
  | case1 => simp
  | case2 a =>
    have := bound a
    simpa using ⟨digit _ (by omega), digit _ (by omega)⟩
  | case3 a b =>
    have := bound a
    have := bound b
    simpa using ⟨digit _ (by omega), digit _ (by omega), digit _ (by omega)⟩
  | case4 a b c rest ih =>
    have := bound a
    have := bound b
    have := bound c
    simpa using ⟨digit _ (by omega), digit _ (by omega), digit _ (by omega), digit _ (by omega), ih⟩

/-- The line of credentials is one line, whatever the name and password hold. -/
theorem unbroken_authorization (c : Request.Credentials) :
    Unbroken (authorization c).1 ∧ Unbroken (authorization c).2 := by
  refine ⟨show Unbroken "Authorization" by decide, unbroken_of_notMem ?_⟩
  have scheme : '\r' ∉ "Basic ".toList := by decide
  simp only [authorization, String.toList_append, String.toList_ofList, List.mem_append, not_or]
  exact ⟨scheme, fun member => mem_base64 _ _ member rfl⟩

/-- A name without a colon and a space after it is told apart from the value. -/
theorem header?_encode (name : ¬ [':', ' '] <:+: line.1.toList) :
    header? (encode (headerText line)) = some line := by
  have text : (headerText line).toList = line.1.toList ++ ':' :: ' ' :: line.2.toList := by
    simp [headerText]
  unfold header?
  rw [Text.decode?_encode, Option.bind_eq_bind, Option.bind_some, text,
    Text.cutAt?_pair (by decide) name]
  simp

end Texts

section Message

variable {fields : Fields} {scope : Scope} {settings : Settings} {d other : Request.Descriptor}

/-- A message is its lines, each with its end, an empty line and the body. -/
theorem ofRequest_eq (d : Request.Descriptor) : ofRequest d =
    (encode (requestLine d) :: (requestHeaders d).map fun line => encode (headerText line)).flatMap
      (· ++ [13, 10]) ++ 13 :: 10 :: d.body.getD [] := by
  have ending : encode lineEnd = [13, 10] := by decide
  have each : ∀ line, encode (headerLine line) = encode (headerText line) ++ [13, 10] := by
    intro line
    rw [← ending, ← Text.encode_append]
    rfl
  show encode (head (requestLine d) (requestHeaders d)) ++ d.body.getD [] = _
  unfold head
  simp only [Text.encode_append, Text.encode_join, ending, List.flatMap_map, each,
    List.flatMap_cons, List.append_assoc, List.cons_append, List.nil_append]

/-- Whether nothing that a request writes as it is holds a line end: neither a relative target nor
the name or value of a header. -/
structure Framed (d : Request.Descriptor) : Prop where
  target : ∀ reference, d.target = .relative reference → Unbroken reference
  headers : ∀ line ∈ d.headers, Unbroken line.1 ∧ Unbroken line.2

/-- Whether no header name holds what stands between a name and its value. -/
def Parted (d : Request.Descriptor) : Prop := ∀ line ∈ d.headers, ¬ [':', ' '] <:+: line.1.toList

theorem unbroken_requestHeaders (framed : Framed d) {line : String × String}
    (h : line ∈ requestHeaders d) : Unbroken (headerText line) := by
  rcases List.mem_append.mp h with own | added
  · obtain ⟨name, value⟩ := framed.headers line own
    exact unbroken_headerText name value
  · obtain ⟨c, -, rfl⟩ := Option.map_eq_some_iff.mp (Option.mem_toList.mp added)
    obtain ⟨name, value⟩ := unbroken_authorization c
    exact unbroken_headerText name value

theorem unbroken_target (described : Request.describe fields scope settings = .ok d)
    (framed : Framed d) : Unbroken d.target.text := by
  have clear := Request.allClear_target described
  cases target : d.target with
  | absolute url => exact unbroken_of_clear (clear url target).clear_text
  | relative reference => exact framed.target reference target

/-- A message whose lines hold no line end is cut into its lines and its body. -/
theorem cut?_ofRequest (described : Request.describe fields scope settings = .ok d)
    (framed : Framed d) :
    ∃ head, cut? (ofRequest d) = some (head, d.body.getD []) ∧
      lines head = encode (requestLine d) ::
        (requestHeaders d).map fun line => encode (headerText line) := by
  have octets : ∀ s, Unbroken s → ¬ [13, 10] <:+: encode s := fun _ free =>
    Text.not_infix_encode (by decide) free
  have free : ∀ l ∈ encode (requestLine d) ::
      (requestHeaders d).map fun line => encode (headerText line), ¬ [13, 10] <:+: l := by
    have first := unbroken_requestLine (unbroken_target described framed)
    refine List.forall_mem_cons.mpr ⟨octets _ first, ?_⟩
    intro l member
    obtain ⟨line, present, rfl⟩ := List.mem_map.mp member
    exact octets _ (unbroken_requestHeaders framed present)
  have full : [] ∉ (requestHeaders d).map fun line => encode (headerText line) := by
    intro member
    obtain ⟨line, -, empty⟩ := List.mem_map.mp member
    simp [headerText, encode] at empty
  unfold cut? lines
  rw [ofRequest_eq, Text.cutAt?_lines (by decide) free full]
  exact ⟨_, rfl, Text.linesBy_intercalate (by decide) free⟩

theorem length_requestHeaders (d : Request.Descriptor) :
    (requestHeaders d).length = d.headers.length + (if d.credentials.isSome then 1 else 0) := by
  unfold requestHeaders
  rw [List.length_append]
  cases d.credentials <;> rfl

theorem header?_requestHeaders (parted : Parted d) :
    ((requestHeaders d).map fun line => header? (encode (headerText line))) =
      (requestHeaders d).map some := by
  refine List.map_congr_left fun line member => header?_encode ?_
  rcases List.mem_append.mp member with own | added
  · exact parted line own
  · obtain ⟨c, -, rfl⟩ := Option.map_eq_some_iff.mp (Option.mem_toList.mp added)
    show ¬ [':', ' '] <:+: "Authorization".toList
    decide

/-- Headers that make the same lines are the same, if they are told apart from their values. -/
theorem requestHeaders_eq (parted : Parted d) (alike : Parted other)
    (same : (requestHeaders d).map (fun line => encode (headerText line)) =
      (requestHeaders other).map fun line => encode (headerText line)) :
    requestHeaders d = requestHeaders other := by
  have read := congrArg (List.map header?) same
  simp only [List.map_map, Function.comp_def] at read
  rw [header?_requestHeaders parted, header?_requestHeaders alike] at read
  exact (List.map_injective_iff.mpr fun _ _ => Option.some.inj) read

theorem headers_eq (same : requestHeaders d = requestHeaders other)
    (both : d.credentials.isSome = other.credentials.isSome) : d.headers = other.headers := by
  have lengths : d.headers.length = other.headers.length := by
    have counts := congrArg List.length same
    rw [length_requestHeaders, length_requestHeaders, both] at counts
    omega
  exact (List.append_inj same lengths).1

end Message

end Message

open Runbook.Message
open Runbook.Request (Descriptor describe)

/-- The message of a request whose relative target, header names and header values hold no line end
is cut, at the first empty line, into a head and the body. The head has the first line, one line for
each header and one for credentials; and requests with the same message have the same body and the
same lines, and if no header name holds a colon and a space, the same headers with the one that the
credentials stand for. -/
theorem request_message_reads_back {fields : Fields} {scope : Scope} {settings : Settings}
    {d : Descriptor} (described : describe fields scope settings = .ok d) (framed : Framed d) :
    (∃ head, cut? (ofRequest d) = some (head, d.body.getD []) ∧
      (lines head).length = 1 + d.headers.length + (if d.credentials.isSome then 1 else 0) ∧
      ∀ (i : Nat) name value, d.headers[i]? = some (name, value) →
        (lines head)[i + 1]? = some (encode (name ++ ": " ++ value))) ∧
    ∀ {fields' : Fields} {scope' : Scope} {settings' : Settings} {d' : Descriptor},
      describe fields' scope' settings' = .ok d' → Framed d' → ofRequest d = ofRequest d' →
        d.body.getD [] = d'.body.getD [] ∧
        (requestHeaders d).map headerText = (requestHeaders d').map headerText ∧
        (Parted d → Parted d' → requestHeaders d = requestHeaders d' ∧
          (d.credentials.isSome = d'.credentials.isSome → d.headers = d'.headers)) := by
  obtain ⟨head, cut, read⟩ := cut?_ofRequest described framed
  constructor
  · refine ⟨head, cut, ?_, ?_⟩
    · rw [read, List.length_cons, List.length_map, length_requestHeaders]
      omega
    · intro i name value line
      obtain ⟨bound, -⟩ := List.getElem?_eq_some_iff.mp line
      rw [read, List.getElem?_cons_succ, List.getElem?_map, requestHeaders,
        List.getElem?_append_left bound, line]
      rfl
  · intro fields' scope' settings' d' described' framed' same
    obtain ⟨head', cut', read'⟩ := cut?_ofRequest described' framed'
    rw [same, cut'] at cut
    obtain ⟨rfl, body⟩ := Prod.mk.inj (Option.some.inj cut)
    rw [read'] at read
    obtain ⟨-, headers⟩ := List.cons.inj read
    have texts : (requestHeaders d).map headerText = (requestHeaders d').map headerText := by
      refine (List.map_injective_iff.mpr Text.encode_injective) ?_
      rw [List.map_map, List.map_map]
      exact headers.symm
    refine ⟨body.symm, texts, fun parted parted' => ?_⟩
    have whole := requestHeaders_eq parted parted' headers.symm
    exact ⟨whole, headers_eq whole⟩

private def bare : Settings := { Settings.standard with defaultHeaders := [] }

private def action (more : Fields) : Fields := ("url", .str "x") :: more

private def oneHeader (name value : String) : String × Value :=
  ("headers", .map [(name, .str value)])

private def sample (headers : Headers) (body : Option Bytes)
    (credentials : Option Request.Credentials) : Descriptor :=
  ⟨.get, .relative "x", headers, body, credentials⟩

private theorem framed_sample {headers : Headers}
    (h : ∀ line ∈ headers, Unbroken line.1 ∧ Unbroken line.2) (body : Option Bytes)
    (credentials : Option Request.Credentials) : Framed (sample headers body credentials) := by
  refine ⟨?_, h⟩
  intro reference same
  obtain rfl := Request.Target.relative.inj same
  decide

/-- A value that ends with half a line end is read back, and an empty body is as good as none. -/
theorem request_message_reads_back_sample : ∃ d d' head,
    describe (action [oneHeader "A" "b\r", ("username", .str "u"), ("body", .str "")]) .empty bare =
      .ok d ∧
    describe (action [oneHeader "A" "b\r", ("username", .str "u")]) .empty bare = .ok d' ∧
    ofRequest d = ofRequest d' ∧ d.body ≠ d'.body ∧ cut? (ofRequest d) = some (head, []) ∧
    (lines head).length = 3 ∧ (lines head)[1]? = some (encode "A: b\r") ∧
    d.headers = d'.headers := by
  have full : describe (action [oneHeader "A" "b\r", ("username", .str "u"), ("body", .str "")])
      .empty bare = .ok (sample [("A", "b\r")] (some []) (some ⟨"u", none⟩)) :=
    Outcome.eq_ok_of_toOption (by decide +kernel)
  have bodiless : describe (action [oneHeader "A" "b\r", ("username", .str "u")]) .empty bare =
      .ok (sample [("A", "b\r")] none (some ⟨"u", none⟩)) :=
    Outcome.eq_ok_of_toOption (by decide +kernel)
  have framed : ∀ body, Framed (sample [("A", "b\r")] body (some ⟨"u", none⟩)) := fun body =>
    framed_sample (by decide) body _
  have parted : ∀ body, Parted (sample [("A", "b\r")] body (some ⟨"u", none⟩)) := fun _ =>
    show ∀ line ∈ [("A", "b\r")], _ by decide
  obtain ⟨⟨head, cut, count, each⟩, alike⟩ := request_message_reads_back full (framed _)
  obtain ⟨-, -, apart⟩ := alike bodiless (framed _) (by decide +kernel)
  exact ⟨_, _, head, full, bodiless, by decide +kernel, by decide, cut, count,
    each 0 "A" "b\r" rfl, (apart (parted _) (parted _)).2 rfl⟩

/-- Whether two actions make requests with different headers and the same message. -/
private def Alike (fields fields' : Fields) : Prop :=
  ∃ d d', describe fields .empty bare = .ok d ∧ describe fields' .empty bare = .ok d' ∧
    ofRequest d = ofRequest d' ∧ d.headers ≠ d'.headers

/-- Whether the message of a request has another number of lines than the request. -/
private def Torn (fields : Fields) : Prop :=
  ∃ d head, describe fields .empty bare = .ok d ∧
    cut? (ofRequest d) = some (head, d.body.getD []) ∧
    (lines head).length ≠ 1 + d.headers.length + (if d.credentials.isSome then 1 else 0)

/-- Credentials are written like a header of the same text, a name may take up the beginning of a
value, and a line end in a value or in a relative target begins another line. -/
theorem request_message_misread :
    Alike (action [oneHeader "Authorization" "Basic dTpw"])
      (action [("username", .str "u"), ("password", .str "p")]) ∧
    Alike (action [oneHeader "A" "B: c"]) (action [oneHeader "A: B" "c"]) ∧
    Torn (action [oneHeader "A" "b\r\nC: d"]) ∧ Torn [("url", .str "x\r\ny")] := by
  have plain : ∀ name value, (describe (action [oneHeader name value]) .empty bare).toOption =
      some (sample [(name, value)] none none) →
      describe (action [oneHeader name value]) .empty bare =
        .ok (sample [(name, value)] none none) :=
    fun _ _ => Outcome.eq_ok_of_toOption
  have credentials : describe (action [("username", .str "u"), ("password", .str "p")]) .empty bare =
      .ok (sample [] none (some ⟨"u", some "p"⟩)) :=
    Outcome.eq_ok_of_toOption (by decide +kernel)
  have broken : describe [("url", .str "x\r\ny")] .empty bare =
      .ok ⟨.get, .relative "x\r\ny", [], none, none⟩ :=
    Outcome.eq_ok_of_toOption (by decide +kernel)
  refine ⟨?_, ?_, ?_, ?_⟩
  · exact ⟨_, _, plain _ _ (by decide +kernel), credentials, by decide +kernel, by decide⟩
  · exact ⟨_, _, plain _ _ (by decide +kernel), plain _ _ (by decide +kernel),
      by decide +kernel, by decide⟩
  · exact ⟨_, encode "GET x HTTP/1.1\r\nA: b\r\nC: d", plain _ _ (by decide +kernel),
      by decide +kernel, by decide +kernel⟩
  · exact ⟨_, encode "GET x\r\ny HTTP/1.1", broken, by decide +kernel, by decide +kernel⟩

end Runbook
