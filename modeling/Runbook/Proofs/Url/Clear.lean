import Runbook.Proofs.Outcome
import Runbook.Proofs.Text.Letters
import Runbook.Proofs.Url.Form
import Runbook.Url.Reader

set_option autoImplicit false
set_option relaxedAutoImplicit false

/-!
URLs without control characters. The text of a URL holds none if its parts do; percent-encoding
leaves none, and a host that was read has none, since a domain with one is refused.
-/

namespace Runbook.Url

/-- Whether no character is a control. -/
def Clear (cs : List Char) : Prop := ∀ c ∈ cs, isControl c = false

/-- Whether no part of an authority holds a control. -/
structure Authority.AllClear (a : Authority) : Prop where
  username : Clear a.username.toList
  password : ∀ s ∈ a.password, Clear s.toList
  host : ∀ h ∈ a.host, Clear h.text.toList

/-- Whether no part of a URL holds a control. -/
structure AllClear (u : Url) : Prop where
  scheme : Clear u.scheme.toList
  authority : ∀ a ∈ u.authority, a.AllClear
  path : Clear u.path.text.toList
  query : ∀ s ∈ u.query, Clear s.toList
  fragment : ∀ s ∈ u.fragment, Clear s.toList

section Characters

variable {c : Char} {cs ds : List Char} {s : String} {inSet : Char → Bool}

@[simp] theorem clear_nil : Clear [] := by
  intro c h
  cases h

@[simp] theorem clear_cons : Clear (c :: cs) ↔ isControl c = false ∧ Clear cs :=
  List.forall_mem_cons

@[simp] theorem clear_append : Clear (cs ++ ds) ↔ Clear cs ∧ Clear ds := List.forall_mem_append

theorem Clear.subset (h : Clear cs) (within : ds ⊆ cs) : Clear ds := by
  intro c member
  exact h c (within member)

theorem Clear.reverse (h : Clear cs) : Clear cs.reverse :=
  h.subset (List.reverse_subset.mpr fun _ member => member)

theorem isControl_of_isAlphanum (h : c.isAlphanum = true) : isControl c = false := by
  obtain ⟨low, high⟩ := toNat_of_isAlphanum h
  simp only [isControl, Bool.or_eq_false_iff, decide_eq_false_iff_not, beq_eq_false_iff_ne]
  omega

theorem isControl_toLower (h : isControl c = false) : isControl c.toLower = false := by
  rcases Text.toLower_cases c with same | ⟨low, high, small⟩
  · rwa [same]
  · simp only [isControl, Bool.or_eq_false_iff, decide_eq_false_iff_not, beq_eq_false_iff_ne]
    omega

theorem clear_percent (b : UInt8) : Clear (percent b) := by
  intro c member
  rcases mem_percent member with rfl | alphanumeric
  · decide
  · exact isControl_of_isAlphanum alphanumeric

theorem clear_flatMap_percent (bytes : Text.Bytes) : Clear (bytes.flatMap percent) := by
  intro c member
  obtain ⟨b, -, written⟩ := List.mem_flatMap.mp member
  exact clear_percent b c written

/-- A set that has all controls leaves none when it is percent-encoded. -/
theorem clear_percentEncode (covers : ∀ c, isControl c = true → inSet c = true) (c : Char) :
    Clear (percentEncode inSet c) := by
  unfold percentEncode
  split
  · exact clear_flatMap_percent _
  · next kept =>
    have free : isControl c = false := by
      by_contra control
      exact kept (by simp [covers c (by simpa using control)])
    simpa using free

theorem clear_encodeAll (covers : ∀ c, isControl c = true → inSet c = true) (cs : List Char) :
    Clear (encodeAll inSet cs).toList := by
  unfold encodeAll
  rw [String.toList_ofList]
  intro c member
  obtain ⟨d, -, written⟩ := List.mem_flatMap.mp member
  exact clear_percentEncode covers d c written

theorem fragment_covers (c : Char) (h : isControl c = true) : inFragmentSet c = true := by
  simp [inFragmentSet, h]

theorem path_covers (c : Char) (h : isControl c = true) : inPathSet c = true := by
  simp [inPathSet, fragment_covers c h]

theorem userinfo_covers (c : Char) (h : isControl c = true) : inUserinfoSet c = true := by
  simp [inUserinfoSet, path_covers c h]

theorem query_covers (c : Char) (h : isControl c = true) : inQuerySet c = true := by
  simp [inQuerySet, h]

theorem specialQuery_covers (c : Char) (h : isControl c = true) : inSpecialQuerySet c = true := by
  simp [inSpecialQuerySet, query_covers c h]

/-- The digits of a number are no controls; the induction is on the number, by its last digit. -/
theorem clear_toDigits {base : Nat} (few : 2 ≤ base ∧ base ≤ 16) (n : Nat) :
    Clear (Nat.toDigits base n) := by
  have digit : ∀ d < 16, isControl (Nat.digitChar d) = false := by decide
  induction n using Nat.strongRecOn with
  | ind n ih =>
    rw [Nat.toDigits_eq_if (by omega)]
    split
    · next small => simpa using digit n (by omega)
    · next large =>
      have less : n / base < n := Nat.div_lt_self (by omega) (by omega)
      have last : n % base < base := Nat.mod_lt n (by omega)
      simpa using ⟨ih _ less, digit _ (by omega)⟩

theorem clear_intercalate {separator : List Char} {pieces : List (List Char)}
    (h : Clear separator) (each : ∀ piece ∈ pieces, Clear piece) :
    Clear (separator.intercalate pieces) := by
  induction pieces with
  | nil => simp [List.intercalate]
  | cons piece pieces ih =>
    obtain ⟨first, rest⟩ := List.forall_mem_cons.mp each
    cases pieces with
    | nil => simpa [List.intercalate] using first
    | cons second pieces =>
      rw [List.intercalate_cons_cons]
      simpa using ⟨first, h, ih rest⟩

end Characters

section Texts

theorem Authority.AllClear.clear_text {a : Authority} (h : a.AllClear) : Clear a.text.toList := by
  have number : ∀ n : Nat, Clear (toString n).toList := by
    intro n
    rw [Nat.toString_eq_ofList_toDigits, String.toList_ofList]
    exact clear_toDigits (by decide) n
  obtain ⟨username, password, host, port⟩ := a
  obtain ⟨user, secret, known⟩ := h
  have host : Clear ((host.map Host.text).getD "").toList := by
    cases host with
    | none => exact clear_nil
    | some host => exact known host rfl
  have colon : isControl ':' = false := by decide
  have sign : isControl '@' = false := by decide
  unfold Authority.text
  simp only [String.toList_append, clear_append]
  refine ⟨⟨?_, host⟩, ?_⟩
  · split
    · exact clear_nil
    · simpa [sign] using user
    · next _ _ password => simpa [sign, colon, and_assoc] using ⟨user, secret password rfl⟩
  · cases port with
    | none => exact clear_nil
    | some port => simpa [colon] using number port

theorem AllClear.clear_text {u : Url} (h : u.AllClear) : Clear u.text.toList := by
  have marks : isControl ':' = false ∧ isControl '?' = false ∧ isControl '#' = false ∧
      isControl '/' = false ∧ isControl '.' = false := by decide
  obtain ⟨colon, question, number, slash, dot⟩ := marks
  have authority : Clear u.authorityText.toList := by
    unfold authorityText
    split
    · next _ _ a found => simpa [slash] using (h.authority a found).clear_text
    · split <;> simp [slash, dot]
    · exact clear_nil
  have query : Clear ((u.query.map ("?" ++ ·)).getD "").toList := by
    cases found : u.query with
    | none => exact clear_nil
    | some s => simpa [question] using h.query s found
  have fragment : Clear ((u.fragment.map ("#" ++ ·)).getD "").toList := by
    cases found : u.fragment with
    | none => exact clear_nil
    | some s => simpa [number] using h.fragment s found
  unfold text
  simp only [String.toList_append, clear_append]
  exact ⟨⟨⟨⟨⟨h.scheme, by simp [colon]⟩, authority⟩, h.path⟩, query⟩, fragment⟩

end Texts

section Hosts

theorem clear_ipv4Text (n : Nat) : Clear (ipv4Text n) := by
  unfold ipv4Text
  refine clear_intercalate (by simp [isControl]) ?_
  intro piece member
  obtain ⟨octet, -, rfl⟩ := List.mem_map.mp member
  exact clear_toDigits (by decide) octet

theorem clear_ipv6Text (ws : List Nat) : Clear (ipv6Text ws) := by
  have run : ∀ ws, Clear (ipv6Words ws) := by
    intro ws
    unfold ipv6Words
    refine clear_intercalate (by simp [isControl]) ?_
    intro piece member
    obtain ⟨word, -, rfl⟩ := List.mem_map.mp member
    exact clear_toDigits (by decide) word
  have colon : isControl ':' = false := by decide
  unfold ipv6Text
  dsimp only
  split
  · exact run ws
  · simpa [colon] using ⟨run _, run _⟩

theorem clear_bracketHost {cs : List Char} {h : Host} (read : bracketHost cs = .ok h) :
    Clear h.text.toList := by
  unfold bracketHost at read
  split at read
  · split at read
    · next ws _ =>
      obtain rfl := Except.ok.inj read
      have brackets : isControl '[' = false ∧ isControl ']' = false := by decide
      simpa [Host.text, brackets] using clear_ipv6Text ws
    · cases read
  · cases read

end Hosts

section Domains

variable {cs : List Char}

/-- What a walk that may give up has found comes from the items. -/
theorem exists_of_mem_mapM {α β : Type} {f : α → Option β} {xs : List α} {ys : List β} {y : β}
    (walked : xs.mapM f = some ys) (member : y ∈ ys) : ∃ x ∈ xs, f x = some y := by
  induction xs generalizing ys with
  | nil =>
    obtain rfl : ys = [] := by simpa using walked.symm
    cases member
  | cons x xs ih =>
    rw [List.mapM_cons] at walked
    obtain ⟨first, here, walked⟩ := Option.bind_eq_some_iff.mp walked
    obtain ⟨rest, further, done⟩ := Option.bind_eq_some_iff.mp walked
    obtain rfl := Option.some.inj done
    rcases List.mem_cons.mp member with rfl | later
    · exact ⟨x, List.mem_cons_self, here⟩
    · obtain ⟨x, inside, found⟩ := ih further later
      exact ⟨x, List.mem_cons_of_mem _ inside, found⟩

theorem Punycode.clear_digits (bias place distance : Nat) :
    Clear (Punycode.digits bias place distance) := by
  have digit : ∀ d < 36, isControl (Punycode.digit d) = false := by decide
  have small := fun bias place => Punycode.threshold_lt_base bias place
  simp only [Punycode.base] at small
  fun_induction Punycode.digits bias place distance with
  | case1 place distance last =>
    have bound := small bias place
    simpa using digit distance (by omega)
  | case2 place distance more t ih =>
    have bound : t < 36 := small bias place
    have rest : (distance - t) % (36 - t) < 36 - t := Nat.mod_lt _ (by omega)
    exact clear_cons.mpr ⟨digit _ (by simp only [Punycode.base]; omega), ih⟩

theorem Punycode.clear_written (label : List Char) (basic : Nat) (points : List Nat) (bound : Nat)
    {e : Punycode.Encoding} (h : Clear e.written) :
    Clear (Punycode.Encoding.run label basic points bound e).written := by
  have step : ∀ (point : Nat) (cs : List Char) {e : Punycode.Encoding}, Clear e.written →
      Clear (cs.foldl (Punycode.Encoding.step basic point) e).written := by
    intro point cs
    induction cs with
    | nil => exact fun h => h
    | cons c cs ih =>
      intro e h
      refine ih ?_
      unfold Punycode.Encoding.step
      split
      · exact h
      · split
        · exact clear_append.mpr ⟨h, Punycode.clear_digits _ _ _⟩
        · exact h
  induction points generalizing bound e with
  | nil => exact h
  | cons point points ih => exact ih _ (step point label h)

theorem Punycode.clear_encode {label : List Char} (h : Clear label) :
    Clear (Punycode.encode label) := by
  have hyphen : isControl '-' = false := by decide
  have ascii : Clear (label.filter (·.toNat < 0x80)) := h.subset List.filter_sublist.subset
  unfold Punycode.encode
  dsimp only
  refine clear_append.mpr ⟨clear_append.mpr ⟨ascii, ?_⟩, Punycode.clear_written _ _ _ _ clear_nil⟩
  split
  · exact clear_nil
  · simpa using hyphen

theorem clear_labelToAscii {label out : List Char} (h : Clear label)
    (sent : labelToAscii? label = some out) : Clear out := by
  unfold labelToAscii? at sent
  split at sent
  · split at sent
    · split at sent
      · exact Option.some.inj sent ▸ h
      · cases sent
    · cases sent
  · split at sent
    · exact Option.some.inj sent ▸ h
    · split at sent
      · have tag : isControl 'x' = false ∧ isControl 'n' = false ∧ isControl '-' = false := by decide
        rw [← Option.some.inj sent]
        simpa [tag] using Punycode.clear_encode h
      · cases sent

theorem clear_domainToAscii {name : List Char} (sent : domainToAscii? cs = some name) :
    Clear name := by
  unfold domainToAscii? at sent
  obtain ⟨folded, -, sent⟩ := Option.bind_eq_some_iff.mp sent
  split at sent
  · cases sent
  · next allowed =>
    obtain ⟨labels, walked, done⟩ := Option.bind_eq_some_iff.mp sent
    rw [← Option.some.inj done]
    have free : Clear folded := by
      intro c member
      have kept : isForbiddenInName c = false := by
        by_contra forbidden
        exact allowed (List.any_eq_true.mpr ⟨c, member, by simpa using forbidden⟩)
      simp only [isForbiddenInName, Bool.or_eq_false_iff, decide_eq_false_iff_not] at kept
      simp only [isControl, Bool.or_eq_false_iff, decide_eq_false_iff_not]
      exact ⟨by omega, kept.1.2⟩
    refine clear_intercalate (by simp [isControl]) ?_
    intro out member
    obtain ⟨label, inside, sent⟩ := exists_of_mem_mapM walked member
    exact clear_labelToAscii (fun c h => free c (Text.mem_of_mem_split inside h)) sent

theorem clear_specialHost {h : Host} (read : specialHost cs = .ok h) : Clear h.text.toList := by
  unfold specialHost at read
  split at read
  · exact clear_bracketHost read
  · split at read
    · cases read
    · cases read
    · next name _ found =>
      split at read
      · split at read
        · next address _ =>
          obtain rfl := Except.ok.inj read
          simpa [Host.text] using clear_ipv4Text address
        · cases read
      · obtain rfl := Except.ok.inj read
        obtain ⟨text, -, sent⟩ := Option.bind_eq_some_iff.mp found
        simpa [Host.text] using clear_domainToAscii sent

theorem clear_generalHost {h : Host} (read : generalHost cs = .ok (some h)) :
    Clear h.text.toList := by
  unfold generalHost at read
  split at read
  · obtain ⟨host, bracketed, same⟩ := Outcome.map_eq_ok.mp read
    obtain rfl := Option.some.inj same
    exact clear_bracketHost bracketed
  · split at read
    · cases read
    · split at read
      · cases read
      · obtain rfl := Option.some.inj (Except.ok.inj read)
        exact clear_encodeAll (fun _ control => control) cs

end Domains

end Runbook.Url
