import Mathlib.Tactic.SplitIfs
import Runbook.Proofs.Outcome
import Runbook.Proofs.Text.Trimming
import Runbook.Proofs.Url.Percent
import Runbook.Url.Reader

set_option autoImplicit false
set_option relaxedAutoImplicit false

/-!
Texts without a scheme. They are the ones that are refused for the lack of a base, as no later fault
of a URL is that one; and what is put behind such a text does not give it a scheme, if it begins with
a character that neither is part of a scheme nor ends one.
-/

namespace Runbook.Url

section Faults

open Outcome

variable {cs rest : List Char} {scheme : String} {kind : SchemeKind}

private theorem spares_bracketHost : Spares (bracketHost cs) .noBase := by
  unfold bracketHost
  split_ifs
  · split
    · exact spares_ok _
    · exact spares_error (by decide)
  · exact spares_error (by decide)

private theorem spares_specialHost : Spares (specialHost cs) .noBase := by
  unfold specialHost
  split_ifs
  · exact spares_bracketHost
  · split
    · exact spares_error (by decide)
    · exact spares_error (by decide)
    · split_ifs
      · split
        · exact spares_ok _
        · exact spares_error (by decide)
      · exact spares_ok _

private theorem spares_generalHost : Spares (generalHost cs) .noBase := by
  unfold generalHost
  split_ifs
  · exact spares_bracketHost.map some
  · exact spares_error (by decide)
  · exact spares_ok _
  · exact spares_ok _

private theorem spares_readPort : Spares (readPort scheme cs) .noBase := by
  unfold readPort
  extract_lets digits rest port ends
  split_ifs
  · exact spares_error (by decide)
  · exact spares_ok _
  · exact spares_ok _

private theorem spares_readUserinfo : Spares (readUserinfo kind cs) .noBase := by
  unfold readUserinfo
  extract_lets authority host user rest name password encoded
  split_ifs
  · exact spares_ok _
  · split
    · split_ifs
      · exact spares_error (by decide)
      · exact spares_ok _
    · exact spares_ok _
  · exact spares_ok _

private theorem spares_readAuthority : Spares (readAuthority scheme cs) .noBase := by
  unfold readAuthority
  extract_lets kind
  refine spares_readUserinfo.bind ?_
  rintro ⟨username, password, after⟩
  dsimp -zeta only
  extract_lets finish
  have finished : ∀ host, Spares (finish host) .noBase := by
    intro host
    refine spares_guard (by decide) ?_
    dsimp -zeta only
    extract_lets last
    have ended : ∀ port, Spares (last port) .noBase := fun _ =>
      spares_guard (by decide) (spares_ok _)
    split
    · exact spares_readPort.bind ended
    · exact (spares_ok _).bind ended
  split
  · exact spares_generalHost.bind finished
  · split
    · exact (spares_error (by decide)).bind finished
    · exact (spares_specialHost.map some).bind finished

private theorem spares_readAfterSlashes : Spares (readAfterSlashes scheme cs) .noBase := by
  unfold readAfterSlashes
  exact spares_readAuthority.bind fun _ => spares_ok _

private theorem spares_readFileHost : Spares (readFileHost cs) .noBase := by
  unfold readFileHost
  extract_lets hostText
  split_ifs
  · exact spares_ok _
  · exact (spares_ok _).bind fun _ => spares_ok _
  · exact (spares_specialHost.map _).bind fun _ => spares_ok _

private theorem spares_readFile : Spares (readFile none cs) .noBase := by
  unfold readFile
  split
  · split
    · split
      · split
        · exact spares_readFileHost
        · exact spares_ok _
      · exact spares_ok _
    · exact spares_ok _
  · exact spares_ok _

private theorem spares_readGeneral : Spares (readGeneral scheme cs) .noBase := by
  unfold readGeneral
  split
  · exact spares_readAfterSlashes
  · exact spares_ok _
  · exact spares_ok _

end Faults

variable {cs rest : List Char} {c : Char} {input : String}

/-- Without a base, a text is refused for the lack of one if and only if it has no scheme. -/
theorem read_eq_noBase : read input = .error .noBase ↔ scheme? (clean input.toList) = none := by
  unfold read readAgainst
  dsimp only
  cases cut : scheme? (clean input.toList) with
  | none => simp
  | some found =>
    obtain ⟨scheme, rest⟩ := found
    refine iff_of_false ?_ (by simp)
    dsimp only
    split
    · exact spares_readFile
    · exact spares_readGeneral
    · exact spares_readAfterSlashes

/-- Whether a text begins with a scheme: a letter and what may follow it, up to a colon. -/
theorem exists_scheme : (∃ found, scheme? cs = some found) ↔
    cs.head?.any Char.isAlpha = true ∧ (cs.dropWhile isSchemeChar).head? = some ':' := by
  unfold scheme?
  cases cs.head? with
  | none => simp
  | some c =>
    cases cs.dropWhile isSchemeChar with
    | nil => simp
    | cons d rest =>
      by_cases colon : d = ':'
      · subst colon
        simp
      · simp [colon]

/-- Whether a character can neither be part of a scheme nor end it. -/
def OutsideScheme (c : Char) : Prop := isSchemeChar c = false ∧ c ≠ ':'

theorem outsideScheme_of_le (h : c.toNat ≤ 0x20) : OutsideScheme c := by
  have apart : ∀ d : Char, 0x20 < d.toNat → c ≠ d := by
    rintro d high rfl
    omega
  have other : c.isAlphanum = false := by
    refine Bool.eq_false_iff.mpr fun alphanumeric => ?_
    have low := (toNat_of_isAlphanum alphanumeric).1
    omega
  refine ⟨?_, apart ':' (by decide)⟩
  simp [isSchemeChar, other, apart '+' (by decide), apart '-' (by decide), apart '.' (by decide)]

theorem scheme?_append (schemeless : scheme? cs = none)
    (outside : ∀ c, rest.head? = some c → OutsideScheme c) : scheme? (cs ++ rest) = none := by
  have none_of : ∀ {ds}, ¬ (∃ found, scheme? ds = some found) → scheme? ds = none := by
    intro ds absent
    exact Option.eq_none_iff_forall_ne_some.mpr fun found cut => absent ⟨found, cut⟩
  refine none_of fun present => ?_
  obtain ⟨letter, colon⟩ := exists_scheme.mp present
  have stays : rest.dropWhile isSchemeChar = rest := by
    cases rest with
    | nil => rfl
    | cons c more => exact List.dropWhile_cons_of_neg (by simp [(outside c rfl).1])
  rw [List.dropWhile_append, stays] at colon
  split at colon
  · exact (outside ':' colon).2 rfl
  · next open_ =>
    have nonempty : cs ≠ [] := by
      rintro rfl
      exact open_ rfl
    rw [List.head?_append_of_ne_nil _ nonempty] at letter
    rw [List.head?_append_of_ne_nil _ (by simpa using open_)] at colon
    obtain ⟨found, cut⟩ := exists_scheme.mpr ⟨letter, colon⟩
    rw [schemeless] at cut
    cases cut

/-- Of a text before a character that is no control and no space, at most controls and spaces at its
end stay besides what is read of it alone. -/
theorem clean_append (kept : 0x20 < c.toNat) (cs more : List Char) :
    ∃ gap behind, clean (cs ++ c :: more) = clean cs ++ gap ++ c :: behind ∧
      ∀ d ∈ gap, d.toNat ≤ 0x20 := by
  let outer := fun d : Char => decide (d.toNat ≤ 0x20)
  let stays := fun d : Char => d != '\t' && d != '\n' && d != '\r'
  have inner : outer c = false := decide_eq_false (Nat.not_le.mpr kept)
  have visible : stays c = true := by
    have apart : ∀ d : Char, d.toNat ≤ 0x20 → c ≠ d := by
      rintro d low rfl
      omega
    simp [stays, apart '\t' (by decide), apart '\n' (by decide), apart '\r' (by decide)]
  obtain ⟨trail, rest, low⟩ := Text.exists_dropWhile_reverse outer (cs.dropWhile outer)
  have front : (cs ++ c :: more).dropWhile outer = cs.dropWhile outer ++ c :: more := by
    have begins : (c :: more).dropWhile outer = c :: more :=
      List.dropWhile_cons_of_neg (by simp [inner])
    rw [List.dropWhile_append, begins]
    split
    · next none_left => rw [List.isEmpty_iff.mp none_left, List.nil_append]
    · rfl
  obtain ⟨behind, back⟩ : ∃ behind, ((cs.dropWhile outer ++ c :: more).reverse.dropWhile
      outer).reverse = cs.dropWhile outer ++ c :: behind := by
    have ends : (c :: (cs.dropWhile outer).reverse).dropWhile outer =
        c :: (cs.dropWhile outer).reverse :=
      List.dropWhile_cons_of_neg (by simp [inner])
    rw [List.reverse_append, List.reverse_cons, List.append_assoc, List.singleton_append,
      List.dropWhile_append, ends]
    split
    · exact ⟨[], by simp⟩
    · exact ⟨(more.reverse.dropWhile outer).reverse, by simp⟩
  refine ⟨trail.filter stays, behind.filter stays, ?_, ?_⟩
  · have alone : clean cs = (((cs.dropWhile outer).reverse.dropWhile outer).reverse).filter stays :=
      rfl
    have whole : clean (cs ++ c :: more) = ((((cs ++ c :: more).dropWhile outer).reverse.dropWhile
        outer).reverse).filter stays :=
      rfl
    rw [whole, front, back, alone, ← List.filter_append, ← rest, List.filter_append,
      List.filter_cons_of_pos visible]
  · intro d member
    exact of_decide_eq_true (low d (List.mem_of_mem_filter member))

/-- A text that is refused for the lack of a base still is with more behind it. -/
theorem read_append_eq_noBase (refused : read input = .error .noBase) (kept : 0x20 < c.toNat)
    (outside : OutsideScheme c) (more : List Char) :
    read (input ++ String.ofList (c :: more)) = .error .noBase := by
  rw [read_eq_noBase] at refused ⊢
  obtain ⟨gap, behind, cleaned, low⟩ := clean_append kept input.toList more
  rw [String.toList_append, String.toList_ofList, cleaned, List.append_assoc]
  refine scheme?_append refused ?_
  intro d begins
  cases gap with
  | nil =>
    obtain rfl : c = d := by simpa using begins
    exact outside
  | cons e gap =>
    obtain rfl : e = d := by simpa using begins
    exact outsideScheme_of_le (low e List.mem_cons_self)

end Runbook.Url
