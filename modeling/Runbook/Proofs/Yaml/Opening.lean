import Runbook.Proofs.Text.Trimming
import Runbook.Proofs.Yaml.Folding
import Runbook.Proofs.Yaml.Property
import Runbook.Proofs.Yaml.Tokens
import Runbook.Yaml.Node

set_option autoImplicit false
set_option relaxedAutoImplicit false

/-!
The first token of a YAML text that neither begins nor ends with white space. Unless the text begins
with something that is no part of a value, the first token is structural, or a tag of the
application's own, or a directive that nothing follows, or a scalar that is marked by its first
character, or a plain scalar; and if no other token follows such a scalar, the text ends there or
goes on with white space and a comment or an end marker.
-/

namespace Runbook.Yaml

open Runbook.Text (Trimmed)

/-- Whether a text begins with what is no part of a value: a comment, a byte order mark, the start
marker of a document, an anchor, a tag that is not the application's own, or a directive before
other lines. -/
def beginsApart (cs : List Char) : Bool :=
  cs.head?.any (fun c => c == '#' || isByteOrderMark c) || isStartMarker cs || beginsAnchor cs ||
    beginsTag cs || beginsDirective cs

/-- Whether a text begins with the mark of a scalar that is not plain. -/
def beginsMarked (cs : List Char) : Bool := cs.head?.any (· ∈ ['"', '\'', '|', '>'])

/-- Whether a text goes on behind its beginning with white space and then a comment or a line that
begins with the end marker of a document. -/
def LeavesOut (source cs : List Char) : Prop :=
  ∃ gap rest, cs = source ++ gap ++ rest ∧ gap ≠ [] ∧ (∀ c ∈ gap, isWhite c = true) ∧
    (rest.head? = some '#' ∨
      (isEndMarker rest = true ∧ ∃ b, gap.getLast? = some b ∧ isBreak b = true))

/-- The ways in which a text opens with its tokens. -/
inductive Opens (cs : List Char) : List Token → Prop
  | structural (t : Token) (ts : List Token) (is : t.isStructural = true) : Opens cs (t :: ts)
  | directive (t : Token) (is : t.isDirective = true) : Opens cs [t]
  | tagged (handle suffix : Text.Bytes) (ts : List Token) (own : IsOwnTag handle suffix) :
      Opens cs (.tag handle suffix :: ts)
  | marked (style : Style) (text : String) (ts : List Token) (differs : style ≠ .plain)
      (begins : beginsMarked cs = true) : Opens cs (.scalar style text :: ts)
  | plain (source text : List Char) (ts : List Token) (begins : source <+: cs)
      (nonempty : source ≠ []) (folds : Folds source text)
      (leaves : isEnd ts = true → source = cs ∨ LeavesOut source cs) :
      Opens cs (.scalar .plain (String.ofList text) :: ts)

private theorem isBlank_of_isWhite {c : Char} (h : isWhite c = true) : Text.isBlank c = true := by
  simp only [isWhite, isBlank, isBreak, Bool.or_eq_true, beq_iff_eq] at h
  rcases h with (rfl | rfl) | h
  · rfl
  · rfl
  · simp only [Text.isBlank, Bool.or_eq_true, Bool.and_eq_true, decide_eq_true_eq, beq_iff_eq]
    omega

/-- What trimming takes from a text includes all that is white space in YAML. -/
theorem isWhite_eq_false {c : Char} (h : Text.isBlank c = false) : isWhite c = false := by
  by_contra white
  rw [isBlank_of_isWhite (by simpa using white)] at h
  cases h

namespace Lexer

variable {l l' further : Lexer} {c : Char} {cs : List Char} {steps : Nat}

theorem skipToToken_of_ink (rest : l.cursor.rest = c :: cs) (ink : isWhite c = false)
    (no_comment : c ≠ '#') (no_mark : isByteOrderMark c = false) : l.skipToToken = l := by
  simp only [isWhite, isBlank, Bool.or_eq_false_iff, beq_eq_false_iff_ne] at ink
  obtain ⟨⟨no_space, no_tab⟩, no_break⟩ := ink
  have here : skipBlanks l.inFlow l.allowsKey false l.cursor.mark l.cursor.rest =
      (⟨c :: cs, l.cursor.mark⟩, l.allowsKey) := by
    rw [rest, skipBlanks]
    · simp [no_space, no_tab, no_break, no_comment, no_mark]
    · rintro _ rfl
      cases no_break
  unfold skipToToken
  rw [here, ← rest]

private theorem cursor_unroll (l : Lexer) (column : Int) : (l.unroll column).cursor = l.cursor := by
  have from_here (indent : Int) (outer : List Int) (l : Lexer) :
      (l.unrollFrom column indent outer).cursor = l.cursor := by
    induction outer generalizing l indent with
    | nil => rfl
    | cons next outer ih =>
      unfold unrollFrom
      split
      · exact ih next (l.add .blockEnd)
      · rfl
  unfold unroll
  split
  · rfl
  · exact from_here l.indent l.outer l

/-- Reading goes on where a token begins. -/
theorem run_of_ink (rest : l.cursor.rest = c :: cs) (ink : isWhite c = false)
    (no_comment : c ≠ '#') (no_mark : isByteOrderMark c = false) (h : run steps l = some l') :
    ∃ fresh further left, l.dropStale = some fresh ∧ fresh.cursor = l.cursor ∧
      (fresh.unroll fresh.column).readAt c cs.head? = some further ∧
      run left further = some l' := by
  cases steps with
  | zero => cases h
  | succ steps =>
    obtain ⟨fresh, ready, found, rolled, h⟩ := run_succ h
    rw [skipToToken_of_ink rest ink no_comment no_mark] at found
    obtain ⟨place, outerPlaces, same⟩ := dropStale_eq_some found
    have stays : fresh.cursor = l.cursor := by rw [same]
    have here : ready.cursor.rest = c :: cs := by rw [rolled, cursor_unroll, stays, rest]
    rcases h with ⟨ends, -⟩ | ⟨d, ds, further, goes, next, later⟩
    · rw [here] at ends
      cases ends
    · rw [here] at goes
      cases goes
      exact ⟨fresh, further, steps, found, stays, rolled ▸ next, later⟩

private theorem readAt_colon {next : Option Char} (rest : l.cursor.rest = ':' :: cs)
    (ends : isBlankOrEnd next = true) : l.readAt ':' next = l.readValue := by
  simp [readAt, rest, isStartMarker, isEndMarker, ends]

private theorem readAt_startMarker {next : Option Char} (begins : l.column = 0)
    (marker : isStartMarker l.cursor.rest = true) :
    l.readAt '-' next = l.readMarker .documentStart := by
  simp [readAt, begins, marker]

private theorem isStartMarker_eq_true (h : isStartMarker cs = true) :
    ∃ rest, cs = '-' :: rest := by
  unfold isStartMarker at h
  split at h
  · exact ⟨_, rfl⟩
  · cases h

/-- Where a plain scalar ends with more to come, another token than an end marker is read in the
end, unless what comes is left out. -/
theorem exists_mem_of_endsScalar {held : List Char} (ends : EndsScalar held l.cursor)
    (h : run steps l = some l') :
    l.cursor.rest = [] ∨ (.value ∈ l'.tokens ∨ .documentStart ∈ l'.tokens) ∨
      held ≠ [] ∧ (l.cursor.rest.head? = some '#' ∨
        (isEndMarker l.cursor.rest = true ∧ ∃ b, held.getLast? = some b ∧ isBreak b = true)) := by
  rcases ends with nothing | ⟨cs, rest, apart⟩ | ⟨waits, comment | ⟨begins, marker, broken⟩⟩
  · exact .inl nothing
  · obtain ⟨fresh, further, left, -, stays, next, later⟩ :=
      run_of_ink rest (by decide) (by decide) (by decide) h
    have here : (fresh.unroll fresh.column).cursor.rest = ':' :: cs := by
      rw [cursor_unroll, stays, rest]
    rw [readAt_colon here apart] at next
    exact .inr (.inl (.inl ((grows_run later).mem _ (grows_readValue next).2)))
  · exact .inr (.inr ⟨waits, .inl comment⟩)
  · rcases Bool.or_eq_true_iff.mp marker with starts | finishes
    · obtain ⟨cs, rest⟩ := isStartMarker_eq_true starts
      obtain ⟨fresh, further, left, -, stays, next, later⟩ :=
        run_of_ink rest (by decide) (by decide) (by decide) h
      have here : (fresh.unroll fresh.column).cursor = l.cursor := by
        rw [cursor_unroll, stays]
      rw [readAt_startMarker (by rw [column, here, begins]) (by rw [here, starts])] at next
      have read : .documentStart ∈ further.tokens := by
        rw [tokens_readMarker next]
        exact List.mem_cons_self
      exact .inr (.inl (.inr ((grows_run later).mem _ read)))
    · exact .inr (.inr ⟨waits, .inr ⟨finishes, broken⟩⟩)

/-- The first step of reading. -/
theorem run_start (ink : isWhite c = false) (no_comment : c ≠ '#')
    (no_mark : isByteOrderMark c = false) (h : run steps (start (c :: cs)) = some l') :
    ∃ further left, (start (c :: cs)).readAt c cs.head? = some further ∧
      run left further = some l' := by
  obtain ⟨fresh, further, left, found, -, next, later⟩ := run_of_ink rfl ink no_comment no_mark h
  obtain rfl : start (c :: cs) = fresh := Option.some.inj found
  exact ⟨further, left, next, later⟩

private theorem unroll_of_outside (outside : l.outer = []) (column : Int) :
    (l.unroll column).tokens = l.tokens ∧ (l.unroll column).outer = [] := by
  unfold unroll
  split
  · exact ⟨rfl, outside⟩
  · rw [outside]
    exact ⟨rfl, rfl⟩

/-- Where the text is at its end and no block is open, no token is read. -/
theorem run_of_nothing (nothing : l.cursor.rest = []) (outside : l.outer = [])
    (h : run steps l = some l') : l'.tokens = l.tokens := by
  cases steps with
  | zero => cases h
  | succ steps =>
    obtain ⟨fresh, ready, found, rolled, h⟩ := run_succ h
    have still : l.skipToToken = l := by
      have here : skipBlanks l.inFlow l.allowsKey false l.cursor.mark l.cursor.rest =
          (⟨[], l.cursor.mark⟩, l.allowsKey) := by rw [nothing, skipBlanks]
      unfold skipToToken
      rw [here, ← nothing]
    rw [still] at found
    obtain ⟨place, outerPlaces, same⟩ := dropStale_eq_some found
    obtain ⟨tokens, unopened⟩ := unroll_of_outside (l := fresh) (by rw [same, outside]) fresh.column
    rcases h with ⟨-, h⟩ | ⟨c, rest, further, goes, -, -⟩
    · obtain rfl := dropKey_eq_some h
      obtain ⟨tokens', -⟩ := unroll_of_outside (l := ready) (by rw [rolled, unopened]) (-1)
      change (ready.unroll (-1)).tokens = l.tokens
      rw [tokens', rolled, tokens, same]
    · rw [rolled, cursor_unroll, same, nothing] at goes
      cases goes

end Lexer

private theorem isEnd_of_mem {t : Token} {ts : List Token} (member : t ∈ ts)
    (other : t ≠ .documentEnd) : isEnd ts = false := by
  induction ts with
  | nil => cases member
  | cons first ts ih =>
    rcases List.mem_cons.mp member with rfl | later
    · cases t <;> first | rfl | exact absurd rfl other
    · cases first <;> first | rfl | exact ih later

section Opens

variable {l further : Lexer} {c : Char} {cs : List Char} {left : Nat}

private theorem exists_reverse {t : Token} (h : l.tokens.getLast? = some t) :
    ∃ ts, l.tokens.reverse = t :: ts :=
  List.head?_eq_some_iff.mp (by rw [List.head?_reverse, h])

/-- A text opens with a structural token if such a token is the first one read. -/
private theorem opens_structural {text : List Char} {t : Token} (is : t.isStructural = true)
    (first : further.tokens.getLast? = some t) (later : further.run left = some l) :
    Opens text l.tokens.reverse := by
  obtain ⟨t', first', same | marks⟩ := (Lexer.grows_run later).first t first
  · obtain ⟨ts, tokens⟩ := exists_reverse first'
    exact tokens ▸ .structural t' ts (same ▸ is)
  · obtain ⟨ts, tokens⟩ := exists_reverse first'
    exact tokens ▸ .structural t' ts marks.isStructural

/-- A text opens with the first token read, unless the token begins a key. -/
private theorem opens_first {text : List Char} {t : Token} (first : further.tokens = [t])
    (later : further.run left = some l)
    (opens : ∀ ts, l.tokens.reverse = t :: ts → Opens text (t :: ts)) :
    Opens text l.tokens.reverse := by
  obtain ⟨t', first', rfl | marks⟩ := (Lexer.grows_run later).first t (by rw [first]; rfl)
  · obtain ⟨ts, tokens⟩ := exists_reverse first'
    exact tokens ▸ opens ts tokens
  · obtain ⟨ts, tokens⟩ := exists_reverse first'
    exact tokens ▸ .structural t' ts marks.isStructural

/-- A trimmed text does not end with white space that is held back. -/
private theorem held_eq_nil {source held : List Char} (trimmed : Trimmed (source ++ held))
    (white : ∀ d ∈ held, isWhite d = true) : held = [] := by
  by_contra waits
  have last : held.getLast? = some (held.getLast waits) := List.getLast?_eq_some_getLast waits
  have ends : (source ++ held).getLast? = some (held.getLast waits) := by
    rw [List.getLast?_append, last, Option.some_or]
  have ink := isWhite_eq_false (trimmed.last (held.getLast waits) ends)
  rw [white _ (List.getLast_mem waits)] at ink
  cases ink

/-- A plain scalar takes a character at least. -/
private theorem source_ne_nil {source held : List Char} {after : Cursor}
    (trimmed : Trimmed (c :: cs)) (apart : ¬(c = ':' ∧ isBlankOrEnd cs.head? = true))
    (split : c :: cs = source ++ held ++ after.rest) (white : ∀ d ∈ held, isWhite d = true)
    (ends : EndsScalar held after) : source ≠ [] := by
  rintro rfl
  rw [List.nil_append] at split
  cases held with
  | cons d held =>
    obtain ⟨rfl, -⟩ := List.cons.inj split
    have ink := isWhite_eq_false (trimmed.first c rfl)
    rw [white c List.mem_cons_self] at ink
    cases ink
  | nil =>
    rw [List.nil_append] at split
    rcases ends with nothing | ⟨behind, rest, ends⟩ | ⟨waits, -⟩
    · rw [nothing] at split
      cases split
    · rw [rest] at split
      obtain ⟨rfl, rfl⟩ := List.cons.inj split
      exact apart ⟨rfl, ends⟩
    · exact waits rfl

/-- A text that begins with no mark opens with a plain scalar, unless the scalar is a key. -/
private theorem opens_plain (trimmed : Trimmed (c :: cs))
    (apart : ¬(c = ':' ∧ isBlankOrEnd cs.head? = true))
    (first : (Lexer.start (c :: cs)).readPlain = some further)
    (later : further.run left = some l) : Opens (c :: cs) l.tokens.reverse := by
  obtain ⟨f, plain, tokens⟩ := Lexer.readPlain_eq_some first
  obtain ⟨source, held, split, holds, ends⟩ :=
    plainFrom_eq_some plain Folding.holds_start fun _ none_held => absurd rfl none_held
  change c :: cs = source ++ held ++ further.cursor.rest at split
  refine opens_first tokens later fun ts same => ?_
  refine .plain source f.text.reverse ts ⟨_, by rw [split, List.append_assoc]⟩
    (source_ne_nil trimmed apart split holds.held_white ends) holds.folds fun finished => ?_
  have none_else {t : Token} (member : t ∈ l.tokens) (other : t ≠ .documentEnd)
      (unlike : t ≠ .scalar .plain f.result) : False := by
    rw [← List.mem_reverse, same] at member
    rcases List.mem_cons.mp member with is | behind
    · exact unlike is
    · rw [isEnd_of_mem behind other] at finished
      cases finished
  -- a document that ends behind the scalar has no token that a key or a second document has
  rcases Lexer.exists_mem_of_endsScalar ends later with nothing | (value | starts) | ⟨waits, goes⟩
  · rw [nothing, List.append_nil] at split
    rw [held_eq_nil (split ▸ trimmed) holds.held_white, List.append_nil] at split
    exact .inl split.symm
  · exact (none_else value (by simp) (by simp)).elim
  · exact (none_else starts (by simp) (by simp)).elim
  · exact .inr ⟨held, further.cursor.rest, split, waits, holds.held_white, goes⟩

/-- A directive that nothing follows is the only token of a text. -/
private theorem opens_directive (alone : beginsDirective ('%' :: cs) = false)
    (first : (Lexer.start ('%' :: cs)).readDirective = some further)
    (later : further.run left = some l) : Opens ('%' :: cs) l.tokens.reverse := by
  obtain ⟨t, after, read, rfl⟩ := Lexer.readDirective_eq_some first
  change directive (behindFirst ('%' :: cs)) = some (t, after) at read
  have nothing : after.rest = [] := by
    simpa [beginsDirective, read] using alone
  rw [Lexer.run_of_nothing nothing rfl later]
  exact .directive t (isDirective_of_directive read)

end Opens

/-- The tokens of a trimmed text open in one of a few ways, by the first character of the text. -/
theorem opens_of_lex? {cs : List Char} {ts : List Token} (nonempty : cs ≠ []) (trimmed : Trimmed cs)
    (whole : beginsApart cs = false) (no_mark_alone : cs ≠ ['!']) (h : Token.lex? cs = some ts) :
    Opens cs ts := by
  obtain ⟨c, cs, rfl⟩ := List.exists_cons_of_ne_nil nonempty
  simp only [beginsApart, Bool.or_eq_false_iff, List.head?_cons, Option.any_some,
    beq_eq_false_iff_ne] at whole
  obtain ⟨⟨⟨⟨⟨no_comment, no_mark⟩, unmarked⟩, no_anchor⟩, no_tag⟩, no_directive⟩ := whole
  have ink : isWhite c = false := isWhite_eq_false (trimmed.first c rfl)
  have whole_text : dropByteOrderMark (c :: cs) = c :: cs := if_neg (by simp [no_mark])
  unfold Token.lex? at h
  rw [whole_text] at h
  obtain ⟨-, h⟩ := Option.ite_none_right_eq_some.mp h
  obtain ⟨l, read, rfl⟩ := Option.map_eq_some_iff.mp h
  obtain ⟨further, left, next, later⟩ := Lexer.run_start ink no_comment no_mark read
  -- the mark of a mapping may come first, so the last of the reversed tokens counts
  have begins (t : Token) (behind : List Token) (is : t.isStructural = true)
      (tokens : further.tokens = behind ++ [t]) : Opens (c :: cs) l.tokens.reverse :=
    opens_structural is (by rw [tokens, List.getLast?_concat]) later
  cases Lexer.reads_of_readAt next with
  | directive is h =>
    subst is
    exact opens_directive no_directive h later
  | documentStart is _ => cases unmarked.symm.trans is
  | documentEnd h => exact begins .documentEnd [] rfl (Lexer.tokens_readMarker h)
  | single t is h => exact begins t [] is h
  | blockEntry h =>
    obtain rfl := Option.some.inj h
    exact begins .blockSequence [.blockEntry] rfl rfl
  | key h =>
    obtain rfl := Option.some.inj h
    exact begins .blockMapping [.key] rfl rfl
  | value h =>
    obtain rfl := Option.some.inj h
    exact begins .blockMapping [.value] rfl rfl
  | anchor is name after named _ =>
    subst is
    cases no_anchor.symm.trans (beginsAnchor_of_anchorName named)
  | tag is t after found h =>
    subst is
    have more : cs ≠ [] := fun nothing => no_mark_alone (by rw [nothing])
    obtain ⟨handle, suffix, rfl, own⟩ := isOwnTag_of_tag more no_tag found
    exact opens_first h later fun ts _ => .tagged handle suffix ts own
  | marked is style text differs h =>
    exact opens_first h later fun ts _ =>
      .marked style text ts differs (by simp [beginsMarked, is])
  | plain apart h => exact opens_plain trimmed apart h later

end Runbook.Yaml
