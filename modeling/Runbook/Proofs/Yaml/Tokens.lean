import Mathlib.Data.List.InsertIdx
import Runbook.Yaml.Lexer

set_option autoImplicit false
set_option relaxedAutoImplicit false

/-!
What reading on does to the tokens of a YAML text: all of them stay, and the first one stays first
unless it is found out to begin a key, whose mark and whose mapping then come before it.
-/

namespace Runbook.Yaml

/-- Whether a token marks a key or the mapping that the key is the first of. -/
def Token.marksKey (t : Token) : Prop := t = .key ∨ t = .blockMapping

/-- Whether a token is neither a scalar nor one that says something of the scalar or the document
behind it. -/
def Token.isStructural : Token → Bool
  | .version _ _ | .tagDirective _ _ | .documentStart | .anchor _ | .tag _ _ | .scalar _ _ => false
  | _ => true

theorem Token.marksKey.isStructural {t : Token} (h : t.marksKey) : t.isStructural = true := by
  rcases h with rfl | rfl <;> rfl

namespace Lexer

/-- Whether a state has the tokens of another one, and the same one or the mark of a key first. -/
structure Grows (l l' : Lexer) : Prop where
  mem : ∀ t ∈ l.tokens, t ∈ l'.tokens
  first : ∀ t, l.tokens.getLast? = some t →
    ∃ t', l'.tokens.getLast? = some t' ∧ (t' = t ∨ t'.marksKey)

variable {l l' l'' : Lexer} {t : Token}

theorem Grows.trans (h : l.Grows l') (k : l'.Grows l'') : l.Grows l'' where
  mem := fun t member => k.mem t (h.mem t member)
  first := by
    intro t begins
    obtain ⟨t', begins', same⟩ := h.first t begins
    obtain ⟨t'', begins'', same'⟩ := k.first t' begins'
    refine ⟨t'', begins'', ?_⟩
    rcases same' with rfl | marks
    · exact same
    · exact .inr marks

/-- Only the tokens count. -/
theorem grows_of_tokens_eq (h : l'.tokens = l.tokens) : l.Grows l' where
  mem := fun _ member => h ▸ member
  first := fun t begins => ⟨t, h ▸ begins, .inl rfl⟩

theorem grows_add (l : Lexer) (t : Token) : l.Grows (l.add t) where
  mem := fun _ member => List.mem_cons_of_mem t member
  first := fun t' begins => by
    refine ⟨t', ?_, .inl rfl⟩
    rw [add, List.getLast?_cons, begins]
    rfl

private theorem getLast?_insertIdx (ts : List Token) (i : Nat) (t : Token) :
    (ts.insertIdx i t).getLast? = some t ∨ (ts.insertIdx i t).getLast? = ts.getLast? := by
  induction ts generalizing i with
  | nil => cases i <;> simp
  | cons t' ts ih =>
    cases i with
    | zero => simp [List.getLast?_cons]
    | succ i =>
      rw [List.insertIdx_succ_cons, List.getLast?_cons, List.getLast?_cons]
      rcases ih i with last | last
      · simp [last]
      · simp [last]

theorem grows_insertAt (l : Lexer) (number : Nat) (h : t.marksKey) :
    l.Grows (l.insertAt number t) where
  mem := (List.sublist_insertIdx l.tokens (l.count - number) t).subset
  first := by
    intro t' begins
    rcases getLast?_insertIdx l.tokens (l.count - number) t with last | last
    · exact ⟨t, last, .inr h⟩
    · exact ⟨t', last.trans begins, .inl rfl⟩

theorem grows_unrollFrom (l : Lexer) (column indent : Int) (outer : List Int) :
    l.Grows (l.unrollFrom column indent outer) := by
  induction outer generalizing l indent with
  | nil => exact grows_of_tokens_eq rfl
  | cons next outer ih =>
    unfold unrollFrom
    split
    · exact (grows_add l .blockEnd).trans (ih (l.add .blockEnd) next)
    · exact grows_of_tokens_eq rfl

theorem grows_unroll (l : Lexer) (column : Int) : l.Grows (l.unroll column) := by
  unfold unroll
  split
  · exact grows_of_tokens_eq rfl
  · exact grows_unrollFrom l column l.indent l.outer

theorem grows_roll (l : Lexer) (column number : Nat) (h : t.marksKey) :
    l.Grows (l.roll column number t) := by
  unfold roll
  split
  · exact (grows_insertAt l number h).trans (grows_of_tokens_eq rfl)
  · exact grows_of_tokens_eq rfl

theorem dropKey_eq_some (h : l.dropKey = some l') : l' = { l with place := none } := by
  unfold dropKey at h
  split at h
  · cases h
  · exact (Option.some.inj h).symm

theorem saveKey_eq_some (h : l.saveKey = some l') : ∃ place, l' = { l with place } := by
  unfold saveKey at h
  split at h
  · obtain ⟨dropped, drop, done⟩ := Option.bind_eq_some_iff.mp h
    obtain rfl := dropKey_eq_some drop
    exact ⟨_, (Option.some.inj done).symm⟩
  · exact ⟨l.place, (Option.some.inj h).symm⟩

theorem dropStale_eq_some (h : l.dropStale = some l') :
    ∃ place outerPlaces, l' = { l with place, outerPlaces } := by
  unfold dropStale at h
  obtain ⟨place, -, h⟩ := Option.bind_eq_some_iff.mp h
  obtain ⟨outerPlaces, -, h⟩ := Option.bind_eq_some_iff.mp h
  exact ⟨place, outerPlaces, (Option.some.inj h).symm⟩

theorem grows_rollHere (h : l.rollHere t = some l') : l.Grows l' := by
  unfold rollHere at h
  split at h
  · obtain rfl := Option.some.inj h
    exact grows_of_tokens_eq rfl
  · split at h
    · obtain rfl := Option.some.inj h
      unfold roll
      split
      · -- the opening token gets the number of the next one, so it comes last
        refine (grows_add l t).trans (grows_of_tokens_eq ?_)
        simp [insertAt, add]
      · exact grows_of_tokens_eq rfl
    · cases h

/-- The state after a token that comes last, whatever else changes. -/
private theorem grows_of_add (h : l'.tokens = t :: l.tokens) : l.Grows l' :=
  (grows_add l t).trans (grows_of_tokens_eq h)

theorem readDirective_eq_some (h : l.readDirective = some l') :
    ∃ t after, directive ((l.unroll (-1)).cursor.skip 1) = some (t, after) ∧
      l' = (({ l.unroll (-1) with place := none }.allowKey false).add t).moveTo after := by
  obtain ⟨dropped, drop, h⟩ := Option.bind_eq_some_iff.mp h
  obtain ⟨⟨t, after⟩, read, h⟩ := Option.bind_eq_some_iff.mp h
  obtain rfl := dropKey_eq_some drop
  exact ⟨t, after, read, (Option.some.inj h).symm⟩

theorem grows_readDirective (h : l.readDirective = some l') : l.Grows l' := by
  obtain ⟨t, after, -, rfl⟩ := readDirective_eq_some h
  exact (grows_unroll l (-1)).trans (grows_of_add rfl)

theorem tokens_readMarker (h : l.readMarker t = some l') :
    l'.tokens = t :: (l.unroll (-1)).tokens := by
  obtain ⟨dropped, drop, h⟩ := Option.bind_eq_some_iff.mp h
  obtain rfl := dropKey_eq_some drop
  obtain rfl := Option.some.inj h
  rfl

theorem grows_readMarker (h : l.readMarker t = some l') : l.Grows l' :=
  (grows_unroll l (-1)).trans (grows_of_add (tokens_readMarker h))

theorem tokens_openFlow (h : l.openFlow t = some l') : l'.tokens = t :: l.tokens := by
  obtain ⟨saved, save, h⟩ := Option.bind_eq_some_iff.mp h
  obtain ⟨place, rfl⟩ := saveKey_eq_some save
  obtain rfl := Option.some.inj h
  rfl

theorem tokens_closeFlow (h : l.closeFlow t = some l') : l'.tokens = t :: l.tokens := by
  obtain ⟨dropped, drop, h⟩ := Option.bind_eq_some_iff.mp h
  obtain rfl := dropKey_eq_some drop
  obtain rfl := Option.some.inj h
  show t :: _ = t :: l.tokens
  split <;> rfl

theorem tokens_readFlowEntry (h : l.readFlowEntry = some l') :
    l'.tokens = .flowEntry :: l.tokens := by
  obtain ⟨dropped, drop, h⟩ := Option.bind_eq_some_iff.mp h
  obtain rfl := dropKey_eq_some drop
  obtain rfl := Option.some.inj h
  rfl

theorem grows_readBlockEntry (h : l.readBlockEntry = some l') : l.Grows l' := by
  obtain ⟨rolled, roll, h⟩ := Option.bind_eq_some_iff.mp h
  obtain ⟨dropped, drop, h⟩ := Option.bind_eq_some_iff.mp h
  obtain rfl := dropKey_eq_some drop
  obtain rfl := Option.some.inj h
  exact (grows_rollHere roll).trans (grows_of_add rfl)

theorem grows_readKey (h : l.readKey = some l') : l.Grows l' := by
  obtain ⟨rolled, roll, h⟩ := Option.bind_eq_some_iff.mp h
  obtain ⟨dropped, drop, h⟩ := Option.bind_eq_some_iff.mp h
  obtain rfl := dropKey_eq_some drop
  obtain rfl := Option.some.inj h
  exact (grows_rollHere roll).trans (grows_of_add rfl)

theorem grows_readValue (h : l.readValue = some l') : l.Grows l' ∧ .value ∈ l'.tokens := by
  unfold readValue at h
  split at h
  · next k _ =>
    obtain rfl := Option.some.inj h
    have marked := (grows_insertAt l k.token (.inl rfl)).trans
      (grows_roll _ k.mark.column k.token (.inr rfl))
    exact ⟨marked.trans (grows_of_add rfl), List.mem_cons_self⟩
  · obtain ⟨rolled, roll, h⟩ := Option.bind_eq_some_iff.mp h
    obtain rfl := Option.some.inj h
    exact ⟨(grows_rollHere roll).trans (grows_of_add rfl), List.mem_cons_self⟩

theorem tokens_readToken {read : Cursor → Option (Token × Cursor)}
    (h : l.readToken read = some l') :
    ∃ t after, read l.cursor = some (t, after) ∧ l'.tokens = t :: l.tokens := by
  obtain ⟨saved, save, h⟩ := Option.bind_eq_some_iff.mp h
  obtain ⟨⟨t, after⟩, found, h⟩ := Option.bind_eq_some_iff.mp h
  obtain ⟨place, rfl⟩ := saveKey_eq_some save
  obtain rfl := Option.some.inj h
  exact ⟨t, after, found, rfl⟩

/-- The same of a token that is made of what is read. -/
theorem tokens_readToken_map {α : Type} {read : Cursor → Option (α × Cursor)} {make : α → Token}
    (h : l.readToken (fun c => (read c).map fun (a, after) => (make a, after)) = some l') :
    ∃ a after, read l.cursor = some (a, after) ∧ l'.tokens = make a :: l.tokens := by
  obtain ⟨t, _, made, tokens⟩ := tokens_readToken h
  obtain ⟨⟨a, after⟩, found, same⟩ := Option.map_eq_some_iff.mp made
  obtain ⟨rfl, -⟩ := Prod.mk.inj same
  exact ⟨a, after, found, tokens⟩

theorem tokens_readBlockScalar {folds : Bool} (h : l.readBlockScalar folds = some l') :
    ∃ style text, style ≠ .plain ∧ l'.tokens = .scalar style text :: l.tokens := by
  obtain ⟨dropped, drop, h⟩ := Option.bind_eq_some_iff.mp h
  obtain ⟨⟨text, after⟩, -, h⟩ := Option.bind_eq_some_iff.mp h
  obtain rfl := dropKey_eq_some drop
  obtain rfl := Option.some.inj h
  exact ⟨if folds then .folded else .literal, text, by split <;> simp, rfl⟩

theorem readPlain_eq_some (h : l.readPlain = some l') :
    ∃ f, plainFrom l.inFlow (l.indent + 1) .start l.cursor.mark l.cursor.rest =
      some (f, l'.cursor) ∧ l'.tokens = .scalar .plain f.result :: l.tokens := by
  obtain ⟨saved, save, h⟩ := Option.bind_eq_some_iff.mp h
  obtain ⟨⟨text, passed, after⟩, found, h⟩ := Option.bind_eq_some_iff.mp h
  obtain ⟨place, rfl⟩ := saveKey_eq_some save
  obtain ⟨⟨f, after⟩, found, same⟩ := Option.map_eq_some_iff.mp found
  cases same
  obtain rfl := Option.some.inj h
  exact ⟨f, found, rfl⟩

/-- The ways to read the token that begins with a character. -/
inductive Reads (l : Lexer) (c : Char) (next : Option Char) (l' : Lexer) : Prop
  | directive (is : c = '%') (h : l.readDirective = some l')
  | documentStart (is : isStartMarker l.cursor.rest = true)
      (h : l.readMarker .documentStart = some l')
  | documentEnd (h : l.readMarker .documentEnd = some l')
  | single (t : Token) (is : t.isStructural = true) (h : l'.tokens = t :: l.tokens)
  | blockEntry (h : l.readBlockEntry = some l')
  | key (h : l.readKey = some l')
  | value (h : l.readValue = some l')
  | anchor (is : c = '&') (name : String) (after : Cursor)
      (read : anchorName (l.cursor.skip 1) = some (name, after))
      (h : l'.tokens = .anchor name :: l.tokens)
  | tag (is : c = '!') (t : Token) (after : Cursor)
      (read : Yaml.tag l.inFlow l.cursor = some (t, after)) (h : l'.tokens = t :: l.tokens)
  | marked (is : c = '"' ∨ c = '\'' ∨ c = '|' ∨ c = '>') (style : Style) (text : String)
      (differs : style ≠ .plain) (h : l'.tokens = .scalar style text :: l.tokens)
  | plain (apart : ¬(c = ':' ∧ isBlankOrEnd next = true)) (h : l.readPlain = some l')

theorem reads_of_readAt {c : Char} {next : Option Char} (h : l.readAt c next = some l') :
    l.Reads c next l' := by
  unfold readAt at h
  rcases ite_eq_iff.mp h with ⟨is, h⟩ | ⟨-, h⟩
  · exact .directive (by simpa using (Bool.and_eq_true_iff.mp is).2) h
  rcases ite_eq_iff.mp h with ⟨is, h⟩ | ⟨-, h⟩
  · exact .documentStart (Bool.and_eq_true_iff.mp is).2 h
  rcases ite_eq_iff.mp h with ⟨-, h⟩ | ⟨-, h⟩
  · exact .documentEnd h
  rcases ite_eq_iff.mp h with ⟨-, h⟩ | ⟨-, h⟩
  · exact .single .flowSequence rfl (tokens_openFlow h)
  rcases ite_eq_iff.mp h with ⟨-, h⟩ | ⟨-, h⟩
  · exact .single .flowMapping rfl (tokens_openFlow h)
  rcases ite_eq_iff.mp h with ⟨-, h⟩ | ⟨-, h⟩
  · exact .single .flowSequenceEnd rfl (tokens_closeFlow h)
  rcases ite_eq_iff.mp h with ⟨-, h⟩ | ⟨-, h⟩
  · exact .single .flowMappingEnd rfl (tokens_closeFlow h)
  rcases ite_eq_iff.mp h with ⟨-, h⟩ | ⟨-, h⟩
  · exact .single .flowEntry rfl (tokens_readFlowEntry h)
  rcases ite_eq_iff.mp h with ⟨-, h⟩ | ⟨-, h⟩
  · exact .blockEntry h
  rcases ite_eq_iff.mp h with ⟨-, h⟩ | ⟨-, h⟩
  · exact .key h
  rcases ite_eq_iff.mp h with ⟨-, h⟩ | ⟨no_value, h⟩
  · exact .value h
  rcases ite_eq_iff.mp h with ⟨-, h⟩ | ⟨-, h⟩
  · obtain ⟨name, -, -, same⟩ := tokens_readToken_map h
    exact .single (.alias name) rfl same
  rcases ite_eq_iff.mp h with ⟨is, h⟩ | ⟨-, h⟩
  · obtain ⟨name, after, read, same⟩ := tokens_readToken_map h
    exact .anchor (by simpa using is) name after read same
  rcases ite_eq_iff.mp h with ⟨is, h⟩ | ⟨-, h⟩
  · obtain ⟨t, after, read, same⟩ := tokens_readToken h
    exact .tag (by simpa using is) t after read same
  rcases ite_eq_iff.mp h with ⟨is, h⟩ | ⟨-, h⟩
  · obtain ⟨style, text, differs, same⟩ := tokens_readBlockScalar h
    have first : c = '|' := by simpa using (Bool.and_eq_true_iff.mp is).1
    exact .marked (by simp [first]) style text differs same
  rcases ite_eq_iff.mp h with ⟨is, h⟩ | ⟨-, h⟩
  · obtain ⟨style, text, differs, same⟩ := tokens_readBlockScalar h
    have first : c = '>' := by simpa using (Bool.and_eq_true_iff.mp is).1
    exact .marked (by simp [first]) style text differs same
  rcases ite_eq_iff.mp h with ⟨is, h⟩ | ⟨-, h⟩
  · obtain ⟨text, -, -, same⟩ := tokens_readToken_map h
    have first : c = '\'' := by simpa using is
    exact .marked (by simp [first]) .single text (by simp) same
  rcases ite_eq_iff.mp h with ⟨is, h⟩ | ⟨-, h⟩
  · obtain ⟨text, -, -, same⟩ := tokens_readToken_map h
    have first : c = '"' := by simpa using is
    exact .marked (by simp [first]) .double text (by simp) same
  rcases ite_eq_iff.mp h with ⟨-, h⟩ | ⟨-, h⟩
  · refine .plain ?_ h
    rintro ⟨rfl, ends⟩
    exact no_value (by simp [ends])
  · cases h

theorem Reads.grows {c : Char} {next : Option Char} (h : l.Reads c next l') : l.Grows l' := by
  cases h with
  | directive _ h => exact grows_readDirective h
  | documentStart _ h => exact grows_readMarker h
  | documentEnd h => exact grows_readMarker h
  | single _ _ h => exact grows_of_add h
  | blockEntry h => exact grows_readBlockEntry h
  | key h => exact grows_readKey h
  | value h => exact (grows_readValue h).1
  | anchor _ _ _ _ h => exact grows_of_add h
  | tag _ _ _ _ h => exact grows_of_add h
  | marked _ _ _ _ h => exact grows_of_add h
  | plain _ h =>
    obtain ⟨f, -, same⟩ := readPlain_eq_some h
    exact grows_of_add same

/-- What reading goes on with: the state at the next token, where no key that may have begun is
stale and no block is open that is indented more. -/
theorem run_succ {steps : Nat} (h : run (steps + 1) l = some l') :
    ∃ fresh ready, l.skipToToken.dropStale = some fresh ∧ ready = fresh.unroll fresh.column ∧
      (ready.cursor.rest = [] ∧ (ready.unroll (-1)).dropKey = some l' ∨
        ∃ c rest further, ready.cursor.rest = c :: rest ∧
          ready.readAt c rest.head? = some further ∧ run steps further = some l') := by
  obtain ⟨fresh, found, h⟩ := Option.bind_eq_some_iff.mp h
  refine ⟨fresh, _, found, rfl, ?_⟩
  dsimp only at h
  split at h
  · next ends => exact .inl ⟨ends, h⟩
  · next c rest goes =>
    obtain ⟨further, next, later⟩ := Option.bind_eq_some_iff.mp h
    exact .inr ⟨c, rest, further, goes, next, later⟩

theorem grows_run {steps : Nat} (h : run steps l = some l') : l.Grows l' := by
  induction steps generalizing l with
  | zero => cases h
  | succ steps ih =>
    obtain ⟨fresh, ready, found, rolled, h⟩ := run_succ h
    obtain ⟨place, outerPlaces, same⟩ := dropStale_eq_some found
    have kept : fresh.tokens = l.tokens := by rw [same]; rfl
    have begun : l.Grows ready := by
      rw [rolled]
      exact (grows_of_tokens_eq kept).trans (grows_unroll fresh fresh.column)
    rcases h with ⟨-, h⟩ | ⟨c, rest, further, -, next, later⟩
    · obtain rfl := dropKey_eq_some h
      exact begun.trans ((grows_unroll ready (-1)).trans (grows_of_tokens_eq rfl))
    · exact begun.trans ((reads_of_readAt next).grows.trans (ih later))

end Lexer

end Runbook.Yaml
