import Mathlib.Data.List.Basic
import Runbook.Proofs.Yaml.Property
import Runbook.Proofs.Yaml.Tokens
import Runbook.Yaml.Reader

set_option autoImplicit false
set_option relaxedAutoImplicit false

/-!
What kind of value a YAML document has, by its first token. A structural token begins a collection
or nothing that can be read, and so does a tag of the application's own; a scalar that is not a key
is all there is of its document; and a directive alone begins none.
-/

namespace Runbook.Yaml

/-- Whether a node is a scalar, and no link to one either. -/
def Node.isScalar {Link : Type} : Node Link → Bool
  | .scalar _ _ _ => true
  | _ => false

variable {t : Token} {ts rest : List Token} {handles : Handles} {root : Written}

private theorem properties_of_structural (h : t.isStructural = true) :
    properties handles (t :: ts) = some (⟨none, none⟩, t :: ts) := by
  cases t <;> first | rfl | cases h

private theorem isScalar_collection {α : Type} {x : Option (α × List Token)} {f : α → Written}
    (collects : ∀ a, (f a).isScalar = false)
    (h : (x.bind fun p => some (f p.1, p.2)) = some (root, rest)) : root.isScalar = false := by
  obtain ⟨⟨a, left⟩, -, done⟩ := Option.bind_eq_some_iff.mp h
  obtain ⟨rfl, -⟩ := Prod.mk.inj (Option.some.inj done)
  exact collects a

theorem isScalar_node {block loose : Bool} {depth : Nat} (h : t.isStructural = true)
    (read : node handles block loose depth (t :: ts) = some (root, rest)) :
    root.isScalar = false := by
  cases depth with
  | zero => cases read
  | succ depth =>
    by_cases is_alias : ∃ name, t = .alias name
    · obtain ⟨name, rfl⟩ := is_alias
      obtain ⟨rfl, -⟩ := Prod.mk.inj (Option.some.inj read)
      rfl
    · rw [node, properties_of_structural h] at read
      · simp only [Option.bind_eq_bind, Option.bind_some] at read
        split at read
        · next same =>
          rw [(List.cons.inj same).1] at h
          cases h
        · exact isScalar_collection (f := .sequence _) (fun _ => rfl) read
        · exact isScalar_collection (fun _ => rfl) read
        · split_ifs at read
          · exact isScalar_collection (fun _ => rfl) read
          · exact isScalar_collection (fun _ => rfl) read
          · exact isScalar_collection (fun _ => rfl) read
          · next absent => cases absent
        · next nothing => cases nothing
      · rintro name ts same
        exact is_alias ⟨name, (List.cons.inj same).1⟩

theorem node_scalar {block loose : Bool} {depth : Nat} {style : Style} {text : String}
    (read : node handles block loose depth (.scalar style text :: ts) = some (root, rest)) :
    root = .scalar ⟨none, none⟩ style text ∧ rest = ts := by
  cases depth with
  | zero => cases read
  | succ depth =>
    rw [node] at read
    · obtain ⟨rfl, rfl⟩ := Prod.mk.inj (Option.some.inj read)
      exact ⟨rfl, rfl⟩
    · rintro name ts same
      cases (List.cons.inj same).1

/-- The properties that begin with a tag have the tag that it stands for, whether or not an anchor
follows. -/
private theorem exists_tag_of_properties {handle suffix : Text.Bytes} {p : Properties}
    (read : properties handles (.tag handle suffix :: ts) = some (p, rest)) :
    ∃ whole, resolveTag? handles handle suffix = some whole ∧ p.tag = some whole := by
  have tagged {anchor : Option String} {left : List Token}
      (made : (resolveTag? handles handle suffix).map (fun whole =>
        ((⟨anchor, some whole⟩ : Properties), left)) = some (p, rest)) :
      ∃ whole, resolveTag? handles handle suffix = some whole ∧ p.tag = some whole := by
    obtain ⟨whole, found, same⟩ := Option.map_eq_some_iff.mp made
    obtain ⟨rfl, -⟩ := Prod.mk.inj same
    exact ⟨whole, found, rfl⟩
  cases ts with
  | nil => exact tagged read
  | cons next ts => cases next <;> exact tagged read

/-- The properties behind a tag of the application's own are local and not the mark of tags. -/
private theorem properties_of_tag {handle suffix : Text.Bytes} {p : Properties}
    (own : IsOwnTag handle suffix)
    (read : properties standardHandles (.tag handle suffix :: ts) = some (p, rest)) :
    p.isLocal = true ∧ p.ofWritten = p := by
  obtain ⟨whole, found, tag⟩ := exists_tag_of_properties read
  obtain ⟨begins, longer⟩ := own whole found
  constructor
  · rw [Properties.isLocal, tag, Option.any_some, begins]
    rfl
  · rw [Properties.ofWritten, if_neg (by simpa [tag] using longer)]

/-- A node behind a tag of the application's own is a collection or a scalar with it. -/
theorem node_of_tag {handle suffix : Text.Bytes} {block loose : Bool} {depth : Nat}
    (own : IsOwnTag handle suffix)
    (read : node standardHandles block loose depth (.tag handle suffix :: ts) =
      some (root, rest)) :
    root.isScalar = false ∨ ∃ p style text, root = .scalar p style text ∧ p.isLocal = true := by
  cases depth with
  | zero => cases read
  | succ depth =>
    rw [node] at read
    · obtain ⟨⟨p, left⟩, found, read⟩ := Option.bind_eq_some_iff.mp read
      obtain ⟨own_tag, same⟩ := properties_of_tag own found
      have absent {from_ : List Token}
          (h : (if p.anchor.isSome || p.tag.isSome then
            some ((.scalar p .plain "" : Written), from_) else none) = some (root, rest)) :
          ∃ p style text, root = .scalar p style text ∧ p.isLocal = true := by
        obtain ⟨-, made⟩ := Option.ite_none_right_eq_some.mp h
        obtain ⟨rfl, -⟩ := Prod.mk.inj (Option.some.inj made)
        exact ⟨p, _, _, rfl, own_tag⟩
      dsimp only at read
      split at read
      · next style text _ =>
        obtain ⟨rfl, -⟩ := Prod.mk.inj (Option.some.inj read)
        exact .inr ⟨p.ofWritten, style, text, rfl, same.symm ▸ own_tag⟩
      · exact .inl (isScalar_collection (f := .sequence _) (fun _ => rfl) read)
      · exact .inl (isScalar_collection (fun _ => rfl) read)
      · split_ifs at read with loosely items entries given
        · exact .inl (isScalar_collection (fun _ => rfl) read)
        · exact .inl (isScalar_collection (fun _ => rfl) read)
        · exact .inl (isScalar_collection (fun _ => rfl) read)
        · exact .inr (absent ((if_pos given).trans read))
      · exact .inr (absent read)
    · rintro name ts same
      cases (List.cons.inj same).1

/-- Tokens that begin with neither a directive nor the mark of a document are a node and the end of
the text. -/
private theorem ofTokens?_bare {document : Option Written}
    (bare : directives false [] (t :: ts) = some ([], t :: ts)) (unmarked : t ≠ .documentStart)
    (read : Written.ofTokens? (t :: ts) = some document) :
    ∃ root rest, document = some root ∧ isEnd rest = true ∧
      node standardHandles true false (depthFor (t :: ts)) (t :: ts) = some (root, rest) := by
  have no_mark : ((t :: ts).head? == some .documentStart) = false := by simpa using unmarked
  unfold Written.ofTokens? at read
  rw [if_neg (by simp)] at read
  obtain ⟨⟨known, rest⟩, first, read⟩ := Option.bind_eq_some_iff.mp read
  rw [bare] at first
  obtain ⟨rfl, rfl⟩ := Prod.mk.inj (Option.some.inj first)
  simp only [no_mark, bne_self_eq_false, Bool.and_false, Bool.false_eq_true, if_false,
    List.nil_append] at read
  obtain ⟨⟨root, rest⟩, made, read⟩ := Option.bind_eq_some_iff.mp read
  obtain ⟨ends, done⟩ := Option.ite_none_right_eq_some.mp read
  exact ⟨root, rest, (Option.some.inj done).symm, ends, made⟩

theorem ofTokens?_structural {document : Option Written} (h : t.isStructural = true)
    (read : Written.ofTokens? (t :: ts) = some document) :
    ∃ root, document = some root ∧ root.isScalar = false := by
  have bare : directives false [] (t :: ts) = some ([], t :: ts) := by
    cases t <;> first | rfl | cases h
  have unmarked : t ≠ .documentStart := by
    rintro rfl
    cases h
  obtain ⟨root, rest, same, -, made⟩ := ofTokens?_bare bare unmarked read
  exact ⟨root, same, isScalar_node h made⟩

theorem ofTokens?_scalar {document : Option Written} {style : Style} {text : String}
    (read : Written.ofTokens? (.scalar style text :: ts) = some document) :
    document = some (.scalar ⟨none, none⟩ style text) ∧ isEnd ts = true := by
  obtain ⟨root, rest, same, ends, made⟩ := ofTokens?_bare rfl (by simp) read
  obtain ⟨rfl, rfl⟩ := node_scalar made
  exact ⟨same, ends⟩

theorem ofTokens?_tag {document : Option Written} {handle suffix : Text.Bytes}
    (own : IsOwnTag handle suffix)
    (read : Written.ofTokens? (.tag handle suffix :: ts) = some document) :
    ∃ root, document = some root ∧
      (root.isScalar = false ∨ ∃ p style text, root = .scalar p style text ∧ p.isLocal = true) := by
  obtain ⟨root, rest, same, -, made⟩ := ofTokens?_bare rfl (by simp) read
  exact ⟨root, same, node_of_tag own made⟩

theorem ofTokens?_directive (is : t.isDirective = true) : Written.ofTokens? [t] = none := by
  have passed : directives false [] [t] = none ∨
      ∃ known, directives false [] [t] = some (known, []) := by
    cases t with
    | version major minor =>
      rw [directives]
      split
      · exact .inl rfl
      · exact .inr ⟨_, rfl⟩
    | tagDirective handle leading => exact .inr ⟨_, rfl⟩
    | _ => cases is
  rcases passed with none_read | ⟨known, passed⟩
  · simp [Written.ofTokens?, none_read]
  · simp [Written.ofTokens?, passed]

/-- Whether a value is a list or a map. -/
def isCollection : Value → Bool
  | .list _ | .map _ => true
  | _ => false

theorem value_scalar (d : Document) (depth : Nat) (p : Properties) (style : Style) (text : String)
    (n : Nat) : (d.value depth (.scalar p style text)).run' n = scalarValue? p style text := by
  have known : (d.value depth (.scalar p style text)).run' n =
      ((scalarValue? p style text).getM : Walk Value).run' n := by
    cases depth <;> rfl
  rw [known]
  cases scalarValue? p style text <;> rfl

/-- What a scalar that is written has for its value. -/
theorem scalarValue?_of_value {d : Document} {depth n : Nat} {p : Properties} {style : Style}
    {text : String} {root : Node Nat} {a : Anchors} {v : Value}
    (linked : link .none (.scalar p style text) = some (root, a))
    (hv : (d.value depth root).run' n = some v) : scalarValue? p style text = some v := by
  obtain ⟨rfl, -⟩ := Prod.mk.inj (Option.some.inj linked)
  exact (value_scalar d depth p style text n).symm.trans hv

/-- A scalar with a tag of the application's own has no value. -/
theorem scalarValue?_of_isLocal {p : Properties} (own : p.isLocal = true) (style : Style)
    (text : String) : scalarValue? p style text = none := by
  unfold scalarValue?
  split
  · next untagged =>
    rw [Properties.isLocal, untagged] at own
    cases own
  · rw [if_pos own]

/-- A walk that comes to a collection, unless a tag of its own stops it. -/
private theorem isCollection_walk {α : Type} {x : Walk α} {f : α → Value} {p : Properties} {n : Nat}
    {v : Value} (collects : ∀ a, isCollection (f a) = true)
    (h : (do if p.isLocal then failure
             return f (← x) : Walk Value).run' n = some v) : isCollection v = true := by
  dsimp only at h
  split at h
  · cases h
  · obtain ⟨⟨w, m⟩, walked, rfl⟩ := Option.map_eq_some_iff.mp h
    obtain ⟨⟨a, k⟩, -, done⟩ := Option.bind_eq_some_iff.mp walked
    obtain ⟨rfl, -⟩ := Prod.mk.inj (Option.some.inj done)
    exact collects a

theorem isCollection_value {d : Document} {depth n : Nat} {written : Written} {a : Anchors}
    {root : Node Nat} {v : Value} (h : written.isScalar = false)
    (linked : link .none written = some (root, a))
    (hv : (d.value depth root).run' n = some v) : isCollection v = true := by
  cases written with
  | «alias» name => cases linked
  | scalar p style text => cases h
  | sequence p items =>
    obtain ⟨⟨items, _⟩, -, done⟩ := Option.bind_eq_some_iff.mp linked
    obtain ⟨rfl, -⟩ := Prod.mk.inj (Option.some.inj done)
    cases depth with
    | zero => cases hv
    | succ depth =>
      unfold Document.value at hv
      exact isCollection_walk (f := .list) (fun _ => rfl) hv
  | mapping p entries =>
    obtain ⟨⟨entries, _⟩, -, done⟩ := Option.bind_eq_some_iff.mp linked
    obtain ⟨rfl, -⟩ := Prod.mk.inj (Option.some.inj done)
    cases depth with
    | zero => cases hv
    | succ depth =>
      unfold Document.value at hv
      exact isCollection_walk (f := fun members => .map (Fields.ofPairs members)) (fun _ => rfl) hv

theorem read?_eq_some {s : String} {v : Value} (h : read? s = some v) :
    ∃ tokens document, Token.lex? s.toList = some tokens ∧
      Written.ofTokens? tokens = some document ∧
      (document = none ∧ v = .null ∨ ∃ written root anchors, document = some written ∧
        link .none written = some (root, anchors) ∧
        (Document.value ⟨root, anchors, size written⟩ Document.maxDepth root).run' 0 = some v) := by
  obtain ⟨document, found, h⟩ := Option.bind_eq_some_iff.mp h
  obtain ⟨tokens, lexed, found⟩ := Option.bind_eq_some_iff.mp found
  obtain ⟨written, made, found⟩ := Option.bind_eq_some_iff.mp found
  refine ⟨tokens, written, lexed, made, ?_⟩
  cases written with
  | none =>
    obtain rfl := Option.some.inj found
    exact .inl ⟨rfl, (Option.some.inj h).symm⟩
  | some written =>
    obtain ⟨⟨root, anchors⟩, linked, found⟩ := Option.bind_eq_some_iff.mp found
    obtain rfl := Option.some.inj found
    exact .inr ⟨written, root, anchors, rfl, linked, h⟩

end Runbook.Yaml
