import Mathlib.Data.List.Basic
import Mathlib.Tactic.SplitIfs
import Runbook.Proofs.Text.Split
import Runbook.Template

set_option autoImplicit false
set_option relaxedAutoImplicit false

/-!
References in a text. A reference is written as identifiers joined by single dots, between double
braces, and may stand anywhere. Two of them never overlap, so that to read a text from left to right
finds all of them, whatever stands around them.
-/

namespace Runbook.Template

/-- Whether characters are an identifier: ASCII letters, digits and underscores, at least one. -/
def Identifier (cs : List Char) : Prop :=
  cs ≠ [] ∧ ∀ c ∈ cs, c.isAlphanum = true ∨ c = '_'

/-- Whether characters are identifiers joined by single dots. -/
inductive Dotted : List Char → Prop
  | one {cs : List Char} : Identifier cs → Dotted cs
  | more {cs rest : List Char} : Identifier cs → Dotted rest → Dotted (cs ++ '.' :: rest)

/-- A reference as it is written. -/
def written (path : List Char) : List Char := '\x7b' :: '\x7b' :: (path ++ ['\x7d', '\x7d'])

/-- Whether a reference stands at a place of a text. -/
def Occurs (text : List Char) (place : Nat) (path : List Char) : Prop :=
  Dotted path ∧ written path <+: text.drop place

/-- A text from a place on, in which what stands at some later places is replaced and every other
character is kept. -/
def replaced (text : List Char) (form : List Char → List Char) (here : Nat) :
    List (Nat × List Char) → List Char
  | [] => text.drop here
  | (place, path) :: rest =>
    (text.drop here).take (place - here) ++
      (form path ++ replaced text form (place + (written path).length) rest)

section Paths

variable {cs path rest : List Char} {c : Char}

private theorem isIdentChar_iff : isIdentChar c = true ↔ c.isAlphanum = true ∨ c = '_' := by
  simp [isIdentChar]

private theorem isPathChar_of_identifier (h : Identifier cs) (hc : c ∈ cs) :
    isPathChar c = true := by
  simp [isPathChar, isIdentChar_iff.mpr (h.2 c hc)]

private theorem dot_notMem_of_identifier (h : Identifier cs) : '.' ∉ cs := by
  intro dot
  exact absurd (h.2 '.' dot) (by decide)

private theorem dotted_intercalate {first : List Char} {others : List (List Char)}
    (h : ∀ piece ∈ first :: others, Identifier piece) :
    Dotted (['.'].intercalate (first :: others)) := by
  induction others generalizing first with
  | nil => simpa using Dotted.one (h first List.mem_cons_self)
  | cons second others ih =>
    rw [List.intercalate_cons_cons]
    simpa using Dotted.more (h first List.mem_cons_self)
      (ih fun piece member => h piece (List.mem_cons_of_mem first member))

private theorem identifier_of_mem_split (h : Dotted cs) :
    ∀ piece ∈ Text.split '.' cs, Identifier piece := by
  induction h with
  | one h => simpa [Text.split_eq_singleton (dot_notMem_of_identifier h)] using h
  | more h _ ih =>
    intro piece member
    rw [Text.split_append_cut, Text.split_eq_singleton (dot_notMem_of_identifier h)] at member
    rcases List.mem_append.mp member with first | other
    · exact List.mem_singleton.mp first ▸ h
    · exact ih piece other

theorem isPath_iff : isPath cs = true ↔ Dotted cs := by
  have pieces : isPath cs = true ↔ ∀ piece ∈ Text.split '.' cs, Identifier piece := by
    simp [isPath, Identifier, isIdentChar_iff]
  rw [pieces]
  constructor
  · intro h
    rw [← Text.intercalate_split '.' cs]
    exact dotted_intercalate h
  · exact identifier_of_mem_split

theorem Dotted.isPathChar (h : Dotted path) : ∀ c ∈ path, Template.isPathChar c = true := by
  induction h with
  | one h => exact fun c hc => isPathChar_of_identifier h hc
  | more h _ ih =>
    intro c hc
    rcases List.mem_append.mp hc with first | hc
    · exact isPathChar_of_identifier h first
    · rcases List.mem_cons.mp hc with rfl | other
      · decide
      · exact ih c other

end Paths

section Places

variable {text path other rest : List Char} {c : Char} {place : Nat}

@[simp] theorem length_written (path : List Char) : (written path).length = path.length + 4 := by
  simp [written]

theorem written_append (path rest : List Char) :
    written path ++ rest = '\x7b' :: '\x7b' :: (path ++ '\x7d' :: '\x7d' :: rest) := by
  simp [written]

@[simp] theorem occurs_cons_succ : Occurs (c :: text) (place + 1) path ↔ Occurs text place path :=
  Iff.rfl

theorem occurs_zero : Occurs text 0 path ↔ Dotted path ∧ ∃ rest, text = written path ++ rest := by
  simp only [Occurs, List.drop_zero, List.IsPrefix, eq_comm]

/-- The path of a reference ends with the first character that a path cannot have. -/
private theorem takeWhile_path (h : Dotted path) (rest : List Char) :
    (path ++ '\x7d' :: rest).takeWhile isPathChar = path := by
  have brace : isPathChar '\x7d' = false := by decide
  simp [List.takeWhile_append_of_pos h.isPathChar, brace]

private theorem dropWhile_path (h : Dotted path) (rest : List Char) :
    (path ++ '\x7d' :: rest).dropWhile isPathChar = '\x7d' :: rest := by
  have brace : isPathChar '\x7d' = false := by decide
  simp [List.dropWhile_append_of_pos h.isPathChar, brace]

theorem referenceAt?_eq_some : referenceAt? text = some path ↔ Occurs text 0 path := by
  rw [occurs_zero]
  constructor
  · intro h
    unfold referenceAt? at h
    split at h
    · next cs =>
      dsimp only at h
      split at h
      · next after ended =>
        split_ifs at h with valid
        obtain rfl := Option.some.inj h
        have whole := List.takeWhile_append_dropWhile (p := isPathChar) (l := cs)
        rw [ended] at whole
        exact ⟨isPath_iff.mp valid, after, by rw [written_append, whole]⟩
      · cases h
    · cases h
  · rintro ⟨dotted, rest, rfl⟩
    rw [written_append]
    simp [referenceAt?, takeWhile_path dotted, dropWhile_path dotted, isPath_iff.mpr dotted]

theorem referenceAt?_eq_none : referenceAt? text = none ↔ ∀ path, ¬ Occurs text 0 path := by
  simp [Option.eq_none_iff_forall_ne_some, referenceAt?_eq_some]

/-- At most one reference stands at a place. -/
theorem Occurs.unique (h : Occurs text place path) (k : Occurs text place other) :
    path = other := by
  have first : referenceAt? (text.drop place) = some path := referenceAt?_eq_some.mpr h
  have second : referenceAt? (text.drop place) = some other := referenceAt?_eq_some.mpr k
  exact Option.some.inj (first.symm.trans second)

private theorem Occurs.getElem?_add (h : Occurs text place path) {n : Nat}
    (before : n < (written path).length) : text[place + n]? = (written path)[n]? := by
  obtain ⟨-, rest, here⟩ := h
  rw [← List.getElem?_drop, ← here, List.getElem?_append_left before]

/-- After its two opening braces, a reference has no such brace. -/
private theorem getElem?_written_ne (h : Dotted path) {n : Nat} (opened : 2 ≤ n) :
    (written path)[n]? ≠ some '\x7b' := by
  obtain ⟨n, rfl⟩ := Nat.exists_eq_add_of_le' opened
  intro brace
  have member : '\x7b' ∈ path ++ ['\x7d', '\x7d'] :=
    List.mem_of_getElem? (i := n) (by simpa [written] using brace)
  rcases List.mem_append.mp member with inside | closing
  · exact absurd (h.isPathChar _ inside) (by decide)
  · exact absurd closing (by decide)

/-- No reference begins inside another one. -/
theorem Occurs.not_inside (h : Occurs text place path) {n : Nat} (after : 0 < n)
    (before : n < (written path).length) : ¬ Occurs text (place + n) other := by
  intro k
  have first : text[place + n]? = some '\x7b' := k.getElem?_add (n := 0) (by simp)
  have second : text[place + (n + 1)]? = some '\x7b' := k.getElem?_add (n := 1) (by simp)
  -- One of the two braces that would open it stands behind those that open the other one.
  by_cases next : n = 1
  · subst next
    rw [h.getElem?_add (by simp)] at second
    exact getElem?_written_ne h.1 (by omega) second
  · rw [h.getElem?_add before] at first
    exact getElem?_written_ne h.1 (by omega) first

/-- Two references in a text are the same or lie apart. -/
theorem Occurs.disjoint {i j : Nat} (h : Occurs text i path) (k : Occurs text j other) :
    i = j ∧ path = other ∨ i + (written path).length ≤ j ∨ j + (written other).length ≤ i := by
  rcases Nat.lt_trichotomy i j with before | rfl | after
  · right; left
    by_contra inside
    obtain ⟨n, rfl⟩ := Nat.exists_eq_add_of_lt before
    exact h.not_inside (Nat.succ_pos n) (by omega) k
  · exact .inl ⟨rfl, h.unique k⟩
  · right; right
    by_contra inside
    obtain ⟨n, rfl⟩ := Nat.exists_eq_add_of_lt after
    exact k.not_inside (Nat.succ_pos n) (by omega) h

end Places

/-- How a text is read from left to right: a reference where one stands, and otherwise the
character that is there. -/
inductive Scanned : List Char → List Piece → Prop
  | done : Scanned [] []
  | literal {c : Char} {text : List Char} {pieces : List Piece} :
      (∀ path, ¬ Occurs (c :: text) 0 path) → Scanned text pieces →
      Scanned (c :: text) (.literal c :: pieces)
  | reference {path rest : List Char} {pieces : List Piece} :
      Dotted path → Scanned rest pieces →
      Scanned (written path ++ rest) (.reference path :: pieces)

private theorem scanned_piecesAfter (skip : Nat) (cs : List Char) :
    Scanned (cs.drop skip) (piecesAfter skip cs) := by
  induction cs generalizing skip with
  | nil => simpa [piecesAfter] using Scanned.done
  | cons c cs ih =>
    cases skip with
    | succ skip => exact ih skip
    | zero =>
      rw [List.drop_zero, piecesAfter]
      split
      · next path found =>
        obtain ⟨dotted, rest, whole⟩ := occurs_zero.mp (referenceAt?_eq_some.mp found)
        have behind : cs.drop (path.length + 3) = rest := by
          have same := congrArg (List.drop (path.length + 4)) whole
          rwa [List.drop_left' (length_written path), List.drop_succ_cons] at same
        rw [whole]
        exact .reference dotted (behind ▸ ih _)
      · next missing => exact .literal (referenceAt?_eq_none.mp missing) (ih 0)

theorem scanned_pieces (text : String) : Scanned text.toList (pieces text) :=
  scanned_piecesAfter 0 text.toList

/-- The references among pieces and their places, if the first piece is at a given place. -/
def placesFrom : Nat → List Piece → List (Nat × List Char)
  | _, [] => []
  | here, .literal _ :: rest => placesFrom (here + 1) rest
  | here, .reference path :: rest =>
    (here, path) :: placesFrom (here + (written path).length) rest

section Reading

variable {text path : List Char} {ps : List Piece} {here place : Nat}

theorem le_of_mem_placesFrom {entry : Nat × List Char} (h : entry ∈ placesFrom here ps) :
    here ≤ entry.1 := by
  induction ps generalizing here with
  | nil => cases h
  | cons piece ps ih =>
    cases piece with
    | literal c => exact Nat.le_of_succ_le (ih h)
    | reference path =>
      rcases List.mem_cons.mp h with rfl | later
      · exact Nat.le_refl _
      · exact Nat.le_trans (Nat.le_add_right ..) (ih later)

private theorem occurs_append_iff {first rest : List Char} (dotted : Dotted first) :
    Occurs (written first ++ rest) place path ↔
      place = 0 ∧ path = first ∨
        ∃ n, place = (written first).length + n ∧ Occurs rest n path := by
  have opens : Occurs (written first ++ rest) 0 first := occurs_zero.mpr ⟨dotted, rest, rfl⟩
  have behind : ∀ n, Occurs (written first ++ rest) ((written first).length + n) path ↔
      Occurs rest n path := by
    intro n
    unfold Occurs
    rw [List.drop_length_add_append]
  constructor
  · intro h
    rcases opens.disjoint h with ⟨rfl, same⟩ | apart | before
    · exact .inl ⟨rfl, same.symm⟩
    · obtain ⟨n, rfl⟩ := Nat.exists_eq_add_of_le apart
      rw [Nat.zero_add] at h ⊢
      exact .inr ⟨n, rfl, (behind n).mp h⟩
    · simp at before
  · rintro (⟨rfl, rfl⟩ | ⟨n, rfl, h⟩)
    · exact opens
    · exact (behind n).mpr h

/-- To read a text finds every reference in it, and nothing else. -/
theorem Scanned.mem_placesFrom (h : Scanned text ps) (here place : Nat) (path : List Char) :
    (here + place, path) ∈ placesFrom here ps ↔ Occurs text place path := by
  induction h generalizing here place with
  | done => simp [placesFrom, Occurs, written]
  | @literal c text ps absent _ ih =>
    rw [placesFrom]
    cases place with
    | zero =>
      refine iff_of_false (fun member => ?_) (absent path)
      exact absurd (le_of_mem_placesFrom member) (by simp)
    | succ place =>
      rw [occurs_cons_succ, ← ih (here + 1) place, Nat.add_right_comm, Nat.add_assoc]
  | @reference first rest ps dotted _ ih =>
    rw [occurs_append_iff dotted, placesFrom, List.mem_cons, Prod.mk.injEq]
    refine or_congr (by simp) ⟨fun member => ?_, ?_⟩
    · have behind := le_of_mem_placesFrom member
      obtain ⟨n, rfl⟩ := Nat.exists_eq_add_of_le (Nat.le_of_add_le_add_left behind)
      rw [← Nat.add_assoc] at member
      exact ⟨n, rfl, (ih _ n).mp member⟩
    · rintro ⟨n, rfl, occurs⟩
      rw [← Nat.add_assoc]
      exact (ih _ n).mpr occurs

theorem pairwise_placesFrom (here : Nat) (ps : List Piece) :
    (placesFrom here ps).Pairwise fun a b => a.1 + (written a.2).length ≤ b.1 := by
  induction ps generalizing here with
  | nil => exact .nil
  | cons piece ps ih =>
    cases piece with
    | literal c => exact ih (here + 1)
    | reference path => exact .cons (fun entry later => le_of_mem_placesFrom later) (ih _)

private theorem replaced_of_lt (form : List Char → List Char) {c : Char} {rest : List Char}
    {found : List (Nat × List Char)} (char : text.drop here = c :: rest)
    (later : ∀ entry ∈ found, here < entry.1) :
    replaced text form here found = c :: replaced text form (here + 1) found := by
  have behind : text.drop (here + 1) = rest := by
    rw [← List.drop_drop, char, List.drop_succ_cons, List.drop_zero]
  cases found with
  | nil => simp [replaced, char, behind]
  | cons entry found =>
    have after : here < entry.1 := later entry List.mem_cons_self
    obtain ⟨n, place⟩ := Nat.exists_eq_add_of_lt after
    have before : entry.1 - here = entry.1 - (here + 1) + 1 := by omega
    simp [replaced, char, behind, before]

/-- What the pieces of a text are put together to is the text with its references replaced. -/
theorem Scanned.replaced_eq (h : Scanned (text.drop here) ps) (s : Scope) :
    replaced text (fun path => pieceText s (.reference path)) here (placesFrom here ps) =
      ps.flatMap (pieceText s) := by
  generalize cut : text.drop here = rest at h
  induction h generalizing here with
  | done => simp [placesFrom, replaced, cut]
  | @literal c rest ps _ _ ih =>
    have behind : text.drop (here + 1) = rest := by
      rw [← List.drop_drop, cut, List.drop_succ_cons, List.drop_zero]
    rw [placesFrom, replaced_of_lt _ cut (fun entry => le_of_mem_placesFrom), ih behind]
    rfl
  | @reference path rest ps _ _ ih =>
    have behind : text.drop (here + (written path).length) = rest := by
      rw [← List.drop_drop, cut, List.drop_left]
    rw [placesFrom, replaced, ih behind]
    simp [pieceText]

/-- The pieces are one reference if and only if the text is that reference and nothing else. -/
theorem Scanned.eq_reference_iff (h : Scanned text ps) :
    ps = [.reference path] ↔ Dotted path ∧ text = written path := by
  constructor
  · rintro rfl
    cases h with
    | reference dotted rest =>
      cases rest
      exact ⟨dotted, List.append_nil _⟩
  · rintro ⟨dotted, rfl⟩
    have whole : Occurs (written path) 0 path := occurs_zero.mpr ⟨dotted, [], by simp⟩
    generalize cut : written path = text at h whole
    cases h with
    | done => cases cut
    | literal absent _ => exact absurd whole (absent path)
    | @reference first rest ps opened behind =>
      obtain rfl := whole.unique (occurs_zero.mpr ⟨opened, rest, rfl⟩)
      obtain rfl : rest = [] := by simpa using cut
      cases behind
      rfl

end Reading

theorem fill_of_whole {text : String} {path : List Char} (dotted : Dotted path)
    (whole : text.toList = written path) (s : Scope) :
    fill s text = s.evaluate (String.ofList path) := by
  have single := (scanned_pieces text).eq_reference_iff.mpr ⟨dotted, whole⟩
  rw [fill, single]

theorem fill_of_not_whole {text : String}
    (part : ∀ path, Dotted path → text.toList ≠ written path) (s : Scope) :
    fill s text = .str (String.ofList ((pieces text).flatMap (pieceText s))) := by
  unfold fill
  split
  · next path single =>
    obtain ⟨dotted, whole⟩ := (scanned_pieces text).eq_reference_iff.mp single
    exact absurd whole (part path dotted)
  · rfl

theorem pathsOf_eq_map (text : String) :
    pathsOf text = (placesFrom 0 (pieces text)).map fun entry => String.ofList entry.2 := by
  unfold pathsOf
  generalize 0 = here
  induction pieces text generalizing here with
  | nil => rfl
  | cons piece ps ih => cases piece <;> simp [placesFrom, ← ih]

theorem distinct_eq_eraseDups (names : List String) : distinct names = names.eraseDups := by
  have behind : ∀ acc : List String,
      names.foldl (fun acc n => if n ∈ acc then acc else acc ++ [n]) acc =
        acc ++ (names.filter (· ∉ acc)).eraseDups := by
    induction names with
    | nil => simp
    | cons name names ih =>
      intro acc
      by_cases old : name ∈ acc
      · simp [old, ih]
      · have rest : names.filter (· ∉ acc ++ [name]) =
            (names.filter (· ∉ acc)).filter fun other => !other == name := by
          rw [List.filter_filter]
          refine List.filter_congr fun other _ => ?_
          rw [Bool.eq_iff_iff]
          simp [and_comm]
        rw [List.foldl_cons, if_neg old, ih, rest, List.filter_cons_of_pos (by simpa using old),
          List.eraseDups_cons, List.append_assoc, List.singleton_append]
  rw [distinct, behind []]
  simp

theorem textOf_of_ne {v : Value} (something : v ≠ .null) (untyped : ∀ text, v ≠ .str text) :
    textOf v = Json.print v := by
  cases v with
  | null => exact absurd rfl something
  | str text => exact absurd rfl (untyped text)
  | bool => rfl
  | num => rfl
  | list => rfl
  | map => rfl

/-- References never overlap, and all of them are found in their order: a text that is a reference
and nothing else becomes the value referred to, and any other text has each of its references
replaced by the text of the value and every other character kept. -/
theorem interpolate_text (text : String) :
    (∀ i j path other, Occurs text.toList i path → Occurs text.toList j other →
      i = j ∧ path = other ∨ i + (written path).length ≤ j ∨ j + (written other).length ≤ i) ∧
    (∃ found : List (Nat × List Char),
      (∀ place path, (place, path) ∈ found ↔ Occurs text.toList place path) ∧
      (found.Pairwise fun a b => a.1 + (written a.2).length ≤ b.1) ∧
      references (.str text) = (found.map fun entry => String.ofList entry.2).eraseDups ∧
      ∀ s : Scope,
        (∀ path, Dotted path → text.toList = written path →
          interpolate s (.str text) = s.evaluate (String.ofList path)) ∧
        ((∀ path, Dotted path → text.toList ≠ written path) →
          interpolate s (.str text) = .str (String.ofList (replaced text.toList
            (fun path => (textOf (s.evaluate (String.ofList path))).toList) 0 found)))) ∧
    textOf .null = "" ∧ (∀ own, textOf (.str own) = own) ∧
    ∀ v, v ≠ .null → (∀ own, v ≠ .str own) → textOf v = Json.print v := by
  have scanned := scanned_pieces text
  refine ⟨fun i j path other h k => h.disjoint k, ⟨placesFrom 0 (pieces text), ?_, ?_, ?_, ?_⟩,
    rfl, fun _ => rfl, fun v => textOf_of_ne⟩
  · intro place path
    simpa using scanned.mem_placesFrom 0 place path
  · exact pairwise_placesFrom 0 (pieces text)
  · rw [references, distinct_eq_eraseDups, paths, pathsOf_eq_map]
  · intro s
    refine ⟨fun path dotted whole => ?_, fun part => ?_⟩
    · rw [interpolate, fill_of_whole dotted whole]
    · have whole : Scanned (text.toList.drop 0) (pieces text) := scanned
      rw [interpolate, fill_of_not_whole part, ← whole.replaced_eq s]
      rfl

private def nested : String := "\x7b\x7ba.b\x7d\x7d"

private theorem dotted_nested : Dotted "a.b".toList := by
  have letter : ∀ c : Char, c.isAlphanum = true → Identifier [c] := by
    intro c h
    exact ⟨List.cons_ne_nil c [], List.forall_mem_singleton.mpr (.inl h)⟩
  exact .more (letter 'a' rfl) (.one (letter 'b' rfl))

/-- A text that is a reference becomes the value referred to, and the reference is the only one that
begins there. -/
theorem interpolate_text_sample :
    (∀ s : Scope, interpolate s (.str nested) = s.evaluate "a.b") ∧
    (∀ path, Occurs nested.toList 0 path → path = "a.b".toList) ∧
    textOf (.bool true) = Json.print (.bool true) := by
  have whole : nested.toList = written "a.b".toList := by decide
  have here : Occurs nested.toList 0 "a.b".toList := ⟨dotted_nested, by simp [whole]⟩
  obtain ⟨disjoint, ⟨found, -, -, -, replaces⟩, -, -, printed⟩ := interpolate_text nested
  refine ⟨fun s => (replaces s).1 _ dotted_nested whole, ?_, printed _ nofun nofun⟩
  intro path other
  rcases disjoint 0 0 path _ other here with ⟨-, same⟩ | before | behind
  · exact same
  · rw [length_written] at before
    omega
  · rw [length_written] at behind
    omega

end Runbook.Template
