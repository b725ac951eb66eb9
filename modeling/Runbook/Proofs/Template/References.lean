import Runbook.CommandLine.Run
import Runbook.Proofs.Template.Scanning

set_option autoImplicit false
set_option relaxedAutoImplicit false

/-!
What an interpolated value depends on: the values of the references that are listed for it, and
nothing else. Text that a reference brings in is not read again, and a value without references
stays as it is.
-/

namespace Runbook.Template

section Texts

variable {text : List Char} {ps : List Piece} {s s' : Scope}

private theorem mem_pathsOf {text : String} {path : List Char}
    (h : Piece.reference path ∈ pieces text) : String.ofList path ∈ pathsOf text := by
  rw [pathsOf, List.mem_filterMap]
  exact ⟨_, h, rfl⟩

theorem fill_congr {text : String}
    (agree : ∀ path ∈ pathsOf text, s.evaluate path = s'.evaluate path) :
    fill s text = fill s' text := by
  have each : ∀ piece ∈ pieces text, pieceText s piece = pieceText s' piece := by
    intro piece member
    cases piece with
    | literal c => rfl
    | reference path => rw [pieceText, pieceText, agree _ (mem_pathsOf member)]
  unfold fill
  split
  · next path single => exact agree _ (mem_pathsOf (by simp [single]))
  · rw [List.flatMap_congr each]

private theorem Scanned.flatMap_eq_self (h : Scanned text ps)
    (plain : ∀ path, Piece.reference path ∉ ps) (s : Scope) : ps.flatMap (pieceText s) = text := by
  induction h with
  | done => rfl
  | literal _ _ ih =>
    rw [List.flatMap_cons, ih fun path member => plain path (List.mem_cons_of_mem _ member)]
    rfl
  | @reference path => exact absurd List.mem_cons_self (plain path)

theorem fill_eq_self {text : String} (unreferenced : pathsOf text = []) (s : Scope) :
    fill s text = .str text := by
  have plain : ∀ path, Piece.reference path ∉ pieces text := by
    intro path member
    have listed := mem_pathsOf member
    rw [unreferenced] at listed
    cases listed
  have part : ∀ path, Dotted path → text.toList ≠ written path := by
    intro path dotted whole
    have single := (scanned_pieces text).eq_reference_iff.mpr ⟨dotted, whole⟩
    exact plain path (by simp [single])
  rw [fill_of_not_whole part, (scanned_pieces text).flatMap_eq_self plain, String.ofList_toList]

theorem evaluate_empty (path : String) : Scope.empty.evaluate path = .null := by
  simp [Scope.evaluate, Scope.resolve, Scope.empty, Fields.get?]

/-- Over no variables, each reference takes characters away. -/
private theorem Scanned.length_empty (h : Scanned text ps) (here : Nat) :
    (ps.flatMap (pieceText .empty)).length + (placesFrom here ps).length ≤ text.length := by
  induction h generalizing here with
  | done => simp [placesFrom]
  | literal _ _ ih =>
    have rest := ih (here + 1)
    simp only [List.flatMap_cons, pieceText, placesFrom, List.length_append, List.length_cons,
      List.length_nil]
    omega
  | @reference path _ _ _ _ ih =>
    have rest := ih (here + (written path).length)
    rw [length_written] at rest
    simp only [List.flatMap_cons, pieceText, evaluate_empty, textOf, placesFrom,
      List.length_append, List.length_cons, length_written, String.toList_empty, List.length_nil]
    omega

theorem pathsOf_eq_nil {text : String} (fixed : fill .empty text = .str text) :
    pathsOf text = [] := by
  have part : ∀ path, Dotted path → text.toList ≠ written path := by
    intro path dotted whole
    rw [fill_of_whole dotted whole, evaluate_empty] at fixed
    cases fixed
  rw [fill_of_not_whole part, Value.str.injEq] at fixed
  have same := congrArg String.toList fixed
  rw [String.toList_ofList] at same
  have shorter := (scanned_pieces text).length_empty 0
  rw [same] at shorter
  rw [pathsOf_eq_map, List.map_eq_nil_iff]
  exact List.eq_nil_of_length_eq_zero (by omega)

end Texts

section Values

variable {s s' : Scope}

mutual

theorem interpolate_congr {v : Value}
    (agree : ∀ path ∈ paths v, s.evaluate path = s'.evaluate path) :
    interpolate s v = interpolate s' v := by
  match v with
  | .null => rfl
  | .bool b => rfl
  | .num n => rfl
  | .str text => exact fill_congr agree
  | .list items => exact congrArg Value.list (interpolateItems_congr agree)
  | .map fields => exact congrArg Value.map (interpolateMembers_congr agree)

theorem interpolateItems_congr {items : List Value}
    (agree : ∀ path ∈ pathsInItems items, s.evaluate path = s'.evaluate path) :
    interpolateItems s items = interpolateItems s' items := by
  match items with
  | [] => rfl
  | v :: vs =>
    rw [pathsInItems, List.forall_mem_append] at agree
    rw [interpolateItems, interpolateItems, interpolate_congr agree.1,
      interpolateItems_congr agree.2]

theorem interpolateMembers_congr {fields : List (String × Value)}
    (agree : ∀ path ∈ pathsInMembers fields, s.evaluate path = s'.evaluate path) :
    interpolateMembers s fields = interpolateMembers s' fields := by
  match fields with
  | [] => rfl
  | (key, v) :: rest =>
    rw [pathsInMembers, List.forall_mem_append] at agree
    rw [interpolateMembers, interpolateMembers, interpolate_congr agree.1,
      interpolateMembers_congr agree.2]

end

mutual

theorem interpolate_eq_self {v : Value} (unreferenced : paths v = []) (s : Scope) :
    interpolate s v = v := by
  match v with
  | .null => rfl
  | .bool b => rfl
  | .num n => rfl
  | .str text => exact fill_eq_self unreferenced s
  | .list items => exact congrArg Value.list (interpolateItems_eq_self unreferenced s)
  | .map fields => exact congrArg Value.map (interpolateMembers_eq_self unreferenced s)

theorem interpolateItems_eq_self {items : List Value} (unreferenced : pathsInItems items = [])
    (s : Scope) : interpolateItems s items = items := by
  match items with
  | [] => rfl
  | v :: vs =>
    rw [pathsInItems, List.append_eq_nil_iff] at unreferenced
    rw [interpolateItems, interpolate_eq_self unreferenced.1,
      interpolateItems_eq_self unreferenced.2]

theorem interpolateMembers_eq_self {fields : List (String × Value)}
    (unreferenced : pathsInMembers fields = []) (s : Scope) :
    interpolateMembers s fields = fields := by
  match fields with
  | [] => rfl
  | (key, v) :: rest =>
    rw [pathsInMembers, List.append_eq_nil_iff] at unreferenced
    rw [interpolateMembers, interpolate_eq_self unreferenced.1,
      interpolateMembers_eq_self unreferenced.2]

end

mutual

theorem paths_eq_nil {v : Value} (fixed : interpolate .empty v = v) : paths v = [] := by
  match v with
  | .null => rfl
  | .bool b => rfl
  | .num n => rfl
  | .str text => exact pathsOf_eq_nil fixed
  | .list items => exact pathsInItems_eq_nil (Value.list.inj fixed)
  | .map fields => exact pathsInMembers_eq_nil (Value.map.inj fixed)

theorem pathsInItems_eq_nil {items : List Value} (fixed : interpolateItems .empty items = items) :
    pathsInItems items = [] := by
  match items with
  | [] => rfl
  | v :: vs =>
    obtain ⟨first, others⟩ := List.cons.inj fixed
    rw [pathsInItems, paths_eq_nil first, pathsInItems_eq_nil others, List.append_nil]

theorem pathsInMembers_eq_nil {fields : List (String × Value)}
    (fixed : interpolateMembers .empty fields = fields) : pathsInMembers fields = [] := by
  match fields with
  | [] => rfl
  | (key, v) :: rest =>
    obtain ⟨first, others⟩ := List.cons.inj fixed
    rw [pathsInMembers, paths_eq_nil (Prod.mk.inj first).2, pathsInMembers_eq_nil others,
      List.append_nil]

end

theorem mem_references {v : Value} {path : String} : path ∈ references v ↔ path ∈ paths v := by
  rw [references, distinct_eq_eraseDups, List.mem_eraseDups]

theorem references_eq_nil_iff {v : Value} : references v = [] ↔ paths v = [] := by
  simp only [List.eq_nil_iff_forall_not_mem, mem_references]

end Values

/-- The fields of an action in which references are replaced: all but its metadata. -/
def templated (fields : Fields) : Fields := fields.filter fun field => field.1 ∉ metadataKeys

theorem mem_pathsInMembers {fields : Fields} {entry : String × Value} {path : String}
    (member : entry ∈ fields) (h : path ∈ paths entry.2) : path ∈ pathsInMembers fields := by
  induction fields with
  | nil => cases member
  | cons first rest ih =>
    rw [pathsInMembers, List.mem_append]
    rcases List.mem_cons.mp member with rfl | later
    · exact .inl h
    · exact .inr (ih later)

theorem interpolateFields_congr {fields : Fields} {s s' : Scope}
    (agree : ∀ path ∈ pathsInMembers (templated fields), s.evaluate path = s'.evaluate path) :
    interpolateFields s fields = interpolateFields s' fields := by
  refine List.map_congr_left fun entry member => ?_
  obtain ⟨key, v⟩ := entry
  dsimp only
  split_ifs with verbatim
  · rfl
  · have kept : (key, v) ∈ templated fields := List.mem_filter.mpr ⟨member, by simpa using verbatim⟩
    rw [interpolate_congr fun path h => agree path (mem_pathsInMembers kept h)]

/-- What a value and the fields of an action become depends on the values of their references only,
which for fields are those that are reported if they stand for nothing; metadata, keys and their
order stay, and each other field becomes what its value does. A value without references never
changes, and one with references changes over no variables. -/
theorem interpolate_depends_on_references (v : Value) (fields : Fields) :
    (∀ s s' : Scope, (∀ path ∈ references v, s.evaluate path = s'.evaluate path) →
      interpolate s v = interpolate s' v) ∧
    (∀ s s' : Scope,
      (∀ path ∈ references (.map (templated fields)), s.evaluate path = s'.evaluate path) →
      interpolateFields s fields = interpolateFields s' fields) ∧
    (∀ (s : Scope) (path : String), path ∈ CommandLine.unresolved fields s ↔
      path ∈ references (.map (templated fields)) ∧ s.evaluate path = .null) ∧
    (∀ s : Scope, (interpolateFields s fields).keys = fields.keys ∧
      ∀ (n : Nat) (key : String) (value : Value), fields[n]? = some (key, value) →
        (key ∈ ["outputs", "title", "action_name"] →
          (interpolateFields s fields)[n]? = some (key, value)) ∧
        (key ∉ ["outputs", "title", "action_name"] →
          (interpolateFields s fields)[n]? = some (key, interpolate s value))) ∧
    (references v = [] → ∀ s : Scope, interpolate s v = v) ∧
    (references v ≠ [] → interpolate .empty v ≠ v) := by
  simp only [mem_references, ne_eq, references_eq_nil_iff]
  refine ⟨?_, ?_, ?_, ?_, ?_, ?_⟩
  · exact fun s s' agree => interpolate_congr agree
  · exact fun s s' agree => interpolateFields_congr agree
  · intro s path
    rw [CommandLine.unresolved, List.mem_filter, mem_references]
    cases s.evaluate path <;> simp [templated, Value.isNull]
  · intro s
    refine ⟨by simp [interpolateFields, Fields.keys, Function.comp_def], ?_⟩
    intro n key value there
    constructor
    · intro metadata
      have verbatim : key ∈ metadataKeys := metadata
      simp [interpolateFields, there, verbatim]
    · intro other
      have filled : key ∉ metadataKeys := other
      simp [interpolateFields, there, filled]
  · exact fun unreferenced s => interpolate_eq_self unreferenced s
  · exact fun referenced fixed => referenced (paths_eq_nil fixed)

private def addressed : String := "/x/\x7b\x7bid\x7d\x7d"

/-- A variable that no reference names makes no difference; of two fields with the same text, the
title stays and the path is filled in. -/
theorem interpolate_depends_on_references_sample :
    (∀ v w : Value, interpolate (.node [("id", .str "5"), ("other", v)] []) (.str addressed) =
      interpolate (.node [("id", .str "5"), ("other", w)] []) (.str addressed)) ∧
    (interpolateFields (.node [("id", .str "5")] [])
      [("title", .str addressed), ("path", .str addressed)])[0]? = some ("title", .str addressed) ∧
    (interpolateFields (.node [("id", .str "5")] [])
      [("title", .str addressed), ("path", .str addressed)])[1]? = some ("path", .str "/x/5") ∧
    interpolate .empty (.str addressed) ≠ .str addressed := by
  have listed : references (.str addressed) = ["id"] := by decide +kernel
  have value : ∀ v : Value,
      Scope.evaluate (.node [("id", .str "5"), ("other", v)] []) "id" = .str "5" := by
    intro v
    cbv
  have path : interpolate (.node [("id", .str "5")] []) (.str addressed) = .str "/x/5" := by
    decide +kernel
  obtain ⟨depends, -, -, fields, -, changes⟩ := interpolate_depends_on_references (.str addressed)
    [("title", .str addressed), ("path", .str addressed)]
  obtain ⟨-, entries⟩ := fields (.node [("id", .str "5")] [])
  refine ⟨fun v w => depends _ _ ?_, (entries 0 "title" _ rfl).1 (by decide), ?_,
    changes (by simp [listed])⟩
  · intro path member
    rw [listed, List.mem_singleton] at member
    rw [member, value, value]
  · rw [(entries 1 "path" _ rfl).2 (by decide), path]

end Runbook.Template
