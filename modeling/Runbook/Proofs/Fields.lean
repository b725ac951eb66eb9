import Mathlib.Data.List.Induction
import Mathlib.Data.List.Perm.Basic
import Runbook.Value

set_option autoImplicit false
set_option relaxedAutoImplicit false

/-!
Maps under merging. The fields of a second map replace values in their places and bring new keys at
the end, in the order of the second map; and what a key means does not depend on the order of the
fields, if each key is there once.
-/

namespace Runbook.Fields

variable {fields others : Fields} {name : String}

theorem get?_eq_none_iff (fields : Fields) (name : String) :
    get? fields name = none ↔ name ∉ keys fields := by
  induction fields with
  | nil => simp [get?, keys]
  | cons entry rest ih =>
    obtain ⟨key, value⟩ := entry
    simp only [keys, List.map_cons, List.mem_cons, not_or] at ih ⊢
    by_cases h : key = name
    · simp [get?, h]
    · simp [get?, h, ih, Ne.symm h]

theorem isSome_get?_iff (fields : Fields) (name : String) :
    (get? fields name).isSome = true ↔ name ∈ keys fields := by
  rw [← not_iff_not, ← get?_eq_none_iff]
  simp

theorem get?_append (first rest : Fields) (name : String) :
    get? (first ++ rest) name = (get? first name).or (get? rest name) := by
  induction first with
  | nil => rfl
  | cons entry first ih =>
    rw [List.cons_append, get?, get?, ih]
    split_ifs <;> rfl

private theorem merge_concat (fields others : Fields) (entry : String × Value) :
    merge fields (others ++ [entry]) = insert (merge fields others) entry.1 entry.2 := by
  simp [merge]

theorem insert_of_notMem {key : String} {value : Value} (absent : key ∉ keys fields) :
    insert fields key value = fields ++ [(key, value)] := by
  induction fields with
  | nil => rfl
  | cons entry rest ih =>
    have other : ¬ entry.1 = key := fun same => absent (same ▸ List.mem_cons_self)
    have behind : key ∉ keys rest := fun member => absent (List.mem_cons_of_mem _ member)
    rw [insert, if_neg other, ih behind, List.cons_append]

private theorem ofPairs_concat (pairs : Fields) (entry : String × Value) :
    ofPairs (pairs ++ [entry]) = insert (ofPairs pairs) entry.1 entry.2 :=
  merge_concat [] pairs entry

/-- After a merge, a key means what the second map says, and what the first one says if the second
one does not have it. -/
theorem get?_merge (fields others : Fields) (name : String) :
    get? (merge fields others) name = (get? (ofPairs others) name).or (get? fields name) := by
  -- The last field of a key counts, so the second map is taken apart from its end.
  induction others using List.reverseRecOn with
  | nil => simp [ofPairs, merge, get?]
  | append_singleton others entry ih =>
    rw [merge_concat, ofPairs_concat, get?_insert, get?_insert, ih]
    split_ifs <;> rfl

/-- After a merge, the keys of the first map are in their places, and behind them the other keys of
the second one in its order. -/
theorem keys_merge (fields others : Fields) :
    keys (merge fields others) =
      keys fields ++ (keys (ofPairs others)).filter (· ∉ keys fields) := by
  induction others using List.reverseRecOn with
  | nil => simp [ofPairs, merge, keys]
  | append_singleton others entry ih =>
    rw [merge_concat, ofPairs_concat, keys_insert, keys_insert, ih]
    by_cases old : entry.1 ∈ keys fields <;>
      by_cases again : entry.1 ∈ keys (ofPairs others) <;> simp [old, again]

/-- A declared map has each key once. -/
theorem nodup_keys_ofPairs (pairs : Fields) : (keys (ofPairs pairs)).Nodup := by
  induction pairs using List.reverseRecOn with
  | nil => exact List.nodup_nil
  | append_singleton pairs entry ih =>
    rw [ofPairs_concat, keys_insert]
    split_ifs with again
    · exact ih
    · refine List.nodup_append.mpr ⟨ih, by simp, ?_⟩
      rintro key member _ last rfl
      exact again (List.mem_singleton.mp last ▸ member)

/-- A map that has each key once is declared by its own pairs. -/
theorem ofPairs_eq_self {pairs : Fields} (once : (keys pairs).Nodup) : ofPairs pairs = pairs := by
  induction pairs using List.reverseRecOn with
  | nil => rfl
  | append_singleton pairs entry ih =>
    unfold keys at once
    rw [List.map_append] at once
    obtain ⟨before, -, apart⟩ := List.nodup_append.mp once
    have absent : entry.1 ∉ keys pairs := fun member =>
      apart _ member _ (List.mem_singleton_self _) rfl
    rw [ofPairs_concat, ih before, insert_of_notMem absent]

section Values

variable (f : Value → Value)

theorem get?_map (fields : Fields) (name : String) :
    get? (fields.map fun entry => (entry.1, f entry.2)) name = (get? fields name).map f := by
  induction fields with
  | nil => rfl
  | cons entry rest ih =>
    rw [List.map_cons, get?, get?, ih]
    split_ifs <;> rfl

private theorem insert_map (fields : Fields) (key : String) (value : Value) :
    insert (fields.map fun entry => (entry.1, f entry.2)) key (f value) =
      (insert fields key value).map fun entry => (entry.1, f entry.2) := by
  induction fields with
  | nil => rfl
  | cons entry rest ih =>
    rw [List.map_cons, insert, insert, ih]
    split_ifs <;> rfl

/-- To change values by a function does not change which of them the declared map has. -/
theorem ofPairs_map (pairs : Fields) :
    ofPairs (pairs.map fun entry => (entry.1, f entry.2)) =
      (ofPairs pairs).map fun entry => (entry.1, f entry.2) := by
  induction pairs using List.reverseRecOn with
  | nil => rfl
  | append_singleton pairs entry ih =>
    rw [List.map_append, List.map_singleton, ofPairs_concat, ofPairs_concat, ih]
    exact insert_map f _ _ _

end Values

theorem get?_eq_some_iff (once : (keys fields).Nodup) {v : Value} :
    get? fields name = some v ↔ (name, v) ∈ fields := by
  induction fields with
  | nil => simp [get?]
  | cons entry rest ih =>
    obtain ⟨key, value⟩ := entry
    obtain ⟨first, others⟩ := List.nodup_cons.mp once
    have behind : key ∉ keys rest := first
    rw [get?, List.mem_cons, Prod.mk.injEq]
    split_ifs with h
    · subst h
      have absent : (key, v) ∉ rest := fun member => behind (List.mem_map_of_mem member)
      simp [absent, eq_comm]
    · simp [ih others, Ne.symm h]

theorem get?_of_perm (once : (keys fields).Nodup) (perm : fields.Perm others) (name : String) :
    get? others name = get? fields name := by
  have once' : (keys others).Nodup := (perm.map Prod.fst).nodup_iff.mp once
  apply Option.ext
  intro v
  rw [get?_eq_some_iff once', get?_eq_some_iff once, perm.mem_iff]

end Runbook.Fields
