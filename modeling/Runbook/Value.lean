import Runbook.Number.Binary64

set_option autoImplicit false
set_option relaxedAutoImplicit false

/-!
The values that actions, contexts, sessions and JSON bodies are made of. A map keeps the order in
which its keys were first declared; declaring a key again replaces its value in place.
-/

namespace Runbook

open Runbook.Number

/-- A number: an integer of at most 64 bits, signed or unsigned, or a finite binary64 number. -/
inductive Num
  | integer (i : Int) (lower : -9223372036854775808 ≤ i) (upper : i < 18446744073709551616)
  | real (x : Binary64)
  deriving DecidableEq

/-- The integer of a number, if it fits 64 bits. -/
def Num.ofInt? (i : Int) : Option Num :=
  if h : -9223372036854775808 ≤ i ∧ i < 18446744073709551616 then some (.integer i h.1 h.2)
  else none

/-- A value without identity or type tags. -/
inductive Value
  | null
  | bool (b : Bool)
  | num (n : Num)
  | str (s : String)
  | list (items : List Value)
  | map (fields : List (String × Value))

/-- The members of a map, in declaration order. -/
abbrev Fields := List (String × Value)

instance : Inhabited Value := ⟨.null⟩

mutual

/-- Equality of values, decided member by member. -/
def Value.decEq : (v w : Value) → Decidable (v = w)
  | .null, .null => isTrue rfl
  | .bool b, .bool c => decidable_of_iff (b = c) (by simp)
  | .num m, .num n => decidable_of_iff (m = n) (by simp)
  | .str s, .str t => decidable_of_iff (s = t) (by simp)
  | .list xs, .list ys => @decidable_of_iff _ (xs = ys) (by simp) (Value.decEqItems xs ys)
  | .map xs, .map ys => @decidable_of_iff _ (xs = ys) (by simp) (Value.decEqFields xs ys)
  | .null, .bool _ | .null, .num _ | .null, .str _ | .null, .list _ | .null, .map _
  | .bool _, .null | .bool _, .num _ | .bool _, .str _ | .bool _, .list _ | .bool _, .map _
  | .num _, .null | .num _, .bool _ | .num _, .str _ | .num _, .list _ | .num _, .map _
  | .str _, .null | .str _, .bool _ | .str _, .num _ | .str _, .list _ | .str _, .map _
  | .list _, .null | .list _, .bool _ | .list _, .num _ | .list _, .str _ | .list _, .map _
  | .map _, .null | .map _, .bool _ | .map _, .num _ | .map _, .str _ | .map _, .list _ =>
    isFalse (by simp)

def Value.decEqItems : (xs ys : List Value) → Decidable (xs = ys)
  | [], [] => isTrue rfl
  | [], _ :: _ | _ :: _, [] => isFalse (by simp)
  | x :: xs, y :: ys =>
    @decidable_of_iff _ (x = y ∧ xs = ys) (by simp)
      (@instDecidableAnd _ _ (Value.decEq x y) (Value.decEqItems xs ys))

def Value.decEqFields : (xs ys : List (String × Value)) → Decidable (xs = ys)
  | [], [] => isTrue rfl
  | [], _ :: _ | _ :: _, [] => isFalse (by simp)
  | (k, x) :: xs, (l, y) :: ys =>
    @decidable_of_iff _ (k = l ∧ x = y ∧ xs = ys) (by simp [and_assoc])
      (@instDecidableAnd _ _ _
        (@instDecidableAnd _ _ (Value.decEq x y) (Value.decEqFields xs ys)))

end

instance : DecidableEq Value := Value.decEq

namespace Fields

def get? : Fields → String → Option Value
  | [], _ => none
  | (k, v) :: rest, key => if k = key then some v else get? rest key

/-- The fields with a key set: in its place if the key is there, at the end otherwise. -/
def insert : Fields → String → Value → Fields
  | [], key, value => [(key, value)]
  | (k, v) :: rest, key, value =>
    if k = key then (k, value) :: rest else (k, v) :: insert rest key value

/-- The fields with those of a second map set, in the order of the second. -/
def merge (fields others : Fields) : Fields :=
  others.foldl (fun acc p => insert acc p.1 p.2) fields

/-- The map declared by a list of pairs. -/
def ofPairs (pairs : List (String × Value)) : Fields := merge [] pairs

def has (fields : Fields) (key : String) : Bool := (get? fields key).isSome

def keys (fields : Fields) : List String := fields.map (·.1)

theorem get?_insert (fields : Fields) (key name : String) (value : Value) :
    get? (insert fields key value) name =
      if key = name then some value else get? fields name := by
  induction fields with
  | nil => simp [insert, get?]
  | cons p rest ih =>
    obtain ⟨k, v⟩ := p
    by_cases hk : k = key
    · subst hk
      by_cases hn : k = name <;> simp [insert, get?, hn]
    · by_cases hn : k = name
      · subst hn
        have hne : ¬ key = k := fun h => hk h.symm
        simp [insert, get?, hk, hne]
      · simp [insert, get?, hk, hn, ih]

theorem keys_insert (fields : Fields) (key : String) (value : Value) :
    keys (insert fields key value) =
      if key ∈ keys fields then keys fields else keys fields ++ [key] := by
  induction fields with
  | nil => simp [insert, keys]
  | cons p rest ih =>
    obtain ⟨k, v⟩ := p
    by_cases hk : k = key
    · subst hk
      simp [insert, keys]
    · have hne : ¬ key = k := fun h => hk h.symm
      simp only [keys] at ih
      by_cases hm : key ∈ List.map (fun x => x.fst) rest <;>
        simp [insert, hk, keys, ih, hne, hm]

end Fields

namespace Value

/-- The members of a map; any other value has none. -/
def fields : Value → Fields
  | .map fs => fs
  | _ => []

def asMap? : Value → Option Fields
  | .map fs => some fs
  | _ => none

def asText? : Value → Option String
  | .str s => some s
  | _ => none

/-- The value of a natural of at most 64 bits; a longer one has none and is null. -/
def natural (n : Nat) : Value := ((Num.ofInt? n).map Value.num).getD .null

/-- The value of something that may be left out. -/
def optional (v : Option Value) : Value := v.getD .null

def texts (ss : List String) : Value := .list (ss.map .str)

def isNull : Value → Bool
  | .null => true
  | _ => false

mutual

/-- A value in which each key of a map has its first place and its last value. -/
def settle : Value → Value
  | .list items => .list (settleItems items)
  | .map members => .map (Fields.ofPairs (settleMembers members))
  | .null => .null
  | .bool b => .bool b
  | .num n => .num n
  | .str s => .str s

def settleItems : List Value → List Value
  | [] => []
  | v :: vs => settle v :: settleItems vs

def settleMembers : List (String × Value) → List (String × Value)
  | [] => []
  | (k, v) :: rest => (k, settle v) :: settleMembers rest

end

end Value

end Runbook
