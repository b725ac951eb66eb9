import Runbook.Json.Reader
import Runbook.Proofs.Fields
import Runbook.Proofs.Json.Lexing
import Runbook.Proofs.Text.Utf8

set_option autoImplicit false
set_option relaxedAutoImplicit false

/-!
Printed values are read back. A value without floating-point numbers, in which no map declares a key
twice, comes back from its compact text as it was, with its members in their order, if it has no
more lists and maps inside one another than may be read; and if it has more, it is not read at all.
-/

namespace Runbook

namespace Value

mutual

/-- The most lists and maps of a value that lie inside one another. -/
def depth : Value → Nat
  | .list items => depthOfItems items + 1
  | .map members => depthOfMembers members + 1
  | .null => 0
  | .bool _ => 0
  | .num _ => 0
  | .str _ => 0

def depthOfItems : List Value → Nat
  | [] => 0
  | v :: vs => max (depth v) (depthOfItems vs)

def depthOfMembers : List (String × Value) → Nat
  | [] => 0
  | (_, v) :: rest => max (depth v) (depthOfMembers rest)

end

mutual

/-- Whether no map in a value declares a key twice. -/
def isDistinct : Value → Bool
  | .list items => areDistinct items
  | .map members => decide (Fields.keys members).Nodup && areDistinctIn members
  | .null => true
  | .bool _ => true
  | .num _ => true
  | .str _ => true

def areDistinct : List Value → Bool
  | [] => true
  | v :: vs => isDistinct v && areDistinct vs

def areDistinctIn : List (String × Value) → Bool
  | [] => true
  | (_, v) :: rest => isDistinct v && areDistinctIn rest

end

mutual

/-- A value without repeated keys is settled. -/
theorem settle_eq_self : ∀ v : Value, v.isDistinct = true → v.settle = v
  | .null, _ => rfl
  | .bool _, _ => rfl
  | .num _, _ => rfl
  | .str _, _ => rfl
  | .list items, distinct => by rw [settle, settleItems_eq_self items distinct]
  | .map members, distinct => by
    obtain ⟨once, inside⟩ := Bool.and_eq_true_iff.mp distinct
    rw [settle, settleMembers_eq_self members inside,
      Fields.ofPairs_eq_self (of_decide_eq_true once)]

theorem settleItems_eq_self : ∀ vs : List Value, areDistinct vs = true → settleItems vs = vs
  | [], _ => rfl
  | v :: vs, distinct => by
    obtain ⟨first, others⟩ := Bool.and_eq_true_iff.mp distinct
    rw [settleItems, settle_eq_self v first, settleItems_eq_self vs others]

theorem settleMembers_eq_self : ∀ members : List (String × Value), areDistinctIn members = true →
    settleMembers members = members
  | [], _ => rfl
  | (k, v) :: members, distinct => by
    obtain ⟨first, others⟩ := Bool.and_eq_true_iff.mp distinct
    rw [settleMembers, settle_eq_self v first, settleMembers_eq_self members others]

end

end Value

namespace Json

private theorem run_openList (frames : List Frame) (orEnd : Bool) (ts : List Token) :
    Reading.run ⟨frames, .value orEnd⟩ (.openList :: ts) =
      if frames.length < maxDepth then Reading.run ⟨.list [] :: frames, .value true⟩ ts
      else none := by
  have step : Reading.step ⟨frames, .value orEnd⟩ .openList =
      if frames.length < maxDepth then some ⟨.list [] :: frames, .value true⟩ else none := rfl
  rw [Reading.run, step]
  split_ifs <;> rfl

private theorem run_openMap (frames : List Frame) (orEnd : Bool) (ts : List Token) :
    Reading.run ⟨frames, .value orEnd⟩ (.openMap :: ts) =
      if frames.length < maxDepth then Reading.run ⟨frames, .member [] true⟩ ts else none := by
  have step : Reading.step ⟨frames, .value orEnd⟩ .openMap =
      if frames.length < maxDepth then some ⟨frames, .member [] true⟩ else none := rfl
  rw [Reading.run, step]
  split_ifs <;> rfl

private theorem run_member (frames : List Frame) (members : List (String × Value)) (orEnd : Bool)
    (key : String) (ts : List Token) :
    Reading.run ⟨frames, .member members orEnd⟩ (.text key :: .colon :: ts) =
      Reading.run ⟨.map members key :: frames, .value false⟩ ts :=
  rfl

mutual

/-- The tokens of a value are read as the value inside so many frames, if the lists and maps in it
are not too many with the frames, and are refused if they are. -/
theorem run_tokens : ∀ (v : Value) (frames : List Frame) (orEnd : Bool) (ts : List Token),
    frames.length ≤ maxDepth →
    Reading.run ⟨frames, .value orEnd⟩ (tokens v ++ ts) =
      if frames.length + v.depth ≤ maxDepth then Reading.run ⟨frames, .separator v⟩ ts else none
  | .null, frames, orEnd, ts, within => (if_pos within).symm
  | .bool b, frames, orEnd, ts, within => (if_pos within).symm
  | .num n, frames, orEnd, ts, within => (if_pos within).symm
  | .str s, frames, orEnd, ts, within => (if_pos within).symm
  | .list [], frames, orEnd, ts, within => run_openList frames orEnd (.closeList :: ts)
  | .map [], frames, orEnd, ts, within => run_openMap frames orEnd (.closeMap :: ts)
  | .list (v :: vs), frames, orEnd, ts, within => by
    have shape : tokens (.list (v :: vs)) ++ ts =
        .openList :: (tokens v ++ (itemTokens vs ++ ts)) := by
      simp [tokens]
    have levels : (Value.list (v :: vs)).depth = max v.depth (Value.depthOfItems vs) + 1 := rfl
    rw [shape, run_openList, levels]
    -- The list is one frame more around its items, as it is one level more of the value.
    by_cases room : frames.length < maxDepth
    · rw [if_pos room, run_tokens v (.list [] :: frames) _ _ room,
        run_itemTokens vs [] frames v ts room, List.length_cons]
      split_ifs <;> first | rfl | omega
    · rw [if_neg room, if_neg (by omega)]
  | .map ((k, v) :: members), frames, orEnd, ts, within => by
    have shape : tokens (.map ((k, v) :: members)) ++ ts =
        .openMap :: .text k :: .colon :: (tokens v ++ (memberTokens members ++ ts)) := by
      simp [tokens]
    have levels : (Value.map ((k, v) :: members)).depth =
        max v.depth (Value.depthOfMembers members) + 1 :=
      rfl
    rw [shape, run_openMap, levels]
    by_cases room : frames.length < maxDepth
    · rw [if_pos room, run_member, run_tokens v (.map [] k :: frames) _ _ room,
        run_memberTokens members [] k frames v ts room, List.length_cons]
      split_ifs <;> first | rfl | omega
    · rw [if_neg room, if_neg (by omega)]

theorem run_itemTokens : ∀ (vs before : List Value) (frames : List Frame) (v : Value)
    (ts : List Token), frames.length < maxDepth →
    Reading.run ⟨.list before :: frames, .separator v⟩ (itemTokens vs ++ ts) =
      if frames.length + 1 + Value.depthOfItems vs ≤ maxDepth then
        Reading.run ⟨frames, .separator (.list (before.reverse ++ v :: vs))⟩ ts
      else none
  | [], before, frames, v, ts, room => by
    have closed : Reading.run ⟨.list before :: frames, .separator v⟩ (itemTokens [] ++ ts) =
        Reading.run ⟨frames, .separator (.list (v :: before).reverse)⟩ ts :=
      rfl
    rw [closed, List.reverse_cons]
    exact (if_pos room).symm
  | next :: vs, before, frames, v, ts, room => by
    have shape : itemTokens (next :: vs) ++ ts =
        .comma :: (tokens next ++ (itemTokens vs ++ ts)) := by
      simp [itemTokens]
    have continued : ∀ rest : List Token,
        Reading.run ⟨.list before :: frames, .separator v⟩ (.comma :: rest) =
          Reading.run ⟨.list (v :: before) :: frames, .value false⟩ rest :=
      fun _ => rfl
    have levels : Value.depthOfItems (next :: vs) = max next.depth (Value.depthOfItems vs) := rfl
    rw [shape, continued, run_tokens next (.list (v :: before) :: frames) _ _ room,
      run_itemTokens vs (v :: before) frames next ts room, levels, List.length_cons,
      List.reverse_cons, List.append_assoc, List.singleton_append]
    split_ifs <;> first | rfl | omega

theorem run_memberTokens : ∀ (members before : List (String × Value)) (key : String)
    (frames : List Frame) (v : Value) (ts : List Token), frames.length < maxDepth →
    Reading.run ⟨.map before key :: frames, .separator v⟩ (memberTokens members ++ ts) =
      if frames.length + 1 + Value.depthOfMembers members ≤ maxDepth then
        Reading.run ⟨frames, .separator (.map (before.reverse ++ (key, v) :: members))⟩ ts
      else none
  | [], before, key, frames, v, ts, room => by
    have closed : Reading.run ⟨.map before key :: frames, .separator v⟩ (memberTokens [] ++ ts) =
        Reading.run ⟨frames, .separator (.map ((key, v) :: before).reverse)⟩ ts :=
      rfl
    rw [closed, List.reverse_cons]
    exact (if_pos room).symm
  | (k, next) :: members, before, key, frames, v, ts, room => by
    have shape : memberTokens ((k, next) :: members) ++ ts =
        .comma :: .text k :: .colon :: (tokens next ++ (memberTokens members ++ ts)) := by
      simp [memberTokens]
    have continued : ∀ rest : List Token,
        Reading.run ⟨.map before key :: frames, .separator v⟩ (.comma :: rest) =
          Reading.run ⟨frames, .member ((key, v) :: before) false⟩ rest :=
      fun _ => rfl
    have levels : Value.depthOfMembers ((k, next) :: members) =
        max next.depth (Value.depthOfMembers members) :=
      rfl
    rw [shape, continued, run_member,
      run_tokens next (.map ((key, v) :: before) k :: frames) _ _ room,
      run_memberTokens members ((key, v) :: before) k frames next ts room, levels,
      List.length_cons, List.reverse_cons, List.append_assoc, List.singleton_append]
    split_ifs <;> first | rfl | omega

end

variable {v : Value}

/-- A value is read from its compact text with every declaration of a key, if it is not nested too
deeply, and not at all if it is. -/
theorem readDeclared?_print (integers : v.isExact = true) :
    readDeclared? (print v) = if v.depth ≤ maxDepth then some v else none := by
  have read := run_tokens v [] false [] (Nat.zero_le _)
  rw [List.append_nil, List.length_nil, Nat.zero_add] at read
  unfold readDeclared? print
  rw [String.toList_ofList, lex?_compact integers, Option.bind_some, ofTokens?, read]
  split_ifs <;> rfl

/-- A value that repeats no key comes back from its compact text, if it is not nested too deeply. -/
theorem readBytes?_printBytes (integers : v.isExact = true) (distinct : v.isDistinct = true) :
    readBytes? (printBytes v) = if v.depth ≤ maxDepth then some v else none := by
  unfold readBytes? printBytes read?
  rw [Text.decode?_encode, Option.bind_some, readDeclared?_print integers]
  split_ifs
  · rw [Option.map_some, Value.settle_eq_self v distinct]
  · rfl

end Json

end Runbook
