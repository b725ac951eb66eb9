import Mathlib.Data.List.Basic
import Mathlib.Tactic.SplitIfs
import Runbook.Files.Tree

set_option autoImplicit false
set_option relaxedAutoImplicit false

/-!
Trees seen from their locations. Something new is put into a tree in a directory that is there:
either a directory where nothing stood, or a file where there was no directory. A tree grows into
another one by any number of such steps; what stood in it stands, but for the files written.
-/

namespace Runbook.Files

open Runbook.Text (Bytes)

/-- What a location may hold. -/
inductive Standing
  | nothing
  | directory
  | file (content : Bytes)
  deriving DecidableEq

/-- What a node is, without what is below it. -/
def Node.standing : Node → Standing
  | .file content => .file content
  | .directory _ => .directory

/-- The names of the directories among entries, in their order. -/
def Node.directoryNames (es : List (String × Node)) : List String :=
  (es.filter (!·.2.isFile)).map (·.1)

namespace Tree

/-- What a location of a tree holds. -/
def standing (t : Tree) (l : Location) : Standing :=
  match t.at? l with
  | none => .nothing
  | some node => node.standing

/-- The content of the file at a location. -/
def contentAt? (t : Tree) (l : Location) : Option Bytes :=
  match t.standing l with
  | .file content => some content
  | _ => none

/-- The names of the directories in the directory at a location. -/
def directoriesAt (t : Tree) (l : Location) : List String :=
  Node.directoryNames (((t.at? l).map Node.entries).getD [])

/-- A tree grows into another one by directories put at some locations where nothing stood and by
files put at some locations that no directory held, each in a directory that was there. -/
inductive Grown (directories files : Location → Prop) (t : Tree) : Tree → Prop
  | refl : Grown directories files t t
  | directory {u : Tree} {here : Location} {name : String} :
      Grown directories files t u → u.standing here = .directory →
      u.standing (here ++ [name]) = .nothing → directories (here ++ [name]) →
      Grown directories files t (u.put (here ++ [name]) (.directory []))
  | file {u : Tree} {here : Location} {name : String} (content : Bytes) :
      Grown directories files t u → u.standing here = .directory →
      u.standing (here ++ [name]) ≠ .directory → files (here ++ [name]) →
      Grown directories files t (u.put (here ++ [name]) (.file content))

theorem at?_append (t : Tree) (l rest : Location) :
    t.at? (l ++ rest) = (t.at? l).bind (·.at? rest) := by
  induction l generalizing t with
  | nil => simp [Node.at?]
  | cons name l ih =>
    rw [List.cons_append, Node.at?, Node.at?]
    cases Node.child? t.entries name with
    | none => rfl
    | some node => exact ih node

theorem standing_eq_directory {t : Tree} {l : Location} :
    t.standing l = .directory ↔ ∃ es, t.at? l = some (.directory es) := by
  unfold standing
  cases h : t.at? l with
  | none => simp
  | some node => cases node <;> simp [Node.standing]

theorem standing_eq_nothing {t : Tree} {l : Location} :
    t.standing l = .nothing ↔ t.at? l = none := by
  unfold standing
  cases h : t.at? l with
  | none => simp
  | some node => cases node <;> simp [Node.standing]

theorem standing_eq_file {t : Tree} {l : Location} {content : Bytes} :
    t.standing l = .file content ↔ t.at? l = some (.file content) := by
  unfold standing
  cases h : t.at? l with
  | none => simp
  | some node => cases node <;> simp [Node.standing]

/-- Below a location that holds no directory there is nothing. -/
theorem standing_below {t : Tree} {l : Location} (h : t.standing l ≠ .directory) (name : String)
    (rest : Location) : t.standing (l ++ name :: rest) = .nothing := by
  rw [standing_eq_nothing, at?_append]
  cases hl : t.at? l with
  | none => rfl
  | some node =>
    cases node with
    | file content => rfl
    | directory es => exact absurd (standing_eq_directory.mpr ⟨es, hl⟩) h

/-- All locations above one that holds something hold directories. -/
theorem standing_above {t : Tree} {l rest : Location} (h : t.standing (l ++ rest) ≠ .nothing)
    (proper : rest ≠ []) : t.standing l = .directory := by
  obtain ⟨name, rest, rfl⟩ := List.exists_cons_of_ne_nil proper
  by_contra missing
  exact h (standing_below missing name rest)

theorem directory_above {t : Tree} {l rest : Location} (h : t.standing (l ++ rest) = .directory) :
    t.standing l = .directory := by
  cases rest with
  | nil => simpa using h
  | cons name rest => exact standing_above (by simp [h]) (List.cons_ne_nil name rest)

private theorem at?_cons_of_directory {es : List (String × Node)} (name : String) (l : Location) :
    Node.at? (.directory es) (name :: l) = (Node.child? es name).bind (·.at? l) := by
  rw [Node.at?, Node.entries]

/-- A location that is led to by a step from a directory. -/
private theorem exists_child {t : Tree} {name : String} {here : Location}
    (h : t.standing (name :: here) = .directory) :
    ∃ es node, t = .directory es ∧ Node.child? es name = some node ∧
      standing node here = .directory := by
  obtain ⟨below, h⟩ := standing_eq_directory.mp h
  cases t with
  | file content => simp [Node.at?, Node.entries, Node.child?] at h
  | directory es =>
    rw [at?_cons_of_directory] at h
    obtain ⟨node, hnode, h⟩ := Option.bind_eq_some_iff.mp h
    exact ⟨es, node, rfl, hnode, standing_eq_directory.mpr ⟨below, h⟩⟩

private theorem put_cons {es : List (String × Node)} {name : String} {child node : Node}
    {l : Location} (h : Node.child? es name = some child) :
    Node.put (.directory es) (name :: l) node =
      .directory (Node.setChild es name (Node.put child l node)) := by
  rw [Node.put, h, Option.getD_some]

private theorem standing_cons (es : List (String × Node)) (name : String) (l : Location) :
    standing (.directory es) (name :: l) =
      match Node.child? es name with
      | none => .nothing
      | some node => standing node l := by
  unfold standing
  rw [at?_cons_of_directory]
  cases Node.child? es name <;> rfl

private theorem standing_of_bare {node : Node} (bare : node.entries = []) (name : String)
    (rest : Location) : standing node (name :: rest) = .nothing := by
  rw [standing_eq_nothing, Node.at?, bare]
  rfl

private theorem directoriesAt_of_bare {node : Node} (bare : node.entries = []) (l : Location) :
    directoriesAt node l = [] := by
  cases l with
  | nil =>
    rw [directoriesAt, Node.at?, Option.map_some, bare]
    rfl
  | cons name rest =>
    rw [directoriesAt, Node.at?, bare]
    rfl

/-- What is put somewhere is all that changes. -/
theorem standing_put {t : Tree} {here : Location} {name : String} {node : Node}
    (inside : t.standing here = .directory) (free : t.standing (here ++ [name]) ≠ .directory)
    (bare : node.entries = []) (l : Location) :
    standing (t.put (here ++ [name]) node) l =
      if l = here ++ [name] then node.standing else t.standing l := by
  induction here generalizing t l with
  | nil =>
    obtain ⟨es, h⟩ := standing_eq_directory.mp inside
    obtain rfl : t = .directory es := Option.some.inj h
    rw [List.nil_append] at free ⊢
    have put : Node.put (.directory es) [name] node = .directory (Node.setChild es name node) := by
      simp only [Node.put]
    rw [put]
    cases l with
    | nil => rfl
    | cons other rest =>
      rw [standing_cons, Node.child?_setChild]
      by_cases same : name = other
      · subst same
        cases rest with
        | nil => simp [standing, Node.at?]
        | cons next rest =>
          have below : standing (.directory es) (name :: next :: rest) = .nothing :=
            standing_below free next rest
          simp [below, standing_of_bare bare]
      · simp [same, Ne.symm same, standing_cons]
  | cons step here ih =>
    obtain ⟨es, child, rfl, hchild, inside⟩ := exists_child inside
    rw [List.cons_append] at free ⊢
    rw [standing_cons, hchild] at free
    rw [put_cons hchild]
    cases l with
    | nil => rfl
    | cons other rest =>
      rw [standing_cons, Node.child?_setChild]
      by_cases same : step = other
      · subst same
        simp [ih inside free rest, standing_cons, hchild]
      · simp [same, Ne.symm same, standing_cons]

private theorem directoryNames_setChild_new {es : List (String × Node)} {name : String}
    (node : Node) (h : Node.child? es name = none) :
    Node.directoryNames (Node.setChild es name node) =
      Node.directoryNames es ++ if node.isFile then [] else [name] := by
  induction es with
  | nil => cases node <;> simp [Node.setChild, Node.directoryNames, Node.isFile]
  | cons e es ih =>
    obtain ⟨k, n⟩ := e
    have other : k ≠ name := by
      rintro rfl
      simp [Node.child?] at h
    simp only [Node.child?, other, if_false] at h
    have rest := ih h
    simp only [Node.directoryNames] at rest
    cases hn : n.isFile <;> simp [Node.setChild, other, Node.directoryNames, hn, rest]

private theorem directoryNames_setChild_same {es : List (String × Node)} {name : String}
    {old node : Node} (h : Node.child? es name = some old) (kind : node.isFile = old.isFile) :
    Node.directoryNames (Node.setChild es name node) = Node.directoryNames es := by
  induction es with
  | nil => simp [Node.child?] at h
  | cons e es ih =>
    obtain ⟨k, n⟩ := e
    by_cases same : k = name
    · subst same
      obtain rfl : n = old := by simpa [Node.child?] using h
      cases hn : n.isFile <;> simp [Node.setChild, Node.directoryNames, hn, kind]
    · simp only [Node.child?, same, if_false] at h
      have rest := ih h
      simp only [Node.directoryNames] at rest
      cases hn : n.isFile <;> simp [Node.setChild, same, Node.directoryNames, hn, rest]

private theorem isFile_put {t : Tree} {here : Location} (name : String) (node : Node)
    (h : t.standing here = .directory) :
    (Node.put t (here ++ [name]) node).isFile = Node.isFile t := by
  cases here with
  | nil =>
    obtain ⟨es, h⟩ := standing_eq_directory.mp h
    obtain rfl : t = .directory es := Option.some.inj h
    simp [Node.put, Node.isFile]
  | cons step here =>
    obtain ⟨es, child, rfl, -, -⟩ := exists_child h
    simp [Node.put, Node.isFile]

private theorem directoriesAt_cons (es : List (String × Node)) (name : String) (l : Location) :
    directoriesAt (.directory es) (name :: l) =
      match Node.child? es name with
      | none => []
      | some node => directoriesAt node l := by
  unfold directoriesAt
  rw [at?_cons_of_directory]
  cases Node.child? es name <;> rfl

/-- A walk down to the directory where something is put, common to what is put there: the names of
directories change in that directory only. -/
private theorem directoriesAt_put {t : Tree} {here : Location} {name : String} (node : Node)
    (added : List String) (inside : t.standing here = .directory)
    (free : t.standing (here ++ [name]) ≠ .directory) (bare : node.entries = [])
    (names : ∀ es, t.at? here = some (.directory es) →
      Node.directoryNames (Node.setChild es name node) = Node.directoryNames es ++ added)
    (l : Location) :
    directoriesAt (t.put (here ++ [name]) node) l =
      t.directoriesAt l ++ if l = here then added else [] := by
  induction here generalizing t l with
  | nil =>
    obtain ⟨es, h⟩ := standing_eq_directory.mp inside
    obtain rfl : t = .directory es := Option.some.inj h
    rw [List.nil_append] at free ⊢
    have put : Node.put (.directory es) [name] node = .directory (Node.setChild es name node) := by
      simp only [Node.put]
    rw [put]
    cases l with
    | nil => simpa [directoriesAt, Node.at?, Node.entries] using names es rfl
    | cons other rest =>
      rw [directoriesAt_cons, directoriesAt_cons, Node.child?_setChild]
      by_cases same : name = other
      · subst same
        rw [standing_cons] at free
        cases hchild : Node.child? es name with
        | none => simp [directoriesAt_of_bare bare]
        | some child =>
          cases child with
          | directory es => simp [hchild, standing, Node.at?, Node.standing] at free
          | file content =>
            have none_before : directoriesAt (.file content) rest = [] :=
              directoriesAt_of_bare rfl rest
            simp [directoriesAt_of_bare bare, none_before]
      · simp [same]
  | cons step here ih =>
    obtain ⟨es, child, rfl, hchild, inside⟩ := exists_child inside
    rw [List.cons_append] at free ⊢
    rw [standing_cons, hchild] at free
    have deeper : ∀ below, Node.at? child here = some (.directory below) →
        Node.directoryNames (Node.setChild below name node) =
          Node.directoryNames below ++ added := by
      intro below h
      exact names below (by rw [at?_cons_of_directory, hchild, Option.bind_some, h])
    rw [put_cons hchild]
    cases l with
    | nil =>
      have kept := directoryNames_setChild_same hchild (isFile_put name node inside)
      simpa [directoriesAt, Node.at?, Node.entries] using kept
    | cons other rest =>
      rw [directoriesAt_cons, directoriesAt_cons, Node.child?_setChild]
      by_cases same : step = other
      · subst same
        simp [ih inside free deeper rest, hchild]
      · simp [same, Ne.symm same]

/-- The name of a new directory is the last one in the directory that it is put in. -/
theorem directoriesAt_put_directory {t : Tree} {here : Location} {name : String}
    (inside : t.standing here = .directory) (free : t.standing (here ++ [name]) = .nothing)
    (l : Location) :
    directoriesAt (t.put (here ++ [name]) (.directory [])) l =
      t.directoriesAt l ++ if l = here then [name] else [] := by
  have vacant : t.standing (here ++ [name]) ≠ .directory := by simp [free]
  refine directoriesAt_put (.directory []) [name] inside vacant rfl (fun es h => ?_) l
  rw [standing_eq_nothing, at?_append, h, Option.bind_some, at?_cons_of_directory] at free
  cases hchild : Node.child? es name with
  | none => exact directoryNames_setChild_new _ hchild
  | some child => simp [hchild, Node.at?] at free

/-- A file that is written leaves the names of directories alone. -/
theorem directoriesAt_put_file {t : Tree} {here : Location} {name : String} (content : Bytes)
    (inside : t.standing here = .directory) (free : t.standing (here ++ [name]) ≠ .directory)
    (l : Location) :
    directoriesAt (t.put (here ++ [name]) (.file content)) l = t.directoriesAt l := by
  have names : ∀ es, t.at? here = some (.directory es) →
      Node.directoryNames (Node.setChild es name (.file content)) =
        Node.directoryNames es ++ [] := by
    intro es h
    cases hchild : Node.child? es name with
    | none => exact directoryNames_setChild_new _ hchild
    | some child =>
      cases child with
      | file old =>
        rw [List.append_nil]
        exact directoryNames_setChild_same hchild rfl
      | directory below =>
        refine absurd (standing_eq_directory.mpr ⟨below, ?_⟩) free
        rw [at?_append, h, Option.bind_some, at?_cons_of_directory, hchild, Option.bind_some,
          Node.at?]
  have kept := directoriesAt_put (.file content) [] inside free rfl names l
  simpa using kept

namespace Grown

variable {directories files : Location → Prop} {t u v : Tree} {l : Location}

theorem trans (h : Grown directories files t u) (k : Grown directories files u v) :
    Grown directories files t v := by
  induction k with
  | refl => exact h
  | directory _ inside free allowed ih => exact .directory ih inside free allowed
  | file content _ inside free allowed ih => exact .file content ih inside free allowed

theorem mono {more others : Location → Prop} (h : Grown directories files t u)
    (hd : ∀ l, directories l → more l) (hf : ∀ l, files l → others l) : Grown more others t u := by
  induction h with
  | refl => exact .refl
  | directory _ inside free allowed ih => exact .directory ih inside free (hd _ allowed)
  | file content _ inside free allowed ih => exact .file content ih inside free (hf _ allowed)

/-- A directory stays. -/
theorem standing_directory (h : Grown directories files t u) (hl : t.standing l = .directory) :
    u.standing l = .directory := by
  induction h with
  | refl => exact hl
  | directory _ inside free _ ih =>
    rw [standing_put inside (by simp [free]) rfl]
    split_ifs
    · rfl
    · exact ih
  | file content _ inside free _ ih =>
    rw [standing_put inside free rfl]
    split_ifs with same
    · exact absurd (same ▸ ih) free
    · exact ih

/-- What is not written as a file stays as it is. -/
theorem standing_eq (h : Grown directories files t u) (hl : ¬ files l)
    (something : t.standing l ≠ .nothing) : u.standing l = t.standing l := by
  induction h with
  | refl => rfl
  | directory _ inside free _ ih =>
    rw [standing_put inside (by simp [free]) rfl]
    split_ifs with same
    · exact absurd (ih.symm.trans (same ▸ free)) something
    · exact ih
  | file content _ inside free allowed ih =>
    rw [standing_put inside free rfl]
    split_ifs with same
    · exact absurd (same ▸ allowed) hl
    · exact ih

/-- A directory that was not put was there. -/
theorem standing_directory_before (h : Grown directories files t u) (hl : ¬ directories l)
    (after : u.standing l = .directory) : t.standing l = .directory := by
  induction h with
  | refl => exact after
  | directory _ inside free allowed ih =>
    rw [standing_put inside (by simp [free]) rfl] at after
    split_ifs at after with same
    · exact absurd (same ▸ allowed) hl
    · exact ih after
  | file content _ inside free _ ih =>
    rw [standing_put inside free rfl] at after
    split_ifs at after with same
    · cases after
    · exact ih after

theorem standing_ne_nothing (h : Grown directories files t u) (hl : t.standing l ≠ .nothing) :
    u.standing l ≠ .nothing := by
  induction h with
  | refl => exact hl
  | directory _ inside free _ ih =>
    rw [standing_put inside (by simp [free]) rfl]
    split_ifs
    · simp [Node.standing]
    · exact ih
  | file content _ inside free _ ih =>
    rw [standing_put inside free rfl]
    split_ifs
    · simp [Node.standing]
    · exact ih

/-- Where nothing was put, nothing stands if nothing stood there. -/
theorem standing_eq_nothing (h : Grown directories files t u) (hd : ¬ directories l)
    (hf : ¬ files l) (nothing : t.standing l = .nothing) : u.standing l = .nothing := by
  induction h with
  | refl => exact nothing
  | directory _ inside free allowed ih =>
    rw [standing_put inside (by simp [free]) rfl]
    split_ifs with same
    · exact absurd (same ▸ allowed) hd
    · exact ih
  | file content _ inside free allowed ih =>
    rw [standing_put inside free rfl]
    split_ifs with same
    · exact absurd (same ▸ allowed) hf
    · exact ih

/-- The content of a file changes only if the file is written. -/
theorem contentAt?_eq (h : Grown directories files t u) (hl : ¬ files l) :
    u.contentAt? l = t.contentAt? l := by
  induction h with
  | refl => rfl
  | directory _ inside free _ ih =>
    rw [← ih, contentAt?, contentAt?, standing_put inside (by simp [free]) rfl]
    split_ifs with same
    · rw [same, free]
      rfl
    · rfl
  | file content _ inside free allowed ih =>
    rw [← ih, contentAt?, contentAt?, standing_put inside free rfl]
    split_ifs with same
    · exact absurd (same ▸ allowed) hl
    · rfl

/-- Directories are only put where nothing stood in the first place. -/
theorem fresh (h : Grown directories files t u) :
    Grown (fun l => directories l ∧ t.standing l = .nothing) files t u := by
  induction h with
  | refl => exact .refl
  | directory before inside free allowed ih =>
    refine .directory ih inside free ⟨allowed, ?_⟩
    by_contra something
    exact before.standing_ne_nothing something free
  | file content _ inside free allowed ih => exact .file content ih inside free allowed

/-- The names of directories stay, in their order and before all new ones. -/
theorem directoriesAt_prefix (h : Grown directories files t u) (l : Location) :
    t.directoriesAt l <+: u.directoriesAt l := by
  induction h with
  | refl => exact List.prefix_refl _
  | directory _ inside free _ ih =>
    rw [directoriesAt_put_directory inside free]
    exact ih.trans (List.prefix_append _ _)
  | file content _ inside free _ ih =>
    rw [directoriesAt_put_file content inside free]
    exact ih

private theorem directoriesAt_cases {name : String} (h : Grown directories files t u)
    (only : ∀ other, directories (l ++ [other]) → other = name) :
    (u.standing (l ++ [name]) = .directory ∧ u.directoriesAt l = t.directoriesAt l ++ [name]) ∨
      (u.directoriesAt l = t.directoriesAt l ∧
        (u.standing (l ++ [name]) = .directory → t.standing (l ++ [name]) ≠ .nothing)) := by
  induction h with
  | refl => exact .inr ⟨rfl, fun here => by simp [here]⟩
  | @directory u here other before inside free allowed ih =>
    rw [directoriesAt_put_directory inside free, standing_put inside (by simp [free]) rfl]
    by_cases same : l = here
    · subst same
      obtain rfl := only other allowed
      rcases ih with ⟨there, -⟩ | ⟨names, -⟩
      · rw [free] at there
        cases there
      · exact .inl ⟨by simp [Node.standing], by simp [names]⟩
    · have elsewhere : l ++ [name] ≠ here ++ [other] := by
        intro h
        exact same (List.append_inj' h rfl).1
      simpa [same, elsewhere] using ih
  | @file u here other content before inside free allowed ih =>
    rw [directoriesAt_put_file content inside free, standing_put inside free rfl]
    split_ifs with same
    · rcases ih with ⟨there, -⟩ | ⟨names, -⟩
      · exact absurd (same ▸ there) free
      · exact .inr ⟨names, fun h => by simp [Node.standing] at h⟩
    · exact ih

/-- A directory that is new and the only one that may be put beside others is the last of them. -/
theorem directoriesAt_append {name : String} (h : Grown directories files t u)
    (only : ∀ other, directories (l ++ [other]) → other = name)
    (before : t.standing (l ++ [name]) = .nothing)
    (after : u.standing (l ++ [name]) = .directory) :
    u.directoriesAt l = t.directoriesAt l ++ [name] := by
  rcases h.directoriesAt_cases only with ⟨-, names⟩ | ⟨-, there⟩
  · exact names
  · exact absurd before (there after)

/-- Files alone leave the names of directories as they are. -/
theorem directoriesAt_eq (h : Grown (fun _ => False) files t u) (l : Location) :
    u.directoriesAt l = t.directoriesAt l := by
  induction h with
  | refl => rfl
  | directory _ _ _ allowed _ => exact allowed.elim
  | file content _ inside free _ ih => rw [directoriesAt_put_file content inside free, ih]

end Grown

end Tree

end Runbook.Files
