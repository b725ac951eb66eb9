import Runbook.Proofs.Files.Making

set_option autoImplicit false
set_option relaxedAutoImplicit false

/-!
Trees as they are on disk: every name is plain, and no two things in a directory have the same one.
What is listed in such a tree is what stands in it, once.
-/

namespace Runbook.Files

namespace Node

mutual

/-- Whether the names below a node are plain and stand once in their directories. -/
def isProper : Node → Bool
  | .file _ => true
  | .directory es => areProper es

def areProper : List (String × Node) → Bool
  | [] => true
  | (name, node) :: rest =>
    decide (Plain name) && rest.all (·.1 != name) && node.isProper && areProper rest

end

variable {es : List (String × Node)} {name : String} {node child : Node}

theorem areProper_cons : areProper ((name, node) :: es) = true ↔
    Plain name ∧ (∀ e ∈ es, e.1 ≠ name) ∧ node.isProper = true ∧ areProper es = true := by
  simp only [areProper, Bool.and_eq_true, decide_eq_true_eq, List.all_eq_true, bne_iff_ne, and_assoc]

theorem proper_of_mem (h : areProper es = true) (member : (name, node) ∈ es) :
    Plain name ∧ node.isProper = true ∧ child? es name = some node := by
  induction es with
  | nil => cases member
  | cons e es ih =>
    obtain ⟨k, n⟩ := e
    obtain ⟨plain, other, proper, rest⟩ := areProper_cons.mp h
    rcases List.mem_cons.mp member with same | member
    · obtain ⟨rfl, rfl⟩ := Prod.mk.inj same
      exact ⟨plain, proper, by simp [child?]⟩
    · have differs : k ≠ name := fun same => other _ member same.symm
      obtain ⟨plain', proper', found⟩ := ih rest member
      exact ⟨plain', proper', by simpa [child?, differs] using found⟩

/-- All names that lead to something in a proper tree are plain. -/
theorem plain_of_at? {l : Location} (proper : node.isProper = true)
    (there : node.at? l = some child) : ∀ step ∈ l, Plain step := by
  induction l generalizing node with
  | nil => simp
  | cons first rest ih =>
    obtain ⟨next, found, below⟩ := Option.bind_eq_some_iff.mp there
    cases node with
    | file content => cases found
    | directory es =>
      obtain ⟨plain, inside, -⟩ := proper_of_mem proper (Tree.mem_of_child? found)
      exact List.forall_mem_cons.mpr ⟨plain, ih inside below⟩

theorem nodup_names (h : areProper es = true) : (es.map (·.1)).Nodup := by
  induction es with
  | nil => exact .nil
  | cons e es ih =>
    obtain ⟨k, n⟩ := e
    obtain ⟨-, other, -, rest⟩ := areProper_cons.mp h
    refine List.nodup_cons.mpr ⟨?_, ih rest⟩
    intro again
    obtain ⟨e, member, same⟩ := List.mem_map.mp again
    exact other e member same

end Node

namespace Tree

variable {t : Tree} {l : Location} {name : String} {es : List (String × Node)}

theorem isProper_of_at? {node : Node} (proper : t.isProper = true) (there : t.at? l = some node) :
    node.isProper = true := by
  induction l generalizing t with
  | nil =>
    obtain rfl := Option.some.inj there
    exact proper
  | cons name l ih =>
    obtain ⟨child, found, below⟩ := Option.bind_eq_some_iff.mp there
    cases t with
    | file content => simp [Node.entries, Node.child?] at found
    | directory es => exact ih (Node.proper_of_mem proper (mem_of_child? found)).2.1 below

/-- In a proper tree, what is listed in a directory are the directories that stand in it, by plain
names and each once. -/
theorem mem_directoriesAt_iff (proper : t.isProper = true) :
    name ∈ t.directoriesAt l ↔ t.standing (l ++ [name]) = .directory := by
  refine ⟨?_, mem_directoriesAt⟩
  intro member
  cases there : t.at? l with
  | none => simp [directoriesAt, there, Node.directoryNames] at member
  | some node =>
    have inner := isProper_of_at? proper there
    cases node with
    | file content => simp [directoriesAt, there, Node.directoryNames, Node.entries] at member
    | directory es =>
      simp only [directoriesAt, there, Option.map_some, Option.getD_some, Node.entries,
        Node.directoryNames, List.mem_map, List.mem_filter] at member
      obtain ⟨⟨_, child⟩, ⟨listed, directory⟩, rfl⟩ := member
      obtain ⟨-, -, found⟩ := Node.proper_of_mem inner listed
      unfold standing
      rw [at?_append, there, Option.bind_some, Node.at?, Node.entries, found, Option.bind_some,
        Node.at?]
      cases child with
      | file content => simp [Node.isFile] at directory
      | directory es => rfl

private theorem directoriesAt_sublist (proper : t.isProper = true) :
    ∃ es, Node.areProper es = true ∧ (t.directoriesAt l).Sublist (es.map (·.1)) := by
  cases there : t.at? l with
  | none => exact ⟨[], rfl, by simp [directoriesAt, there, Node.directoryNames]⟩
  | some node =>
    have inner := isProper_of_at? proper there
    cases node with
    | file content =>
      exact ⟨[], rfl, by simp [directoriesAt, there, Node.directoryNames, Node.entries]⟩
    | directory es =>
      refine ⟨es, inner, ?_⟩
      simp only [directoriesAt, there, Option.map_some, Option.getD_some, Node.entries,
        Node.directoryNames]
      exact (List.filter_sublist).map _

theorem nodup_directoriesAt (proper : t.isProper = true) : (t.directoriesAt l).Nodup := by
  obtain ⟨es, inner, sublist⟩ := directoriesAt_sublist (l := l) proper
  exact (Node.nodup_names inner).sublist sublist

theorem nodup_directoriesOf (proper : t.isProper = true) (p : Path) :
    (t.directoriesOf p).Nodup := by
  cases located : t.locate p with
  | error fault => simp [directoriesOf, entriesOf, node?, located, Except.toOption]
  | ok l =>
    rw [directoriesOf_of_locate located]
    exact nodup_directoriesAt proper

theorem plain_of_mem_directoriesAt (proper : t.isProper = true) (h : name ∈ t.directoriesAt l) :
    Plain name := by
  obtain ⟨es, inner, sublist⟩ := directoriesAt_sublist (l := l) proper
  obtain ⟨⟨_, node⟩, member, rfl⟩ := List.mem_map.mp (sublist.subset h)
  exact (Node.proper_of_mem inner member).1

end Tree

end Runbook.Files
