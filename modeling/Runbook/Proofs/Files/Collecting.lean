import Mathlib.Data.List.Lex
import Mathlib.Data.List.Perm.Basic
import Runbook.Proofs.Files.Listing

set_option autoImplicit false
set_option relaxedAutoImplicit false

/-!
The YAML files that are collected below a directory. If every directory that is entered has a path
that is not too long, they are the visible files with the extension, in strict order of the steps of
their paths, and the order of the entries in directories does not matter; otherwise there is no list.
-/

namespace Runbook.Files

open Runbook.Text (Bytes)

/-- Whether a name has an extension: what stands behind its last dot, unless the name begins there.
A name that leads upward has none. -/
def HasExtension (name extension : String) : Prop :=
  name ≠ ".." ∧ ∃ stem, stem ≠ "" ∧ name = stem ++ "." ++ extension ∧ '.' ∉ extension.toList

theorem hasExtension_yaml_iff {name : String} (shown : isHidden name = false) :
    HasExtension name "yaml" ↔ (yamlStem? name).isSome = true := by
  have ending : ∀ stem : String, stem ++ "." ++ "yaml" = stem ++ yamlEnding := fun stem =>
    String.append_assoc
  rw [Option.isSome_iff_exists]
  simp only [yamlStem?_eq_some]
  constructor
  · rintro ⟨-, stem, -, named, -⟩
    exact ⟨stem, named.trans (ending stem)⟩
  · rintro ⟨stem, rfl⟩
    refine ⟨?_, stem, ?_, (ending stem).symm, by decide⟩
    · intro upward
      have sizes := congrArg String.length upward
      rw [length_append_yamlEnding] at sizes
      have two : "..".length = 2 := rfl
      omega
    · rintro rfl
      exact absurd shown (by decide)

namespace Location

variable {l m n : Location}

theorem le_iff : Location.le l m = true ↔ l = m ∨ List.Lex (· < ·) l m := by
  induction l generalizing m with
  | nil =>
    cases m with
    | nil => exact iff_of_true rfl (.inl rfl)
    | cons b m => exact iff_of_true rfl (.inr .nil)
  | cons a l ih =>
    cases m with
    | nil =>
      have nothing : ¬ List.Lex (· < ·) (a :: l) ([] : List String) := by
        intro before
        cases before
      exact iff_of_false Bool.false_ne_true (not_or.mpr ⟨List.cons_ne_nil a l, nothing⟩)
    | cons b m =>
      rw [Location.le]
      split_ifs with same
      · subst same
        rw [ih, List.cons_eq_cons, List.lex_cons_iff]
        simp
      · rw [decide_eq_true_eq]
        constructor
        · exact fun before => .inr (.rel before)
        · rintro (equal | before)
          · exact absurd (List.cons.inj equal).1 same
          · cases before with
            | rel before => exact before
            | cons _ => exact absurd rfl same

theorem le_trans (h : Location.le l m = true) (k : Location.le m n = true) :
    Location.le l n = true := by
  rw [le_iff] at h k ⊢
  rcases h with rfl | h
  · exact k
  · rcases k with rfl | k
    · exact .inr h
    · exact .inr (List.lex_trans String.lt_trans h k)

theorem le_total (l m : Location) : (Location.le l m || Location.le m l) = true := by
  rw [Bool.or_eq_true]
  induction l generalizing m with
  | nil => exact .inl (by rw [Location.le])
  | cons a l ih =>
    cases m with
    | nil => exact .inr (by rw [Location.le])
    | cons b m =>
      by_cases same : a = b
      · subst same
        simpa [Location.le] using ih m
      · rw [Location.le, Location.le, if_neg same, if_neg (Ne.symm same), decide_eq_true_eq,
          decide_eq_true_eq]
        by_contra neither
        rw [not_or, String.not_lt, String.not_lt] at neither
        exact same (String.le_antisymm neither.2 neither.1)

/-- Of two different locations, not both come before the other. -/
theorem not_lex_of_lex (h : List.Lex (· < ·) l m) : ¬ List.Lex (· < ·) m l := by
  intro k
  have cycle : List.Lex (· < ·) l l := List.lex_trans String.lt_trans h k
  clear h k
  induction l with
  | nil => cases cycle
  | cons a l ih =>
    cases cycle with
    | rel before => exact String.lt_irrefl a before
    | cons below => exact ih below

end Location

theorem Path.steps_below {dir : Path} {l : Location} (plain : ∀ name ∈ l, Plain name) :
    (dir.below l).steps = dir.steps ++ l := by
  induction l using List.reverseRecOn with
  | nil => simp [below]
  | append_singleton above name ih =>
    have before := ih fun other member => plain other (List.mem_append_left _ member)
    rw [below_concat, steps_join _ (plain name (by simp)), before, List.append_assoc]

namespace Tree

variable {t u : Tree} {dir : Path} {l : Location} {content : Bytes}

/-- Whether something stands at a location below a directory and no hidden name leads to it. -/
def Shows (t : Tree) (dir : Path) (l : Location) (held : Standing) : Prop :=
  l ≠ [] ∧ (∀ step ∈ l, isHidden step = false) ∧
    ∃ here, t.locate dir = .ok here ∧ t.standing (here ++ l) = held

/-- Whether a location below a directory is that of a file to be collected. -/
def Collects (t : Tree) (dir : Path) (l : Location) : Prop :=
  (∃ content, t.Shows dir l (.file content)) ∧
    ∃ above name, l = above ++ [name] ∧ HasExtension name "yaml"

theorem mem_enteredIn (proper : t.isProper = true) :
    l ∈ enteredIn (t.entriesOf dir) ↔ t.Shows dir l .directory := by
  rw [enteredIn, List.mem_map]
  constructor
  · rintro ⟨⟨_, node⟩, member, rfl⟩
    obtain ⟨member, kept⟩ := List.mem_filter.mp member
    obtain ⟨inner, shown, here, located, there⟩ := (mem_visibleIn_entriesOf proper).mp member
    refine ⟨inner, shown, here, located, standing_eq_directory.mpr ?_⟩
    cases node with
    | file content => cases kept
    | directory es => exact ⟨es, there⟩
  · rintro ⟨inner, shown, here, located, standing⟩
    obtain ⟨es, there⟩ := standing_eq_directory.mp standing
    refine ⟨(l, .directory es), List.mem_filter.mpr ⟨?_, rfl⟩, rfl⟩
    exact (mem_visibleIn_entriesOf proper).mpr ⟨inner, shown, here, located, there⟩

theorem Shows.plain {held : Standing} (proper : t.isProper = true) (h : t.Shows dir l held)
    (something : held ≠ .nothing) : ∀ step ∈ l, Plain step := by
  obtain ⟨-, -, here, -, rfl⟩ := h
  obtain ⟨node, there⟩ : ∃ node, t.at? (here ++ l) = some node := by
    rw [Ne, standing_eq_nothing] at something
    exact Option.ne_none_iff_exists'.mp something
  intro step member
  exact Node.plain_of_at? proper there step (List.mem_append_right here member)

/-- The directories below one are entered if and only if none of their paths is too long. -/
theorem exists_enterBelow (proper : t.isProper = true) :
    (∃ entered, t.enterBelow dir = .ok entered) ↔ ∀ l, t.Shows dir l .directory → Fits dir l := by
  rw [enterBelow, Outcome.exists_mapM_eq_ok]
  refine forall_congr' fun l => ?_
  rw [mem_enteredIn proper]
  refine imp_congr_right fun shows => ?_
  have plain := shows.plain proper (by simp)
  constructor
  · rintro ⟨m, found⟩
    exact fits_of_locate plain found
  · intro fits
    obtain ⟨-, -, here, located, there⟩ := shows
    exact ⟨_, locate_below plain fits located (by simp [there])⟩

theorem listYamlFiles_eq_ok {files : List Path} : t.listYamlFiles dir = .ok files ↔
    (∃ entered, t.enterBelow dir = .ok entered) ∧ t.yamlFiles dir = files := by
  rw [listYamlFiles]
  cases t.enterBelow dir <;> simp [Except.map]

theorem mem_yamlLocations_iff_collects (proper : t.isProper = true) :
    l ∈ t.yamlLocations dir ↔ t.Collects dir l := by
  rw [mem_yamlLocations proper]
  constructor
  · rintro ⟨here, content, located, there, shown, ends⟩
    obtain ⟨above, stem, rfl⟩ := Location.endsInYaml_eq_true.mp ends
    refine ⟨⟨content, by simp, shown, here, located, there⟩, above, _, rfl, ?_⟩
    rw [hasExtension_yaml_iff (shown _ (by simp)), yamlStem?_append]
    rfl
  · rintro ⟨⟨content, inner, shown, here, located, there⟩, above, name, rfl, extended⟩
    rw [hasExtension_yaml_iff (shown name (by simp)), Option.isSome_iff_exists] at extended
    obtain ⟨stem, cut⟩ := extended
    refine ⟨here, content, located, there, shown, Location.endsInYaml_eq_true.mpr ?_⟩
    exact ⟨above, stem, by rw [yamlStem?_eq_some.mp cut]⟩

/-- The locations that are listed come strictly one after the other. -/
theorem pairwise_yamlLocations (proper : t.isProper = true) (dir : Path) :
    (t.yamlLocations dir).Pairwise (List.Lex (· < ·)) := by
  have sorted : (t.yamlLocations dir).Pairwise fun l m => Location.le l m = true := by
    apply List.pairwise_mergeSort
    · intro l m n
      exact Location.le_trans
    · exact Location.le_total
  refine (sorted.and (nodup_yamlLocations proper dir)).imp ?_
  rintro l m ⟨before, differs⟩
  exact (Location.le_iff.mp before).resolve_left differs

theorem mem_yamlFiles (proper : t.isProper = true) {file : Path} : file ∈ t.yamlFiles dir ↔
    ∃ l, t.Collects dir l ∧ file = dir.below l ∧ file.steps = dir.steps ++ l := by
  rw [yamlFiles, List.mem_map]
  simp only [mem_yamlLocations_iff_collects proper]
  constructor
  · rintro ⟨l, collects, rfl⟩
    obtain ⟨content, shows⟩ := collects.1
    exact ⟨l, collects, rfl, Path.steps_below (shows.plain proper (by simp))⟩
  · rintro ⟨l, collects, rfl, -⟩
    exact ⟨l, collects, rfl⟩

theorem pairwise_yamlFiles (proper : t.isProper = true) (dir : Path) :
    (t.yamlFiles dir).Pairwise fun a b => List.Lex (· < ·) a.steps b.steps := by
  have steps : ∀ l ∈ t.yamlLocations dir, (dir.below l).steps = dir.steps ++ l := fun l member =>
    Path.steps_below (plain_of_mem_yamlLocations proper member)
  rw [yamlFiles, List.pairwise_map]
  refine (pairwise_yamlLocations proper dir).imp_of_mem ?_
  intro l m listed listed' before
  have after := List.Lex.append_left _ before dir.steps
  rwa [← steps l listed, ← steps m listed'] at after

end Tree

namespace Node

/-- Whether two lists of entries hold the same in another order, in each directory below them. -/
inductive Reordered : List (String × Node) → List (String × Node) → Prop
  | nil : Reordered [] []
  | file {name : String} {content : Bytes} {es fs : List (String × Node)} : Reordered es fs →
      Reordered ((name, .file content) :: es) ((name, .file content) :: fs)
  | directory {name : String} {ds gs es fs : List (String × Node)} : Reordered ds gs →
      Reordered es fs → Reordered ((name, .directory ds) :: es) ((name, .directory gs) :: fs)
  | swap {e f : String × Node} {es : List (String × Node)} :
      Reordered (e :: f :: es) (f :: e :: es)
  | trans {es fs gs : List (String × Node)} :
      Reordered es fs → Reordered fs gs → Reordered es gs

variable {es fs : List (String × Node)}

private theorem standing_cons (name : String) (node : Node) (l : Location) :
    Tree.standing (.directory ((name, node) :: es)) l =
      match l with
      | [] => .directory
      | first :: rest =>
        if name = first then Tree.standing node rest
        else Tree.standing (.directory es) (first :: rest) := by
  cases l with
  | nil => rfl
  | cons first rest =>
    by_cases same : name = first <;>
      simp [Tree.standing, at?, entries, child?, same]

/-- What other entries have in common with entries of which they are another order. -/
structure SameBelow (es fs : List (String × Node)) : Prop where
  proper : areProper fs = true
  names : (es.map (·.1)).Perm (fs.map (·.1))
  stands : ∀ l, Tree.standing (.directory es) l = Tree.standing (.directory fs) l

private theorem SameBelow.cons {name : String} {node other : Node} (later : SameBelow es fs)
    (proper : areProper ((name, node) :: es) = true) (inside : other.isProper = true)
    (stands : ∀ l, Tree.standing node l = Tree.standing other l) :
    SameBelow ((name, node) :: es) ((name, other) :: fs) := by
  obtain ⟨plain, once, -, -⟩ := areProper_cons.mp proper
  refine ⟨areProper_cons.mpr ⟨plain, ?_, inside, later.proper⟩, later.names.cons name, ?_⟩
  · intro e member same
    have named : name ∈ es.map (·.1) :=
      later.names.mem_iff.mpr (same ▸ List.mem_map_of_mem member)
    obtain ⟨e', member', same'⟩ := List.mem_map.mp named
    exact once e' member' same'
  · intro l
    rw [standing_cons, standing_cons]
    cases l with
    | nil => rfl
    | cons first rest => simp only [stands, later.stands]

private theorem sameBelow_swap {e f : String × Node} (proper : areProper (e :: f :: es) = true) :
    SameBelow (e :: f :: es) (f :: e :: es) := by
  obtain ⟨a, n⟩ := e
  obtain ⟨b, m⟩ := f
  obtain ⟨plain, other, inside, behind⟩ := areProper_cons.mp proper
  obtain ⟨plain', other', inside', later⟩ := areProper_cons.mp behind
  obtain ⟨differs, others⟩ := List.forall_mem_cons.mp other
  refine ⟨?_, List.Perm.swap b a _, ?_⟩
  · refine areProper_cons.mpr ⟨plain', ?_, inside', ?_⟩
    · exact List.forall_mem_cons.mpr ⟨Ne.symm differs, other'⟩
    · exact areProper_cons.mpr ⟨plain, others, inside, later⟩
  · intro l
    cases l with
    | nil => rfl
    | cons first rest =>
      simp only [standing_cons]
      by_cases same : a = first
      · subst same
        have apart : ¬ b = a := differs
        simp [apart]
      · simp [same]

/-- In another order, proper entries have the same names and hold the same at each location. The
induction is on what is done to the order; entries above which nothing is moved stay in front. -/
theorem Reordered.sameBelow (h : Reordered es fs) (proper : areProper es = true) :
    SameBelow es fs := by
  induction h with
  | nil => exact ⟨proper, .refl _, fun _ => rfl⟩
  | file _ ih =>
    obtain ⟨-, -, inside, later⟩ := areProper_cons.mp proper
    exact (ih later).cons proper inside fun _ => rfl
  | directory _ _ ihBelow ih =>
    obtain ⟨-, -, inside, later⟩ := areProper_cons.mp proper
    have below := ihBelow inside
    exact (ih later).cons proper below.proper below.stands
  | swap => exact sameBelow_swap proper
  | trans _ _ ih ih' =>
    have first := ih proper
    have second := ih' first.proper
    exact ⟨second.proper, first.names.trans second.names,
      fun l => (first.stands l).trans (second.stands l)⟩

end Node

namespace Tree

variable {t u : Tree} {dir : Path} {l : Location}

theorem shows_congr (stands : ∀ l, t.standing l = u.standing l) (held : Standing) :
    t.Shows dir l held ↔ u.Shows dir l held := by
  have found : ∀ here, t.locate dir = .ok here ↔ u.locate dir = .ok here := by
    intro here
    constructor
    · exact locate_mono fun l inside => (stands l).symm.trans inside
    · exact locate_mono fun l inside => (stands l).trans inside
  simp only [Shows, found, stands]

/-- Two proper trees in which the same stands at each location are listed alike. -/
theorem yamlLocations_congr (proper : t.isProper = true) (proper' : u.isProper = true)
    (stands : ∀ l, t.standing l = u.standing l) (dir : Path) :
    t.yamlLocations dir = u.yamlLocations dir := by
  have perm : (t.yamlLocations dir).Perm (u.yamlLocations dir) := by
    rw [List.perm_ext_iff_of_nodup (nodup_yamlLocations proper dir)
      (nodup_yamlLocations proper' dir)]
    intro l
    rw [mem_yamlLocations_iff_collects proper, mem_yamlLocations_iff_collects proper', Collects,
      Collects]
    simp only [shows_congr stands]
  refine perm.eq_of_pairwise ?_ (pairwise_yamlLocations proper dir)
    (pairwise_yamlLocations proper' dir)
  intro l m _ _ before after
  exact absurd after (Location.not_lex_of_lex before)

theorem toOption_listYamlFiles_congr (proper : t.isProper = true) (proper' : u.isProper = true)
    (stands : ∀ l, t.standing l = u.standing l) (dir : Path) :
    (t.listYamlFiles dir).toOption = (u.listYamlFiles dir).toOption := by
  have entered : (∃ below, t.enterBelow dir = .ok below) ↔ ∃ below, u.enterBelow dir = .ok below := by
    rw [exists_enterBelow proper, exists_enterBelow proper']
    simp only [shows_congr stands]
  apply Option.ext
  intro files
  rw [Outcome.toOption_eq_some, Outcome.toOption_eq_some, listYamlFiles_eq_ok, listYamlFiles_eq_ok,
    entered, yamlFiles, yamlFiles, yamlLocations_congr proper proper' stands]

/-- Nothing is listed below what is no directory. -/
theorem listYamlFiles_of_not_directory (proper : t.isProper = true)
    (elsewhere : t.isDirectory dir = false) : t.listYamlFiles dir = .ok [] := by
  have nothing : ∀ l held, held ≠ .nothing → ¬ t.Shows dir l held := by
    rintro l held something ⟨inner, -, here, located, rfl⟩
    have inside := isDirectory_of_locate located (standing_above something inner)
    rw [elsewhere] at inside
    cases inside
  refine listYamlFiles_eq_ok.mpr ⟨(exists_enterBelow proper).mpr ?_, ?_⟩
  · intro l shows
    exact absurd shows (nothing l _ (by simp))
  · rw [List.eq_nil_iff_forall_not_mem]
    intro file member
    obtain ⟨l, ⟨⟨content, shows⟩, -⟩, -⟩ := (mem_yamlFiles proper).mp member
    exact nothing l _ (by simp) shows

/-- The YAML files below a directory are listed if and only if no directory that has to be entered
has too long a path. The list has the visible files with the extension, at any depth, each once and
in strict order of the steps; it is empty for what is no directory; and it stays the same if the
entries of any directories stand in another order. -/
theorem yaml_files_collected (proper : t.isProper = true) (dir : Path) :
    ((∃ files, t.listYamlFiles dir = .ok files) ↔ ∀ l, t.Shows dir l .directory → Fits dir l) ∧
    (∀ files, t.listYamlFiles dir = .ok files →
      (∀ file, file ∈ files ↔
        ∃ l, t.Collects dir l ∧ file = dir.below l ∧ file.steps = dir.steps ++ l) ∧
      files.Nodup ∧ files.Pairwise fun a b => List.Lex (· < ·) a.steps b.steps) ∧
    (t.isDirectory dir = false → t.listYamlFiles dir = .ok []) ∧
    ∀ es fs, t = .directory es → Node.Reordered es fs →
      (Tree.listYamlFiles (.directory fs) dir).toOption = (t.listYamlFiles dir).toOption := by
  refine ⟨?_, ?_, ?_, ?_⟩
  · rw [← exists_enterBelow proper]
    simp only [listYamlFiles_eq_ok, exists_and_left, exists_eq', and_true]
  · intro files listed
    obtain ⟨-, rfl⟩ := listYamlFiles_eq_ok.mp listed
    have sorted := pairwise_yamlFiles proper dir
    refine ⟨fun file => mem_yamlFiles proper, sorted.imp ?_, sorted⟩
    rintro a b before rfl
    exact Location.not_lex_of_lex before before
  · intro elsewhere
    exact listYamlFiles_of_not_directory proper elsewhere
  · rintro es fs rfl reordered
    have same := reordered.sameBelow proper
    have proper' : Node.isProper (.directory fs) = true := same.proper
    exact toOption_listYamlFiles_congr proper' proper (fun l => (same.stands l).symm) dir

private def plainFile : String × Node := ("a.yaml", .file [])

private def nestedFile : String × Node := ("nested", .directory [("b.yaml", .file [])])

private def notes (first second : String × Node) : Tree :=
  .directory [("d", .directory [first, second, (".hidden", .directory [("c.yaml", .file [])]),
    ("notes.txt", .file [])])]

/-- Two files are listed below a directory, in either order of its entries, but not the one with
another extension nor the one in a hidden directory; nothing is listed below a directory that is
missing. -/
theorem yaml_files_collected_sample : (notes plainFile nestedFile).isProper = true ∧
    (notes plainFile nestedFile).listYamlFiles ⟨"/d"⟩ =
      .ok [⟨"/d/a.yaml"⟩, ⟨"/d/nested/b.yaml"⟩] ∧
    (∀ l, (notes plainFile nestedFile).Shows ⟨"/d"⟩ l .directory → Fits ⟨"/d"⟩ l) ∧
    ((notes nestedFile plainFile).listYamlFiles ⟨"/d"⟩).toOption =
      some [⟨"/d/a.yaml"⟩, ⟨"/d/nested/b.yaml"⟩] ∧
    (notes plainFile nestedFile).listYamlFiles ⟨"/missing"⟩ = .ok [] := by
  have proper : (notes plainFile nestedFile).isProper = true := by decide
  have entered : ((notes plainFile nestedFile).enterBelow ⟨"/d"⟩).toOption =
      some [["d", "nested"]] := by decide
  have found : yamlFilesIn ((notes plainFile nestedFile).entriesOf ⟨"/d"⟩) =
      [["a.yaml"], ["nested", "b.yaml"]] := by decide
  have sorted : [["a.yaml"], ["nested", "b.yaml"]].Pairwise
      fun l m => Location.le l m = true := by decide
  have listed : (notes plainFile nestedFile).listYamlFiles ⟨"/d"⟩ =
      .ok [⟨"/d/a.yaml"⟩, ⟨"/d/nested/b.yaml"⟩] := by
    refine listYamlFiles_eq_ok.mpr ⟨⟨_, Outcome.eq_ok_of_toOption entered⟩, ?_⟩
    rw [yamlFiles, yamlLocations, found, List.mergeSort_of_pairwise sorted]
    rfl
  obtain ⟨fits, -, -, reordered⟩ := yaml_files_collected proper ⟨"/d"⟩
  have other := reordered _ _ rfl (.directory .swap .nil)
  rw [listed] at other
  exact ⟨proper, listed, fits.mp ⟨_, listed⟩, other,
    (yaml_files_collected proper ⟨"/missing"⟩).2.2.1 (by decide)⟩

/-- A directory in the root with a file in it. -/
private def holding (name : String) : Tree := .directory [(name, .directory [("x.yaml", .file [])])]

/-- The root, spelled with slashes that make no steps. -/
private def slashes (n : Nat) : Path := ⟨String.ofList (List.replicate n '/')⟩

private def letters (n : Nat) : String := String.ofList (List.replicate n 'a')

private theorem utf8ByteSize_replicate (n : Nat) (c : Char) :
    (String.ofList (List.replicate n c)).utf8ByteSize = n * c.utf8Size := by
  induction n with
  | zero => simp
  | succ n ih =>
    rw [List.replicate_succ, String.ofList_cons, String.utf8ByteSize_append, ih,
      String.utf8ByteSize_singleton, Nat.succ_mul, Nat.add_comm]

private theorem size_slashes (n : Nat) : (slashes n).text.utf8ByteSize = n := by
  have one : '/'.utf8Size = 1 := by decide
  rw [slashes, utf8ByteSize_replicate, one, Nat.mul_one]

private theorem size_letters (n : Nat) : (letters n).utf8ByteSize = n := by
  have one : 'a'.utf8Size = 1 := by decide
  rw [letters, utf8ByteSize_replicate, one, Nat.mul_one]

private theorem head?_letters (n : Nat) : (letters (n + 1)).toList.head? = some 'a' := by
  rw [letters, String.toList_ofList, List.replicate_succ, List.head?_cons]

private theorem plain_letters (n : Nat) : Plain (letters (n + 1)) := by
  have differs : ∀ name : String, name.toList.head? ≠ some 'a' → letters (n + 1) ≠ name := by
    rintro name other rfl
    exact other (head?_letters n)
  refine ⟨differs _ (by decide), ?_, differs _ (by decide), differs _ (by decide)⟩
  intro slash
  rw [letters, String.toList_ofList] at slash
  exact absurd (List.eq_of_mem_replicate slash) (by decide)

private theorem isHidden_letters (n : Nat) : isHidden (letters (n + 1)) = false := by
  rw [isHidden, head?_letters]
  rfl

private theorem allSteps_slashes (n : Nat) : (slashes n).allSteps = [] := by
  have pieces : ∀ n : Nat, (Text.split '/' (List.replicate n '/')).filter (!·.isEmpty) = [] := by
    intro n
    induction n with
    | zero => rfl
    | succ n ih =>
      have cut := Text.split_append_cut '/' [] (List.replicate n '/')
      rw [List.replicate_succ, ← List.nil_append ('/' :: _), cut, List.filter_append, ih]
      rfl
  rw [slashes, Path.allSteps, String.toList_ofList, pieces, List.map_nil]

private theorem locate_slashes {n : Nat} (room : n ≤ maxPathLength) (es : List (String × Node)) :
    Tree.locate (.directory es) (slashes n) = .ok [] := by
  have clean : Char.ofNat 0 ∉ (slashes n).text.toList := by
    rw [slashes, String.toList_ofList]
    intro member
    exact absurd (List.eq_of_mem_replicate member) (by decide)
  refine locateSteps_eq_ok.mpr ⟨⟨clean, by rwa [size_slashes]⟩, ?_⟩
  rw [allSteps_slashes, List.nil_append]
  split_ifs <;> rfl

private theorem unlisted_holding {name : String} {n : Nat} (plain : Plain name)
    (shown : isHidden name = false) (room : n ≤ maxPathLength)
    (long : maxPathLength < n + name.utf8ByteSize) :
    (holding name).isProper = true ∧ (holding name).isDirectory (slashes n) = true ∧
      (holding name).Collects (slashes n) [name, "x.yaml"] ∧
      ∀ files, (holding name).listYamlFiles (slashes n) ≠ .ok files := by
  have proper : (holding name).isProper = true :=
    Node.areProper_cons.mpr ⟨plain, by simp, by decide, rfl⟩
  have located := locate_slashes room [(name, .directory [("x.yaml", .file [])])]
  have inside : (holding name).Shows (slashes n) [name] .directory := by
    refine ⟨List.cons_ne_nil _ _, List.forall_mem_singleton.mpr shown, [], located, ?_⟩
    exact standing_eq_directory.mpr
      ⟨[("x.yaml", .file [])], by simp [holding, Node.at?, Node.entries, Node.child?]⟩
  have there : (holding name).Shows (slashes n) [name, "x.yaml"] (.file []) := by
    refine ⟨List.cons_ne_nil _ _, ?_, [], located, ?_⟩
    · exact List.forall_mem_cons.mpr ⟨shown, List.forall_mem_singleton.mpr (by decide)⟩
    · exact standing_eq_file.mpr (by simp [holding, Node.at?, Node.entries, Node.child?])
  have extended : HasExtension "x.yaml" "yaml" :=
    (hasExtension_yaml_iff (by decide)).mpr (by decide)
  refine ⟨proper, isDirectory_of_locate located rfl,
    ⟨⟨[], there⟩, [name], "x.yaml", rfl, extended⟩, ?_⟩
  intro files listed
  have fits := (exists_enterBelow proper).mp (listYamlFiles_eq_ok.mp listed).1 _ inside
  have short := fits.1.short
  rw [Path.below_singleton] at short
  rcases Path.text_join (slashes n) plain with ⟨text, -⟩ | text
  all_goals
    rw [text] at short
    simp only [String.utf8ByteSize_append, size_slashes] at short
    omega

/-- A file is not listed if it is in a directory of which the path is too long. -/
theorem yaml_files_uncollected : (holding (letters 200)).isProper = true ∧
    (holding (letters 200)).isDirectory (slashes 4000) = true ∧
    (holding (letters 200)).Collects (slashes 4000) [letters 200, "x.yaml"] ∧
    ∀ files, (holding (letters 200)).listYamlFiles (slashes 4000) ≠ .ok files :=
  unlisted_holding (plain_letters 199) (isHidden_letters 199) (by decide)
    (by rw [size_letters]; decide)

end Tree

end Runbook.Files
