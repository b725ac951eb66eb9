import Mathlib.Data.List.Nodup
import Runbook.Files.Listing
import Runbook.Proofs.Files.Names

set_option autoImplicit false
set_option relaxedAutoImplicit false

/-!
What is listed below a directory. In a proper tree the YAML files are listed each once, and their
names without the ending are all different, as a location can be told from its text. A path with
these names taken one after the other leads to the file.
-/

namespace Runbook.Files

open Runbook.Text (Bytes)

variable {name stem : String}

theorem yamlStem?_eq_some : yamlStem? name = some stem ↔ name = stem ++ yamlEnding := by
  unfold yamlStem?
  rw [Option.map_eq_some_iff]
  constructor
  · rintro ⟨front, ends, rfl⟩
    rw [← String.toList_inj, Text.dropEnding?_eq_some.mp ends]
    simp
  · rintro rfl
    exact ⟨stem.toList, Text.dropEnding?_eq_some.mpr String.toList_append, String.ofList_toList⟩

theorem yamlStem?_append (stem : String) : yamlStem? (stem ++ yamlEnding) = some stem :=
  yamlStem?_eq_some.mpr rfl

theorem length_append_yamlEnding (name : String) :
    (name ++ yamlEnding).length = name.length + 5 := by
  rw [String.length_append]
  rfl

/-- A name without the ending gets it, and a name that has it gets no second one. -/
theorem withYamlEnding_eq_append : withYamlEnding name = name ++ yamlEnding ↔
    yamlStem? name = none := by
  unfold withYamlEnding
  cases ends : yamlStem? name with
  | none => simp
  | some stem =>
    have longer : name ≠ name ++ yamlEnding := by
      intro same
      have sizes := congrArg String.length same
      rw [length_append_yamlEnding] at sizes
      omega
    simp [longer]

/-- To take the ending from a name and to give it back is to add one if and only if it had none. -/
theorem withYamlEnding_yamlStem : withYamlEnding (yamlStem name) = name ++ yamlEnding ↔
    yamlStem? name = none := by
  unfold yamlStem
  cases cut : yamlStem? name with
  | none => rw [Option.getD_none, withYamlEnding_eq_append, cut]
  | some stem =>
    have named : name = stem ++ yamlEnding := yamlStem?_eq_some.mp cut
    have shorter : withYamlEnding stem ≠ name ++ yamlEnding := by
      intro same
      have sizes := congrArg String.length same
      rw [withYamlEnding, named] at sizes
      split_ifs at sizes <;> simp only [length_append_yamlEnding] at sizes <;> omega
    simp [shorter]

theorem mem_sortNames {names : List String} {name : String} :
    name ∈ sortNames names ↔ name ∈ names :=
  List.mem_mergeSort

/-- Names that are all different are sorted strictly. -/
theorem pairwise_sortNames {names : List String} (h : names.Nodup) :
    (sortNames names).Pairwise (· < ·) := by
  have trans : ∀ a b c : String, decide (a ≤ b) = true → decide (b ≤ c) = true →
      decide (a ≤ c) = true := by
    intro a b c hab hbc
    rw [decide_eq_true_eq] at hab hbc ⊢
    exact String.le_trans hab hbc
  have total : ∀ a b : String, (decide (a ≤ b) || decide (b ≤ a)) = true := by
    intro a b
    rw [Bool.or_eq_true, decide_eq_true_eq, decide_eq_true_eq]
    exact String.le_total a b
  have sorted : (sortNames names).Pairwise fun a b => decide (a ≤ b) = true :=
    List.pairwise_mergeSort trans total names
  have different : (sortNames names).Nodup := (List.mergeSort_perm names _).nodup_iff.mpr h
  refine (sorted.and different).imp ?_
  rintro a b ⟨before, differs⟩
  exact String.not_le.mp fun after => differs (String.le_antisymm (of_decide_eq_true before) after)

/-- Whether the last name of a location has the ending of YAML files. -/
def Location.endsInYaml (l : Location) : Bool := l.getLast?.any fun name => (yamlStem? name).isSome

namespace Node

theorem ne_nil_of_mem_visibleAt {node n : Node} {l : Location} (h : (l, n) ∈ visibleAt name node) :
    l ≠ [] := by
  cases node with
  | file content =>
    rw [visibleAt, List.mem_singleton, Prod.mk.injEq] at h
    simp [h.1]
  | directory es =>
    rw [visibleAt, List.mem_cons, List.mem_map] at h
    rcases h with same | ⟨⟨below, m⟩, -, same⟩
    · simp [(Prod.mk.inj same).1]
    · simp [← (Prod.mk.inj same).1]

theorem ne_nil_of_mem_visibleIn {es : List (String × Node)} {n : Node} {l : Location}
    (h : (l, n) ∈ visibleIn es) : l ≠ [] := by
  induction es with
  | nil => cases h
  | cons e es ih =>
    rw [visibleIn, List.mem_append] at h
    rcases h with first | later
    · split_ifs at first
      · cases first
      · exact ne_nil_of_mem_visibleAt first
    · exact ih later

mutual

/-- What is visible of a node is what stands below it and has no hidden name to lead to it. -/
theorem mem_visibleAt : ∀ (name : String) (node : Node) (l : Location) (n : Node),
    node.isProper = true → ((l, n) ∈ visibleAt name node ↔ ∃ below, l = name :: below ∧
      node.at? below = some n ∧ ∀ step ∈ below, isHidden step = false)
  | name, .file content, l, n, _ => by
    rw [visibleAt, List.mem_singleton, Prod.mk.injEq]
    constructor
    · rintro ⟨rfl, rfl⟩
      exact ⟨[], rfl, rfl, by simp⟩
    · rintro ⟨below, rfl, there, -⟩
      cases below with
      | nil => exact ⟨rfl, (Option.some.inj there).symm⟩
      | cons first below => simp [at?, entries, child?] at there
  | name, .directory es, l, n, proper => by
    rw [visibleAt, List.mem_cons, List.mem_map]
    constructor
    · rintro (same | ⟨⟨below, m⟩, member, same⟩)
      · obtain ⟨rfl, rfl⟩ := Prod.mk.inj same
        exact ⟨[], rfl, rfl, by simp⟩
      · obtain ⟨rfl, rfl⟩ := Prod.mk.inj same
        obtain ⟨-, there, shown⟩ := (mem_visibleIn es below m proper).mp member
        exact ⟨below, rfl, there, shown⟩
    · rintro ⟨below, rfl, there, shown⟩
      cases below with
      | nil => exact .inl (by rw [Option.some.inj there])
      | cons first below =>
        exact .inr ⟨(first :: below, n),
          (mem_visibleIn es _ n proper).mpr ⟨List.cons_ne_nil first below, there, shown⟩, rfl⟩

theorem mem_visibleIn : ∀ (es : List (String × Node)) (l : Location) (n : Node),
    areProper es = true → ((l, n) ∈ visibleIn es ↔
      l ≠ [] ∧ at? (.directory es) l = some n ∧ ∀ step ∈ l, isHidden step = false)
  | [], l, n, _ => by
    rw [visibleIn]
    cases l <;> simp [at?, entries, child?]
  | (name, node) :: rest, l, n, proper => by
    obtain ⟨-, other, inside, later⟩ := areProper_cons.mp proper
    -- The first entry is found under its name alone, and the later ones under other names.
    have here : ∀ below, at? (.directory ((name, node) :: rest)) (name :: below) =
        node.at? below := by
      intro below
      simp [at?, entries, child?]
    have elsewhere : ∀ first below, name ≠ first →
        at? (.directory ((name, node) :: rest)) (first :: below) =
          at? (.directory rest) (first :: below) := by
      intro first below differs
      simp [at?, entries, child?, differs]
    rw [visibleIn, List.mem_append]
    constructor
    · rintro (first | later')
      · split_ifs at first with hidden
        · cases first
        · obtain ⟨below, rfl, there, shown⟩ := (mem_visibleAt name node l n inside).mp first
          exact ⟨List.cons_ne_nil name below, (here below).trans there,
            List.forall_mem_cons.mpr ⟨Bool.eq_false_iff.mpr hidden, shown⟩⟩
      · obtain ⟨inner, there, shown⟩ := (mem_visibleIn rest l n later).mp later'
        obtain ⟨first, below, rfl⟩ := List.exists_cons_of_ne_nil inner
        refine ⟨inner, (elsewhere first below ?_).trans there, shown⟩
        rintro rfl
        obtain ⟨child, found, -⟩ := Option.bind_eq_some_iff.mp there
        exact other _ (Tree.mem_of_child? found) rfl
    · rintro ⟨inner, there, shown⟩
      obtain ⟨first, below, rfl⟩ := List.exists_cons_of_ne_nil inner
      obtain ⟨visible, shown'⟩ := List.forall_mem_cons.mp shown
      by_cases same : name = first
      · subst same
        refine .inl ?_
        rw [if_neg (by simp [visible])]
        exact (mem_visibleAt name node _ n inside).mpr
          ⟨below, rfl, (here below).symm.trans there, shown'⟩
      · exact .inr ((mem_visibleIn rest _ n later).mpr
          ⟨inner, (elsewhere first below same).symm.trans there, shown⟩)

end

mutual

theorem nodup_visibleAt : ∀ (name : String) (node : Node), node.isProper = true →
    ((visibleAt name node).map (·.1)).Nodup
  | name, .file content, _ => by
    rw [visibleAt]
    simp
  | name, .directory es, proper => by
    have below : ((visibleIn es).map fun e => name :: e.1).Nodup := by
      have inner := (nodup_visibleIn es proper).map (List.cons_injective (a := name))
      rwa [List.map_map] at inner
    rw [visibleAt, List.map_cons, List.map_map, List.nodup_cons]
    refine ⟨?_, below⟩
    intro again
    obtain ⟨⟨l, n⟩, member, same⟩ := List.mem_map.mp again
    exact ne_nil_of_mem_visibleIn member (List.cons.inj same).2

theorem nodup_visibleIn : ∀ es : List (String × Node), areProper es = true →
    ((visibleIn es).map (·.1)).Nodup
  | [], _ => .nil
  | (name, node) :: rest, proper => by
    obtain ⟨-, other, inside, later⟩ := areProper_cons.mp proper
    have first : ((if isHidden name then [] else visibleAt name node).map (·.1)).Nodup := by
      split_ifs
      · exact .nil
      · exact nodup_visibleAt name node inside
    rw [visibleIn, List.map_append]
    refine first.append (nodup_visibleIn rest later) ?_
    intro l listed again
    obtain ⟨⟨_, n⟩, member, rfl⟩ := List.mem_map.mp listed
    obtain ⟨⟨_, m⟩, member', same⟩ := List.mem_map.mp again
    split_ifs at member
    · cases member
    · obtain ⟨below, rfl, -⟩ := (mem_visibleAt name node _ n inside).mp member
      obtain rfl : _ = name :: below := same
      obtain ⟨-, there, -⟩ := (mem_visibleIn rest _ m later).mp member'
      obtain ⟨child, found, -⟩ := Option.bind_eq_some_iff.mp there
      exact other _ (Tree.mem_of_child? found) rfl

end

mutual

/-- The YAML files that are listed are the visible files that have the ending. -/
theorem yamlFilesAt_eq : ∀ (name : String) (node : Node), yamlFilesAt name node =
    ((visibleAt name node).filter fun e => e.2.isFile && e.1.endsInYaml).map (·.1)
  | name, .file content => by
    have single : Location.endsInYaml [name] = (yamlStem? name).isSome := rfl
    by_cases ends : (yamlStem? name).isSome = true <;>
      simp [yamlFilesAt, visibleAt, isFile, single, ends]
  | name, .directory es => by
    have below : ∀ e ∈ visibleIn es, (e.2.isFile && Location.endsInYaml (name :: e.1)) =
        (e.2.isFile && Location.endsInYaml e.1) := by
      intro e member
      obtain ⟨first, rest, inner⟩ := List.exists_cons_of_ne_nil (ne_nil_of_mem_visibleIn member)
      rw [inner]
      rfl
    rw [yamlFilesAt, visibleAt, List.filter_cons_of_neg (by simp [isFile]), List.filter_map,
      List.map_map, yamlFilesIn_eq es, List.map_map, ← List.filter_congr below]
    rfl

theorem yamlFilesIn_eq : ∀ es : List (String × Node), yamlFilesIn es =
    ((visibleIn es).filter fun e => e.2.isFile && e.1.endsInYaml).map (·.1)
  | [] => rfl
  | (name, node) :: rest => by
    rw [yamlFilesIn, visibleIn, List.filter_append, List.map_append, yamlFilesIn_eq rest]
    split_ifs
    · rfl
    · rw [yamlFilesAt_eq name node]

end

end Node


namespace Location

variable {l m : Location}

/-- The name under which a YAML file is listed. -/
def listedName (l : Location) : String := yamlStem ("/".intercalate l)

theorem endsInYaml_eq_true : l.endsInYaml = true ↔
    ∃ above stem, l = above ++ [stem ++ yamlEnding] := by
  unfold endsInYaml
  rw [Option.any_eq_true]
  constructor
  · rintro ⟨last, ended, ends⟩
    obtain ⟨stem, named⟩ := Option.isSome_iff_exists.mp ends
    obtain ⟨above, rfl⟩ := List.getLast?_eq_some_iff.mp ended
    exact ⟨above, stem, by rw [yamlStem?_eq_some.mp named]⟩
  · rintro ⟨above, stem, rfl⟩
    exact ⟨stem ++ yamlEnding, List.getLast?_concat, by rw [yamlStem?_append]; rfl⟩

/-- The text of the location of a YAML file is the name it is listed under, with the ending. -/
theorem intercalate_eq_listedName (ends : l.endsInYaml = true) :
    "/".intercalate l = l.listedName ++ yamlEnding := by
  obtain ⟨above, stem, rfl⟩ := endsInYaml_eq_true.mp ends
  obtain ⟨front, text⟩ : ∃ front, "/".intercalate (above ++ [stem ++ yamlEnding]) =
      front ++ yamlEnding := by
    by_cases top : above = []
    · exact ⟨stem, by rw [top]; simp⟩
    · refine ⟨"/".intercalate above ++ "/" ++ stem, ?_⟩
      rw [String.intercalate_append_of_ne_nil top (by simp), String.intercalate_singleton,
        String.append_assoc, String.append_assoc, String.append_assoc]
  unfold listedName
  rw [text, yamlStem, yamlStem?_append, Option.getD_some]

private theorem split_intercalate (plain : ∀ name ∈ l, Plain name) (inner : l ≠ []) :
    Text.split '/' ("/".intercalate l).toList = l.map String.toList := by
  induction l with
  | nil => exact absurd rfl inner
  | cons name rest ih =>
    have noSlash := (plain name List.mem_cons_self).noSlash
    cases rest with
    | nil => rw [String.intercalate_singleton, Text.split_eq_singleton noSlash]; rfl
    | cons next rest =>
      have later : ∀ other ∈ next :: rest, Plain other := fun other member =>
        plain other (List.mem_cons_of_mem name member)
      have text : ("/".intercalate (name :: next :: rest)).toList =
          name.toList ++ '/' :: ("/".intercalate (next :: rest)).toList := by
        simp
      rw [text, Text.split_append_cut, Text.split_eq_singleton noSlash, ih later (by simp)]
      rfl

/-- Locations of plain names are told apart by their texts. -/
theorem intercalate_inj (plain : ∀ name ∈ l, Plain name) (plain' : ∀ name ∈ m, Plain name)
    (inner : l ≠ []) (inner' : m ≠ []) (same : "/".intercalate l = "/".intercalate m) : l = m := by
  have pieces := split_intercalate plain inner
  rw [same, split_intercalate plain' inner'] at pieces
  exact (List.map_injective_iff.mpr (fun _ _ => String.toList_injective) pieces).symm

end Location

namespace Path

variable {p : Path}

/-- The path of a location below a directory. -/
def below (p : Path) (l : Location) : Path := l.foldl Path.join p

theorem below_concat (p : Path) (l : Location) (name : String) :
    p.below (l ++ [name]) = (p.below l).join name := by
  simp [below]

theorem below_singleton (p : Path) (name : String) : p.below [name] = p.join name := rfl

private theorem head?_append_ne_slash {name : String} (plain : Plain name) (rest : String) :
    ((name ++ rest).toList.head? == some '/') = false := by
  have nonempty : name.toList ≠ [] := by simpa using plain.nonempty
  rw [String.toList_append, List.head?_append_of_ne_nil _ nonempty]
  exact head?_ne_slash plain

/-- The text of a location is not that of a path from the top. -/
theorem head?_intercalate_ne_slash {l : Location} (plain : ∀ name ∈ l, Plain name)
    (inner : l ≠ []) : (("/".intercalate l).toList.head? == some '/') = false := by
  cases l with
  | nil => exact absurd rfl inner
  | cons name rest =>
    have first : Plain name := plain name List.mem_cons_self
    cases rest with
    | nil => rw [String.intercalate_singleton]; exact head?_ne_slash first
    | cons next rest =>
      rw [String.intercalate_cons_cons, String.append_assoc]
      exact head?_append_ne_slash first _

private theorem join_append {name rest : String} (plain : Plain name)
    (relative : (rest.toList.head? == some '/') = false) :
    p.join (name ++ ("/" ++ rest)) = (p.join name).join rest := by
  have open_ : (p.join name).text.toList.getLast?.all (· == '/') = false := by
    have kept := hasEndingSlash_join p plain
    unfold hasEndingSlash at kept
    cases last : (p.join name).text.toList.getLast? with
    | none => rcases text_join p plain with ⟨text, -⟩ | text <;> simp [text, plain.nonempty] at last
    | some d => simpa [last] using kept
  have joined : (p.join name).join rest = ⟨(p.join name).text ++ "/" ++ rest⟩ := by
    rw [join, relative, open_]
    rfl
  rw [joined]
  unfold join
  rw [head?_append_ne_slash plain, head?_ne_slash plain]
  by_cases ends : p.text.toList.getLast?.all (· == '/') = true
  · simp [ends, String.append_assoc]
  · simp [ends, String.append_assoc]

/-- To take names from a directory one after the other is to take their text at once. -/
theorem join_intercalate {l : Location} (plain : ∀ name ∈ l, Plain name) (inner : l ≠ []) :
    p.join ("/".intercalate l) = p.below l := by
  induction l generalizing p with
  | nil => exact absurd rfl inner
  | cons name rest ih =>
    cases rest with
    | nil => rw [String.intercalate_singleton, below_singleton]
    | cons next rest =>
      have later : ∀ other ∈ next :: rest, Plain other := fun other member =>
        plain other (List.mem_cons_of_mem name member)
      rw [String.intercalate_cons_cons, String.append_assoc,
        join_append (plain name List.mem_cons_self) (head?_intercalate_ne_slash later (by simp)),
        ih later (by simp)]
      rfl

end Path

namespace Tree

variable {t : Tree} {p dir : Path} {l here : Location}

/-- Whether a path leads to the file at a location below a directory, and its content is read. -/
def Finds (t : Tree) (file dir : Path) (l : Location) : Prop :=
  ∃ here content, t.locate dir = .ok here ∧ t.locate file = .ok (here ++ l) ∧
    t.standing (here ++ l) = .file content ∧ t.read file = .ok content

/-- Whether neither the path of a location below a directory nor a name in it is too long. -/
def Fits (dir : Path) (l : Location) : Prop := (dir.below l).Acceptable ∧ ∀ name ∈ l, IsShort name

/-- A location below a directory is found by its path, if that is not too long. -/
theorem locate_below (plain : ∀ name ∈ l, Plain name) (fits : Fits dir l)
    (located : t.locate dir = .ok here) (there : t.standing (here ++ l) ≠ .nothing) :
    t.locate (dir.below l) = .ok (here ++ l) := by
  induction l using List.reverseRecOn with
  | nil => simpa [Path.below] using located
  | append_singleton above name ih =>
    have last : Plain name := plain name (by simp)
    have inside : t.standing (here ++ above) = .directory :=
      standing_above (by rwa [List.append_assoc]) (List.cons_ne_nil name [])
    have accepted := fits.1
    rw [Path.below_concat] at accepted
    have walked := ih (fun other member => plain other (List.mem_append_left _ member))
      ⟨accepted.of_join last, fun other member => fits.2 other (List.mem_append_left _ member)⟩
      (by simp [inside])
    rw [Path.below_concat, ← List.append_assoc]
    exact locate_join last (fits.2 name (by simp)) accepted walked inside

theorem fits_of_locate (plain : ∀ name ∈ l, Plain name) {m : Location}
    (h : t.locate (dir.below l) = .ok m) : Fits dir l := by
  induction l using List.reverseRecOn generalizing m with
  | nil =>
    unfold locate at h
    exact ⟨(locateSteps_eq_ok.mp h).1, by simp⟩
  | append_singleton above name ih =>
    have last : Plain name := plain name (by simp)
    rw [Path.below_concat] at h
    obtain ⟨accepted, -, -, short, -⟩ := (locate_join_eq_ok last).mp h
    obtain ⟨-, shorts⟩ := ih (fun other member => plain other (List.mem_append_left _ member))
      (locate_of_locate_join last h)
    refine ⟨by rwa [Path.below_concat], ?_⟩
    intro other member
    rcases List.mem_append.mp member with above | here
    · exact shorts other above
    · rwa [List.mem_singleton.mp here]

/-- A file below a directory is found by its path if and only if that is not too long. -/
theorem finds_below_iff (plain : ∀ name ∈ l, Plain name) {content : Bytes}
    (located : t.locate dir = .ok here) (there : t.standing (here ++ l) = .file content) :
    t.Finds (dir.below l) dir l ↔ Fits dir l := by
  constructor
  · rintro ⟨_, _, -, found, -⟩
    exact fits_of_locate plain found
  · intro fits
    have found := locate_below plain fits located (by simp [there])
    exact ⟨here, content, located, found, there, (read_of_locate found there).2⟩

theorem Finds.isFile {file : Path} (h : t.Finds file dir l) : t.isFile file = true := by
  obtain ⟨here, content, -, found, there, -⟩ := h
  exact (read_of_locate found there).1

/-- What is below the entries of a directory is what is below the directory. -/
theorem at?_entriesOf {n : Node} (inner : l ≠ []) :
    Node.at? (.directory (t.entriesOf dir)) l = some n ↔
      ∃ here, t.locate dir = .ok here ∧ t.at? (here ++ l) = some n := by
  obtain ⟨name, rest, rfl⟩ := List.exists_cons_of_ne_nil inner
  have nowhere : Node.at? (.directory []) (name :: rest) ≠ some n := by
    simp [Node.at?, Node.entries, Node.child?]
  rw [entriesOf, node?]
  cases located : t.locate dir with
  | error fault => simpa [Except.toOption] using nowhere
  | ok here =>
    simp only [Except.toOption, Option.bind_some, Except.ok.injEq, at?_append, exists_eq_left']
    cases t.at? here with
    | none => simpa using nowhere
    | some node =>
      cases node with
      | file held => simp [Node.entries, Node.at?, Node.child?]
      | directory es => rfl

theorem areProper_entriesOf (proper : t.isProper = true) (dir : Path) :
    Node.areProper (t.entriesOf dir) = true := by
  rw [entriesOf, node?]
  cases located : t.locate dir with
  | error fault => rfl
  | ok here =>
    rw [Except.toOption, Option.bind_some]
    cases there : t.at? here with
    | none => rfl
    | some node =>
      have inside := isProper_of_at? proper there
      cases node with
      | file held => rfl
      | directory es => exact inside

/-- What is visible below a directory has no hidden name to lead to it. -/
theorem mem_visibleIn_entriesOf {n : Node} (proper : t.isProper = true) :
    (l, n) ∈ visibleIn (t.entriesOf dir) ↔ l ≠ [] ∧ (∀ step ∈ l, isHidden step = false) ∧
      ∃ here, t.locate dir = .ok here ∧ t.at? (here ++ l) = some n := by
  rw [Node.mem_visibleIn _ _ _ (areProper_entriesOf proper dir)]
  constructor
  · rintro ⟨inner, there, shown⟩
    exact ⟨inner, shown, (at?_entriesOf inner).mp there⟩
  · rintro ⟨inner, shown, there⟩
    exact ⟨inner, (at?_entriesOf inner).mpr there, shown⟩

/-- The YAML files that are listed below a directory are those to which no hidden name leads. -/
theorem mem_yamlLocations (proper : t.isProper = true) : l ∈ t.yamlLocations dir ↔
    ∃ here content, t.locate dir = .ok here ∧ t.standing (here ++ l) = .file content ∧
      (∀ step ∈ l, isHidden step = false) ∧ l.endsInYaml = true := by
  rw [yamlLocations, List.mem_mergeSort, Node.yamlFilesIn_eq, List.mem_map]
  simp only [standing_eq_file]
  constructor
  · rintro ⟨⟨_, n⟩, member, rfl⟩
    obtain ⟨member, kept⟩ := List.mem_filter.mp member
    obtain ⟨file, ends⟩ := Bool.and_eq_true_iff.mp kept
    obtain ⟨-, shown, here, located, there⟩ := (mem_visibleIn_entriesOf proper).mp member
    cases n with
    | directory es => cases file
    | file content => exact ⟨here, content, located, there, shown, ends⟩
  · rintro ⟨here, content, located, there, shown, ends⟩
    have inner : l ≠ [] := by
      rintro rfl
      cases ends
    refine ⟨(l, .file content), List.mem_filter.mpr ⟨?_, ?_⟩, rfl⟩
    · exact (mem_visibleIn_entriesOf proper).mpr ⟨inner, shown, here, located, there⟩
    · exact Bool.and_eq_true_iff.mpr ⟨rfl, ends⟩

theorem nodup_yamlLocations (proper : t.isProper = true) (dir : Path) :
    (t.yamlLocations dir).Nodup := by
  rw [yamlLocations, (List.mergeSort_perm _ _).nodup_iff, Node.yamlFilesIn_eq]
  exact (Node.nodup_visibleIn _ (areProper_entriesOf proper dir)).sublist (List.filter_sublist.map _)

theorem plain_of_mem_yamlLocations (proper : t.isProper = true) (h : l ∈ t.yamlLocations dir) :
    ∀ step ∈ l, Plain step := by
  obtain ⟨here, content, -, there, -⟩ := (mem_yamlLocations proper).mp h
  intro step member
  exact Node.plain_of_at? proper (standing_eq_file.mp there) step (List.mem_append_right here member)

theorem mem_yamlNames : name ∈ t.yamlNames dir ↔ ∃ l ∈ t.yamlLocations dir, l.listedName = name := by
  unfold yamlNames
  rw [mem_sortNames, List.mem_map]
  rfl

/-- Two YAML files below a directory are listed under two names. -/
theorem listedName_inj (proper : t.isProper = true) {m : Location} (h : l ∈ t.yamlLocations dir)
    (k : m ∈ t.yamlLocations dir) (same : l.listedName = m.listedName) : l = m := by
  have proper_end : ∀ {l}, l ∈ t.yamlLocations dir → l.endsInYaml = true ∧ l ≠ [] := by
    intro l member
    obtain ⟨-, -, -, -, -, ends⟩ := (mem_yamlLocations proper).mp member
    refine ⟨ends, ?_⟩
    rintro rfl
    cases ends
  obtain ⟨ends, inner⟩ := proper_end h
  obtain ⟨ends', inner'⟩ := proper_end k
  refine Location.intercalate_inj (plain_of_mem_yamlLocations proper h)
    (plain_of_mem_yamlLocations proper k) inner inner' ?_
  rw [Location.intercalate_eq_listedName ends, Location.intercalate_eq_listedName ends', same]

theorem nodup_yamlNames (proper : t.isProper = true) (dir : Path) : (t.yamlNames dir).Nodup := by
  unfold yamlNames sortNames
  rw [(List.mergeSort_perm _ _).nodup_iff]
  exact (nodup_yamlLocations proper dir).map_on fun l h m k same => listedName_inj proper h k same

theorem mem_filesOf (proper : t.isProper = true) : name ∈ t.filesOf dir ↔
    ∃ here content, t.locate dir = .ok here ∧ t.standing (here ++ [name]) = .file content := by
  have child : ∀ node, (name, node) ∈ t.entriesOf dir ↔
      ∃ here, t.locate dir = .ok here ∧ t.at? (here ++ [name]) = some node := by
    intro node
    rw [← at?_entriesOf (List.cons_ne_nil name []), Node.at?, Node.entries]
    simp only [Node.at?, Option.bind_fun_some]
    constructor
    · intro member
      exact (Node.proper_of_mem (areProper_entriesOf proper dir) member).2.2
    · intro found
      exact mem_of_child? found
  simp only [filesOf, List.mem_map, List.mem_filter, standing_eq_file]
  constructor
  · rintro ⟨⟨_, node⟩, ⟨member, file⟩, rfl⟩
    obtain ⟨here, located, there⟩ := (child node).mp member
    cases node with
    | directory es => cases file
    | file content => exact ⟨here, content, located, there⟩
  · rintro ⟨here, content, located, there⟩
    exact ⟨(name, .file content), ⟨(child _).mpr ⟨here, located, there⟩, rfl⟩, rfl⟩

theorem nodup_filesOf (proper : t.isProper = true) (dir : Path) : (t.filesOf dir).Nodup :=
  (Node.nodup_names (areProper_entriesOf proper dir)).sublist (List.filter_sublist.map _)

end Tree

end Runbook.Files
