import Mathlib.Tactic.SplitIfs
import Runbook.Proofs.Files.Listing
import Runbook.Proofs.Session.Contexts

set_option autoImplicit false
set_option relaxedAutoImplicit false

/-!
Names of actions, flows and context variants. Each is listed for one file, and it addresses that file
unless it has the ending of YAML files itself, in which case it is taken for a name with its ending,
or is the empty name of a variant, which means the default one.
-/

namespace Runbook

open Runbook.Files

namespace Files

variable {t : Tree} {dir file p : Path} {name : String} {l : Location}

theorem Path.join_inj {a b : String} (relative : (a.toList.head? == some '/') = false)
    (relative' : (b.toList.head? == some '/') = false) : p.join a = p.join b ↔ a = b := by
  unfold join
  rw [relative, relative']
  by_cases ends : p.text.toList.getLast?.all (· == '/') = true <;>
    simp [ends, ← String.toList_inj]

/-- A name is taken from a directory if the name with the ending is. -/
theorem relative_withYamlEnding
    (h : ((name ++ yamlEnding).toList.head? == some '/') = false) :
    ((withYamlEnding name).toList.head? == some '/') = false := by
  unfold withYamlEnding
  split_ifs with ends
  · obtain ⟨stem, cut⟩ := Option.isSome_iff_exists.mp ends
    have nonempty : name.toList ≠ [] := by
      rw [yamlStem?_eq_some.mp cut]
      simp [yamlEnding]
    rwa [String.toList_append, List.head?_append_of_ne_nil _ nonempty] at h
  · exact h

/-- Whether a YAML file at a location below a directory is listed under a name. -/
def Tree.ListedAs (t : Tree) (dir : Path) (name : String) (l : Location) : Prop :=
  l ∈ t.yamlLocations dir ∧ l.listedName = name

/-- Whether a path is that of a location below a directory if and only if a name is free, in which
case it leads to the file there unless it is too long. -/
def Tree.Addresses (t : Tree) (dir file : Path) (l : Location) (free : Prop) : Prop :=
  (file = dir.below l ↔ free) ∧ (free → (t.Finds file dir l ↔ Tree.Fits dir l))

theorem Tree.addresses_of_listed (proper : t.isProper = true) (listed : name ∈ t.yamlNames dir) :
    ∃ l, (∀ m, t.ListedAs dir name m ↔ m = l) ∧
      t.Addresses dir (dir.join (withYamlEnding name)) l (yamlStem? name = none) := by
  obtain ⟨l, member, rfl⟩ := mem_yamlNames.mp listed
  have plain := plain_of_mem_yamlLocations proper member
  obtain ⟨here, content, located, there, -, ends⟩ := (mem_yamlLocations proper).mp member
  have inner : l ≠ [] := by
    rintro rfl
    cases ends
  have text := Location.intercalate_eq_listedName ends
  have relative : ((l.listedName ++ yamlEnding).toList.head? == some '/') = false := by
    rw [← text]
    exact Path.head?_intercalate_ne_slash plain inner
  have addressed : dir.join (withYamlEnding l.listedName) = dir.below l ↔
      yamlStem? l.listedName = none := by
    rw [← Path.join_intercalate plain inner, text,
      Path.join_inj (relative_withYamlEnding relative) relative, withYamlEnding_eq_append]
  refine ⟨l, ?_, addressed, ?_⟩
  · intro m
    constructor
    · rintro ⟨other, same⟩
      exact listedName_inj proper other member same
    · rintro rfl
      exact ⟨member, rfl⟩
  · intro free
    rw [addressed.mpr free]
    exact finds_below_iff plain located there

end Files

namespace Project

variable {p : Project} {t : Tree} {name context variant : String}

/-- The name of an action leads to its file, and the name is among the fields. -/
theorem action_of_isFile (h : t.isFile (p.actionFile name) = true) :
    p.action t name = (loadFields t (p.actionFile name)).map fun fields =>
      ⟨name, fields.insert "action_name" (.str name)⟩ := by
  unfold action actionData
  dsimp only
  rw [if_pos h]
  cases loadFields t (p.actionFile name) <;> rfl

theorem action_of_not_isFile (h : t.isFile (p.actionFile name) = false) :
    p.action t name = .error (.notFound .action name) := by
  unfold action actionData
  dsimp only
  rw [h]
  rfl

theorem flow_of_isFile (h : t.isFile (p.flowFile name) = true) :
    p.flow t name = loadFields t (p.flowFile name) >>= fun fields =>
      match Flow.ofFields? name fields with
      | some f => .ok f
      | none => .error (.malformed (p.flowFile name) .misshapen) := by
  unfold flow
  dsimp only
  rw [if_pos h]
  refine bind_congr fun fields => ?_
  cases Flow.ofFields? name fields <;> rfl

theorem contextVariables_of_isFile (h : t.isFile (p.variantFile name) = true) :
    p.contextVariables t name = loadFields t (p.variantFile name) := by
  unfold contextVariables
  dsimp only
  rw [if_pos h]

theorem variantFile_slash (plain : Plain context) : p.variantFile (context ++ "/" ++ variant) =
    (p.contextsPath.join context).join
      (withYamlEnding (if variant = "" then defaultVariant else yamlStem variant)) := by
  have text : (context ++ "/" ++ variant).toList = context.toList ++ '/' :: variant.toList := by
    simp
  unfold variantFile splitContextName
  rw [text, Text.splitOnce?_append plain.noSlash]
  cases named : variant.toList with
  | nil =>
    obtain rfl : variant = "" := by simpa using named
    simp
  | cons c cs =>
    have nonempty : variant ≠ "" := by
      rintro rfl
      cases named
    rw [← named]
    simp [nonempty]

/-- A variant has the file with the ending unless its name is empty or has the ending already. -/
theorem variantFile_eq_join (plain : Plain context) (plain' : Plain (variant ++ yamlEnding)) :
    p.variantFile (context ++ "/" ++ variant) =
        (p.contextsPath.join context).join (variant ++ yamlEnding) ↔
      variant ≠ "" ∧ yamlStem? variant = none := by
  have relative : ((variant ++ yamlEnding).toList.head? == some '/') = false :=
    Path.head?_ne_slash plain'
  rw [variantFile_slash plain]
  by_cases empty : variant = ""
  · subst empty
    have other : withYamlEnding defaultVariant ≠ "" ++ yamlEnding := by decide
    rw [if_pos rfl, Path.join_inj (by decide) relative]
    exact iff_of_false other fun free => free.1 rfl
  · have bare : ((yamlStem variant ++ yamlEnding).toList.head? == some '/') = false := by
      cases cut : yamlStem? variant with
      | none => rwa [yamlStem, cut]
      | some stem =>
        have named : variant = stem ++ yamlEnding := yamlStem?_eq_some.mp cut
        have ending : (stem ++ yamlEnding).toList ≠ [] := by simp [yamlEnding]
        rw [yamlStem, cut, Option.getD_some]
        rwa [named, String.toList_append, List.head?_append_of_ne_nil _ ending] at relative
    rw [if_neg empty, Path.join_inj (relative_withYamlEnding bare) relative,
      withYamlEnding_yamlStem]
    simp [empty]

/-- The variants of a context are the files of its directory with the ending. -/
theorem variants_eq_ok {names : List String} : p.variants t context = .ok names ↔
    t.isDirectory (p.contextsPath.join context) = true ∧
      sortNames ((t.filesOf (p.contextsPath.join context)).filterMap yamlStem?) = names := by
  unfold variants
  dsimp only
  by_cases there : t.isDirectory (p.contextsPath.join context) = true <;> simp [there]

theorem mem_contextNames : context ∈ p.contextNames t ↔
    context ∈ t.directoriesOf p.contextsPath ∧ isHidden context = false := by
  unfold contextNames
  rw [mem_sortNames, List.mem_filter]
  simp

/-- The directory of a context is found if and only if its path is not too long. -/
theorem isDirectory_context_iff (proper : t.isProper = true) (listed : context ∈ p.contextNames t) :
    t.isDirectory (p.contextsPath.join context) = true ↔ Tree.Fits p.contextsPath [context] := by
  obtain ⟨here, located, member⟩ := Tree.mem_directoriesOf.mp (mem_contextNames.mp listed).1
  have plain := Tree.plain_of_mem_directoriesAt proper member
  have standing := (Tree.mem_directoriesAt_iff proper).mp member
  have each : ∀ name ∈ [context], Plain name := by
    intro name named
    rwa [List.mem_singleton.mp named]
  constructor
  · intro there
    obtain ⟨l, found, -⟩ := Tree.locate_of_isDirectory there
    exact Tree.fits_of_locate each found
  · intro fits
    have found := Tree.locate_below each fits located (by simp [standing])
    exact Tree.isDirectory_of_locate found standing

theorem mem_variants {names : List String} (listed : p.variants t context = .ok names) :
    variant ∈ names ↔ variant ++ yamlEnding ∈ t.filesOf (p.contextsPath.join context) := by
  obtain ⟨-, rfl⟩ := variants_eq_ok.mp listed
  rw [mem_sortNames, List.mem_filterMap]
  simp only [yamlStem?_eq_some, exists_eq_right]

theorem nodup_variants {names : List String} (proper : t.isProper = true)
    (listed : p.variants t context = .ok names) : names.Nodup := by
  obtain ⟨-, rfl⟩ := variants_eq_ok.mp listed
  unfold sortNames
  rw [(List.mergeSort_perm _ _).nodup_iff]
  refine (Tree.nodup_filesOf proper _).filterMap ?_
  intro a b stem ofA ofB
  rw [Option.mem_def, yamlStem?_eq_some] at ofA ofB
  rw [ofA, ofB]

theorem addresses_of_mem_variants {names : List String} (proper : t.isProper = true)
    (shown : context ∈ p.contextNames t) (listed : p.variants t context = .ok names)
    (member : variant ∈ names) :
    t.Addresses (p.contextsPath.join context) (p.variantFile (context ++ "/" ++ variant))
      [variant ++ yamlEnding] (variant ≠ "" ∧ yamlStem? variant = none) := by
  obtain ⟨above, -, within⟩ := Tree.mem_directoriesOf.mp (mem_contextNames.mp shown).1
  have plain : Plain context := Tree.plain_of_mem_directoriesAt proper within
  obtain ⟨here, content, located, there⟩ :=
    (Tree.mem_filesOf proper).mp ((mem_variants listed).mp member)
  have plain' : Plain (variant ++ yamlEnding) :=
    Node.plain_of_at? proper (Tree.standing_eq_file.mp there) _ (by simp)
  have addressed := variantFile_eq_join (p := p) plain plain'
  rw [← Path.below_singleton] at addressed
  refine ⟨addressed, fun free => ?_⟩
  have each : ∀ name ∈ [variant ++ yamlEnding], Plain name := by
    intro name named
    rwa [List.mem_singleton.mp named]
  rw [addressed.mpr free]
  exact Tree.finds_below_iff each located there

end Project

/-- The names of actions and of flows are all different, and each is listed for one file. That file
is the one that is looked up, and read unless its path is too long, if and only if the name has not
the ending of YAML files itself. The variants of a context are all different too; each is that of a
file of the directory, which is looked up if and only if the name is not empty and has no ending. -/
theorem listed_names_load {p : Project} {t : Tree} (proper : t.isProper = true) :
    ((p.actionNames t).Nodup ∧ ∀ name ∈ p.actionNames t, ∃ l,
      (∀ m, t.ListedAs p.actionsPath name m ↔ m = l) ∧
      t.Addresses p.actionsPath (p.actionFile name) l (yamlStem? name = none) ∧
      (t.Finds (p.actionFile name) p.actionsPath l →
        p.action t name = (loadFields t (p.actionFile name)).map fun fields =>
          ⟨name, fields.insert "action_name" (.str name)⟩)) ∧
    ((p.flowNames t).Nodup ∧ ∀ name ∈ p.flowNames t, ∃ l,
      (∀ m, t.ListedAs p.flowsPath name m ↔ m = l) ∧
      t.Addresses p.flowsPath (p.flowFile name) l (yamlStem? name = none) ∧
      (t.Finds (p.flowFile name) p.flowsPath l →
        p.flow t name = loadFields t (p.flowFile name) >>= fun fields =>
          match Flow.ofFields? name fields with
          | some f => .ok f
          | none => .error (.malformed (p.flowFile name) .misshapen))) ∧
    ∀ context ∈ p.contextNames t,
      ((∃ names, p.variants t context = .ok names) ↔ Tree.Fits p.contextsPath [context]) ∧
      ∀ names, p.variants t context = .ok names → names.Nodup ∧ ∀ variant ∈ names,
        let dir := p.contextsPath.join context
        let name := context ++ "/" ++ variant
        variant ++ yamlEnding ∈ t.filesOf dir ∧
        t.Addresses dir (p.variantFile name) [variant ++ yamlEnding]
          (variant ≠ "" ∧ yamlStem? variant = none) ∧
        (t.Finds (p.variantFile name) dir [variant ++ yamlEnding] →
          p.contextVariables t name = loadFields t (p.variantFile name)) := by
  refine ⟨⟨Tree.nodup_yamlNames proper _, ?_⟩, ⟨Tree.nodup_yamlNames proper _, ?_⟩, ?_⟩
  · intro name listed
    obtain ⟨l, once, addressed⟩ := Tree.addresses_of_listed proper listed
    exact ⟨l, once, addressed, fun found => Project.action_of_isFile found.isFile⟩
  · intro name listed
    obtain ⟨l, once, addressed⟩ := Tree.addresses_of_listed proper listed
    exact ⟨l, once, addressed, fun found => Project.flow_of_isFile found.isFile⟩
  · intro context shown
    refine ⟨?_, ?_⟩
    · rw [← Project.isDirectory_context_iff proper shown]
      simp only [Project.variants_eq_ok, exists_and_left, exists_eq', and_true]
    · intro names listed
      refine ⟨Project.nodup_variants proper listed, fun variant member => ?_⟩
      exact ⟨(Project.mem_variants listed).mp member,
        Project.addresses_of_mem_variants proper shown listed member,
        fun found => Project.contextVariables_of_isFile found.isFile⟩

/-- A project with two actions, of which one is named after the other with its ending, and with a
context that has a variant without a name. -/
private def twiceEnded : Tree :=
  .directory [("p", .directory [
    ("actions", .directory [
      ("a.yaml.yaml", .file (Text.encode "method: POST\n")),
      ("messages", .directory [("post.yaml", .file (Text.encode "method: PUT\n"))])]),
    ("contexts", .directory [
      ("c", .directory [(".yaml", .file (Text.encode "x: 1\n")), ("v.yaml", .file [])])])])]

private def twiceEndedProject : Project := ⟨⟨"/p"⟩, .standard⟩

private theorem listed_twiceEnded {name : String} {l : Location}
    (h : l ∈ yamlFilesIn (twiceEnded.entriesOf twiceEndedProject.actionsPath))
    (named : l.listedName = name) : name ∈ twiceEndedProject.actionNames twiceEnded := by
  refine Tree.mem_yamlNames.mpr ⟨l, ?_, named⟩
  unfold Tree.yamlLocations
  rwa [List.mem_mergeSort]

/-- An action in a directory is found by the name it is listed under. -/
theorem listed_names_load_sample :
    twiceEnded.isProper = true ∧
      "messages/post" ∈ twiceEndedProject.actionNames twiceEnded ∧
      twiceEndedProject.actionFile "messages/post" =
        twiceEndedProject.actionsPath.below ["messages", "post.yaml"] ∧
      twiceEnded.Finds (twiceEndedProject.actionFile "messages/post")
        twiceEndedProject.actionsPath ["messages", "post.yaml"] := by
  have proper : twiceEnded.isProper = true := by decide
  have place : ["messages", "post.yaml"] ∈
      yamlFilesIn (twiceEnded.entriesOf twiceEndedProject.actionsPath) := by
    decide
  have named : Location.listedName ["messages", "post.yaml"] = "messages/post" := by
    decide
  have listed := listed_twiceEnded place named
  obtain ⟨⟨-, actions⟩, -⟩ := listed_names_load (p := twiceEndedProject) proper
  obtain ⟨l, once, ⟨addressed, read⟩, -⟩ := actions "messages/post" listed
  have free : yamlStem? "messages/post" = none := by decide
  obtain rfl : ["messages", "post.yaml"] = l := by
    refine (once _).mp ⟨?_, named⟩
    unfold Tree.yamlLocations
    rwa [List.mem_mergeSort]
  refine ⟨proper, listed, addressed.mpr free, (read free).mpr ⟨⟨?_, ?_⟩, ?_⟩⟩
  · decide
  · decide
  · unfold IsShort
    decide

/-- A name that has the ending itself and an empty one are listed and not found. -/
theorem listed_names_unfound :
    twiceEnded.isProper = true ∧
      "a.yaml" ∈ twiceEndedProject.actionNames twiceEnded ∧
      twiceEndedProject.action twiceEnded "a.yaml" = .error (.notFound .action "a.yaml") ∧
      "c" ∈ twiceEndedProject.contextNames twiceEnded ∧
      (∃ names, twiceEndedProject.variants twiceEnded "c" = .ok names ∧ "" ∈ names) ∧
      twiceEndedProject.contextVariables twiceEnded "c/" = .error (.notFound .context "c/") := by
  have action : ["a.yaml.yaml"] ∈
      yamlFilesIn (twiceEnded.entriesOf twiceEndedProject.actionsPath) := by
    decide
  have shown : "c" ∈ twiceEndedProject.contextNames twiceEnded :=
    Project.mem_contextNames.mpr ⟨by decide, by decide⟩
  have there : twiceEnded.isDirectory (twiceEndedProject.contextsPath.join "c") = true := by
    decide
  have listed := Project.variants_eq_ok.mpr ⟨there, rfl⟩
  refine ⟨by decide, listed_twiceEnded action (by decide),
    Project.action_of_not_isFile (by decide), shown,
    ⟨_, listed, (Project.mem_variants listed).mpr (by decide)⟩,
    Project.contextVariables_eq_notFound.mpr ⟨by decide, rfl, rfl⟩⟩

end Runbook
