import Runbook.Files.Tree

set_option autoImplicit false
set_option relaxedAutoImplicit false

/-!
The YAML files below a directory. Hidden files and all that is in hidden directories are left out,
and the order is that of the steps of the paths.
-/

namespace Runbook.Files

def yamlEnding : String := ".yaml"

def isHidden (name : String) : Bool := name.toList.head? == some '.'

/-- A name without the ending of YAML files, if it has it. -/
def yamlStem? (name : String) : Option String :=
  (Text.dropEnding? yamlEnding.toList name.toList).map String.ofList

/-- A name without the ending of YAML files, or as it is. -/
def yamlStem (name : String) : String := (yamlStem? name).getD name

/-- A name with the ending of YAML files, once. -/
def withYamlEnding (name : String) : String :=
  if (yamlStem? name).isSome then name else name ++ yamlEnding

mutual

/-- The locations of the YAML files of a node, of which the name is known. -/
def yamlFilesAt (name : String) : Node → List Location
  | .file _ => if (yamlStem? name).isSome then [[name]] else []
  | .directory es => (yamlFilesIn es).map (name :: ·)

/-- The locations of the YAML files among entries and below them. -/
def yamlFilesIn : List (String × Node) → List Location
  | [] => []
  | (name, node) :: rest =>
    (if isHidden name then [] else yamlFilesAt name node) ++ yamlFilesIn rest

end

/-- Whether a location comes before another one or is the same: the first names that differ decide,
and a location comes before those below it. -/
def Location.le : Location → Location → Bool
  | [], _ => true
  | _ :: _, [] => false
  | a :: as, b :: bs => if a = b then Location.le as bs else decide (a < b)

/-- The locations of the YAML files below a directory, in order. -/
def Tree.yamlLocations (t : Tree) (p : Path) : List Location :=
  (yamlFilesIn (t.entriesOf p)).mergeSort Location.le

def Tree.yamlFiles (t : Tree) (p : Path) : List Path :=
  (t.yamlLocations p).map fun location => location.foldl Path.join p

mutual

/-- What is at a node and below it, of which the name is known, with the locations; what is below
hidden names is left out. -/
def visibleAt (name : String) : Node → List (Location × Node)
  | .file content => [([name], .file content)]
  | .directory es => ([name], .directory es) :: (visibleIn es).map fun (l, node) => (name :: l, node)

/-- What is at entries that are not hidden and below them, with the locations. -/
def visibleIn : List (String × Node) → List (Location × Node)
  | [] => []
  | (name, node) :: rest => (if isHidden name then [] else visibleAt name node) ++ visibleIn rest

end

/-- The locations of the directories that are entered to list what is below entries. -/
def enteredIn (es : List (String × Node)) : List Location :=
  ((visibleIn es).filter (!·.2.isFile)).map (·.1)

/-- Enters the directories below one that is listed, each by its path. -/
def Tree.enterBelow (t : Tree) (p : Path) : Except Fault (List Location) :=
  (enteredIn (t.entriesOf p)).mapM fun location => t.locate (location.foldl Path.join p)

/-- The YAML files below a directory, if all the directories there can be entered. -/
def Tree.listYamlFiles (t : Tree) (p : Path) : Except Fault (List Path) :=
  (t.enterBelow p).map fun _ => t.yamlFiles p

def sortNames (names : List String) : List String := names.mergeSort fun a b => decide (a ≤ b)

/-- The names of the YAML files below a directory, without their endings, in order. -/
def Tree.yamlNames (t : Tree) (p : Path) : List String :=
  sortNames ((t.yamlLocations p).map fun location => yamlStem ("/".intercalate location))

mutual

/-- The names of a node and of all that is below it, directories with a slash at the end. -/
def namesAt (name : String) : Node → List String
  | .file _ => [name]
  | .directory es => (name ++ "/") :: (namesIn es).map ((name ++ "/") ++ ·)

def namesIn : List (String × Node) → List String
  | [] => []
  | (name, node) :: rest => namesAt name node ++ namesIn rest

end

/-- The names of all that is below a directory, in order. -/
def Tree.names (t : Tree) (p : Path) : List String := sortNames (namesIn (t.entriesOf p))

end Runbook.Files
