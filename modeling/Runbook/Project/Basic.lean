import Runbook.Error
import Runbook.Files.Listing
import Runbook.Text.Blank

set_option autoImplicit false
set_option relaxedAutoImplicit false

/-!
Projects: a directory of actions, flows, contexts and sessions, and the settings for them all.
-/

namespace Runbook

open Runbook.Files

/-- A directory and its settings. -/
structure Project where
  root : Path
  settings : Settings
  deriving DecidableEq

/-- The members of the map that a YAML file holds; an empty file holds an empty one. -/
def loadFields (t : Tree) (p : Path) : Except Error Fields :=
  match t.readText p with
  | .error fault => .error (.io fault)
  | .ok text =>
    if Text.isAllBlank text then .ok []
    else
      match Yaml.read? text with
      | none => .error (.malformed p .unreadable)
      | some .null => .ok []
      | some (.map fields) => .ok fields
      | some found => .error (.malformed p (.notAMapping found))

namespace Project

def settingsFile : String := "rest-flow.yaml"

/-- The settings of a directory; without a file they are the standard ones. -/
def loadSettings (t : Tree) (root : Path) : Except Error Settings :=
  let p := root.join settingsFile
  if t.isFile p then
    match t.readText p with
    | .error fault => .error (.io fault)
    | .ok text =>
      match Settings.parse text with
      | .ok s => .ok s
      | .error .unreadable => .error (.malformed p .unreadable)
      | .error (.unacceptable fault) => .error (.malformed p (.settings fault))
  else .ok .standard

def load (t : Tree) (root : Path) : Except Error Project :=
  (loadSettings t root).map fun settings => ⟨root, settings⟩

/-- The name of a project: that of its directory. -/
def name (p : Project) : String := p.root.fileName?.getD ""

def actionsPath (p : Project) : Path := p.root.join "actions"

def flowsPath (p : Project) : Path := p.root.join "flows"

def contextsPath (p : Project) : Path := p.root.join "contexts"

def sessionsPath (p : Project) : Path := p.root.join "sessions"

def makeSkeleton (p : Project) (t : Tree) : Tree.Change :=
  [p.actionsPath, p.flowsPath, p.contextsPath, p.sessionsPath].foldl
    (fun change dir => change.andThen (·.makeDirectories dir)) (.ok (), t)

def actionFile (p : Project) (name : String) : Path := p.actionsPath.join (withYamlEnding name)

def flowFile (p : Project) (name : String) : Path := p.flowsPath.join (withYamlEnding name)

def sessionPath (p : Project) (name : String) : Path := p.sessionsPath.join name

end Project

/-- The variant of a context that is meant when none is named. -/
def defaultVariant : String := "default"

/-- A context and its variant, from a name of both with a slash between them or of the first. -/
def splitContextName (name : String) : String × String :=
  match Text.splitOnce? '/' name.toList with
  | none => (name, defaultVariant)
  | some (context, []) => (String.ofList context, defaultVariant)
  | some (context, variant) => (String.ofList context, yamlStem (String.ofList variant))

/-- The context that a name means, in whatever variant. -/
def contextOf (name : String) : String := (splitContextName name).1

def Project.variantFile (p : Project) (name : String) : Path :=
  let (context, variant) := splitContextName name
  (p.contextsPath.join context).join (withYamlEnding variant)

end Runbook
