import Runbook.Files.Path
import Runbook.Text.Utf8

set_option autoImplicit false
set_option relaxedAutoImplicit false

/-!
Trees of files. A path is followed step by step from the root, each step but the last having to
lead into a directory; an operation either gives the changed tree or says why there is none.
-/

namespace Runbook.Files

open Runbook.Text (Bytes)

inductive Node
  | file (content : Bytes)
  | directory (entries : List (String × Node))

instance : Inhabited Node := ⟨.directory []⟩

/-- Why a file or directory cannot be used. -/
inductive Fault
  | missing
  | exists
  | notADirectory
  | isADirectory
  | nameTooLong
  | nameWithNul
  | notText
  deriving DecidableEq

def Fault.message : Fault → String
  | .missing => "No such file or directory (os error 2)"
  | .exists => "File exists (os error 17)"
  | .notADirectory => "Not a directory (os error 20)"
  | .isADirectory => "Is a directory (os error 21)"
  | .nameTooLong => "File name too long (os error 36)"
  | .nameWithNul => "file name contained an unexpected NUL byte"
  | .notText => "stream did not contain valid UTF-8"

/-- The names that lead from the root to a node. -/
abbrev Location := List String

namespace Node

def child? : List (String × Node) → String → Option Node
  | [], _ => none
  | (k, n) :: rest, name => if k = name then some n else child? rest name

/-- Entries with one of them set. -/
def setChild : List (String × Node) → String → Node → List (String × Node)
  | [], name, node => [(name, node)]
  | (k, n) :: rest, name, node =>
    if k = name then (k, node) :: rest else (k, n) :: setChild rest name node

/-- The entries of a directory; a file has none. -/
def entries : Node → List (String × Node)
  | .file _ => []
  | .directory es => es

def isFile : Node → Bool
  | .file _ => true
  | .directory _ => false

def at? : Node → Location → Option Node
  | node, [] => some node
  | node, name :: rest => (child? node.entries name).bind (·.at? rest)

/-- The tree with a node put at a location, whose directory is there. -/
def put : Node → Location → Node → Node
  | _, [], node => node
  | .file content, _ :: _, _ => .file content
  | .directory es, name :: rest, node =>
    .directory (setChild es name (put ((child? es name).getD (.directory [])) rest node))

/-- The tree without the node at a location. -/
def erase : Node → Location → Node
  | node, [] => node
  | .file content, _ :: _ => .file content
  | .directory es, [name] => .directory (es.filter (·.1 != name))
  | .directory es, name :: rest =>
    match child? es name with
    | some node => .directory (setChild es name (node.erase rest))
    | none => .directory es

theorem child?_setChild (es : List (String × Node)) (name other : String) (node : Node) :
    child? (setChild es name node) other =
      if name = other then some node else child? es other := by
  induction es with
  | nil => simp [setChild, child?]
  | cons e rest ih =>
    obtain ⟨k, n⟩ := e
    by_cases hk : k = name
    · subst hk
      by_cases ho : k = other <;> simp [setChild, child?, ho]
    · by_cases ho : k = other
      · subst ho
        have hne : ¬ name = k := fun h => hk h.symm
        simp [setChild, child?, hk, hne]
      · simp [setChild, child?, hk, ho, ih]

end Node

/-- The file tree from its root. -/
abbrev Tree := Node

namespace Tree

/-- The most octets of a name. -/
def maxNameLength : Nat := 255

/-- The most octets of a path. -/
def maxPathLength : Nat := 4095

/-- Where steps lead from a location; every step has to be taken from a directory. -/
def locateFrom (t : Tree) : Location → List String → Except Fault Location
  | here, [] => .ok here
  | here, step :: rest =>
    match t.at? here with
    | none => .error .missing
    | some (.file _) => .error .notADirectory
    | some (.directory _) =>
      if step = "." then t.locateFrom here rest
      else if step = ".." then t.locateFrom here.dropLast rest
      else if maxNameLength < step.utf8ByteSize then .error .nameTooLong
      else t.locateFrom (here ++ [step]) rest

/-- Where steps lead from the root, if their path is acceptable at all. -/
def locateSteps (t : Tree) (p : Path) (steps : List String) : Except Fault Location :=
  if p.text.toList.contains (Char.ofNat 0) then .error .nameWithNul
  else if maxPathLength < p.text.utf8ByteSize then .error .nameTooLong
  else t.locateFrom [] steps

/-- The location of a path, where something may be or not. -/
def locate (t : Tree) (p : Path) : Except Fault Location :=
  t.locateSteps p (p.allSteps ++ if p.hasEndingSlash then ["."] else [])

def node? (t : Tree) (p : Path) : Option Node := (t.locate p).toOption.bind t.at?

def isFile (t : Tree) (p : Path) : Bool := (t.node? p).any Node.isFile

def isDirectory (t : Tree) (p : Path) : Bool := (t.node? p).any (!·.isFile)

def has (t : Tree) (p : Path) : Bool := (t.node? p).isSome

def read (t : Tree) (p : Path) : Except Fault Bytes := do
  match t.at? (← t.locate p) with
  | none => throw .missing
  | some (.directory _) => throw .isADirectory
  | some (.file content) => return content

/-- The content of a file that holds text. -/
def readText (t : Tree) (p : Path) : Except Fault String := do
  match Text.decode? (← t.read p) with
  | some s => return s
  | none => throw .notText

/-- What an operation came to, and the tree it left; one that fails may have done part of its
work. -/
abbrev Change := Except Fault Unit × Tree

/-- A change followed by another one, unless it failed. -/
def Change.andThen (c : Change) (next : Tree → Change) : Change :=
  match c with
  | (.ok (), t) => next t
  | (.error fault, t) => (.error fault, t)

/-- Writes a file, in place of an old one or as a new one of its directory. -/
def write (t : Tree) (p : Path) (content : Bytes) : Change :=
  match t.locate p with
  | .error fault => (.error fault, t)
  | .ok location =>
    match t.at? location with
    | some (.directory _) => (.error .isADirectory, t)
    | _ => (.ok (), t.put location (.file content))

/-- Makes a directory where there is nothing yet. -/
def makeDirectory (t : Tree) (p : Path) (steps : List String) : Change :=
  match t.locateSteps p steps with
  | .error fault => (.error fault, t)
  | .ok location =>
    match t.at? location with
    | some _ => (.error .exists, t)
    | none => (.ok (), t.put location (.directory []))

def isDirectoryAt (t : Tree) (p : Path) (steps : List String) : Bool :=
  match t.locateSteps p steps with
  | .ok location => (t.at? location).any (!·.isFile)
  | .error _ => false

/-- Makes a directory, unless it is there already. -/
def ensureDirectory (t : Tree) (p : Path) (steps : List String) : Change :=
  match t.makeDirectory p steps with
  | (.error fault, _) => if t.isDirectoryAt p steps then (.ok (), t) else (.error fault, t)
  | made => made

/-- Makes a directory after those above it that are missing; the steps are given last first. -/
def makeDirectoriesUp (t : Tree) (p : Path) : List String → Change
  | [] => (.ok (), t)
  | step :: above =>
    match t.ensureDirectory p (step :: above).reverse with
    | (.error .missing, _) =>
      (t.makeDirectoriesUp p above).andThen (·.ensureDirectory p (step :: above).reverse)
    | change => change

/-- Makes a directory and all those above it. -/
def makeDirectories (t : Tree) (p : Path) : Change := t.makeDirectoriesUp p p.steps.reverse

def makeParents (t : Tree) (p : Path) : Change :=
  t.makeDirectoriesUp p.parent p.steps.reverse.tail

/-- Writes a file and makes the directories above it. -/
def save (t : Tree) (p : Path) (content : Bytes) : Change :=
  (t.makeParents p).andThen (·.write p content)

/-- Removes a directory and what is below it. -/
def remove (t : Tree) (p : Path) : Change :=
  match t.locate p with
  | .error fault => (.error fault, t)
  | .ok location =>
    match t.at? location with
    | none => (.error .missing, t)
    | some (.file _) => (.error .notADirectory, t)
    | some (.directory _) => (.ok (), t.erase location)

/-- The entries of a directory; anything else has none. -/
def entriesOf (t : Tree) (p : Path) : List (String × Node) :=
  ((t.node? p).map Node.entries).getD []

def directoriesOf (t : Tree) (p : Path) : List String :=
  ((t.entriesOf p).filter (!·.2.isFile)).map (·.1)

def filesOf (t : Tree) (p : Path) : List String :=
  ((t.entriesOf p).filter (·.2.isFile)).map (·.1)

end Tree

end Runbook.Files
