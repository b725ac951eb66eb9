import Runbook.Text.Split

set_option autoImplicit false
set_option relaxedAutoImplicit false

/-!
Names of files. A path is kept as it was written; what it means is the list of its steps.
-/

namespace Runbook.Files

/-- The name of a file or directory: steps with slashes between them. -/
structure Path where
  text : String
  deriving DecidableEq

namespace Path

/-- A name taken from a directory; a name that begins with a slash stands for itself. -/
def join (p : Path) (name : String) : Path :=
  if name.toList.head? == some '/' then ⟨name⟩
  else if p.text.toList.getLast?.all (· == '/') then ⟨p.text ++ name⟩
  else ⟨p.text ++ "/" ++ name⟩

/-- The steps of a path; doubled slashes make none. -/
def allSteps (p : Path) : List String :=
  ((Text.split '/' p.text.toList).filter (!·.isEmpty)).map String.ofList

/-- The steps of a path that go somewhere. -/
def steps (p : Path) : List String := p.allSteps.filter (· != ".")

def hasEndingSlash (p : Path) : Bool := p.text.toList.getLast? == some '/'

/-- The last step of a path, unless it leads upward. -/
def fileName? (p : Path) : Option String := p.steps.getLast?.filter (· != "..")

def parent (p : Path) : Path :=
  let above := (p.text.toList.reverse.dropWhile (· == '/')).dropWhile (· != '/')
  ⟨String.ofList (above.dropWhile (· == '/')).reverse⟩

example : (Path.mk "/a").join "b" = ⟨"/a/b"⟩ := by decide
example : (Path.mk "/a/").join "b" = ⟨"/a/b"⟩ := by decide
example : (Path.mk "/a").join "/b" = ⟨"/b"⟩ := by decide
example : (Path.mk "/a//./b/").steps = ["a", "b"] := by decide
example : (Path.mk "/a/b/c.d").parent = ⟨"/a/b"⟩ := by decide

end Path

end Runbook.Files
