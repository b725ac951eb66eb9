import Runbook.Files.Tree
import Runbook.Log
import Runbook.Message
import Runbook.Request.Descriptor
import Runbook.Response

set_option autoImplicit false
set_option relaxedAutoImplicit false

/-!
Transports. A transport answers a request or says why there is no answer; it may have a state of its
own, and it may write files, such as the two it is given for the messages.
-/

namespace Runbook

open Runbook.Files

/-- Why a request got no answer. -/
inductive SendFault
  | network (message : String)
  | timeout
  | invalidUrl (message : String)
  | tls (message : String)
  | build (message : String)
  | dump (message : String)
  deriving DecidableEq

def SendFault.message : SendFault → String
  | .network m => "Network error: " ++ m
  | .timeout => "Request timed out"
  | .invalidUrl m => "Invalid URL: " ++ m
  | .tls m => "TLS/SSL error: " ++ m
  | .build m => "Request build error: " ++ m
  | .dump m => "Dump error: " ++ m

/-- The files for the two messages of an exchange. -/
structure DumpPaths where
  request : Path
  response : Path
  deriving DecidableEq

namespace DumpPaths

/-- The files in the directory of an exchange. -/
def ofDirectory (dir : Path) : DumpPaths := ⟨dir.join "request.txt", dir.join "response.txt"⟩

def writeRequest (dumps : DumpPaths) (t : Tree) (d : Request.Descriptor) : Tree.Change :=
  (t.makeParents dumps.request).andThen (·.write dumps.request (Message.ofRequest d))

def writeResponse (dumps : DumpPaths) (t : Tree) (r : Response) : Tree.Change :=
  (t.makeParents dumps.request).andThen (·.write dumps.response (Message.ofResponse r))

end DumpPaths

/-- What a session works with: the files, the state of the transport, and the notices so far. -/
structure Bench (σ : Type) where
  tree : Tree
  wire : σ
  notices : List Notice

namespace Bench

variable {σ : Type}

def note (b : Bench σ) (level : Level) (text : String) : Bench σ :=
  { b with notices := b.notices ++ [⟨level, text⟩] }

def withTree (b : Bench σ) (t : Tree) : Bench σ := { b with tree := t }

end Bench

/-- How requests are answered: from a request, the files for its messages if there are to be any,
the state so far and the files, to an answer, the next state and the files. -/
abbrev Transport (σ : Type) :=
  Request.Descriptor → Option DumpPaths → σ → Tree → Except SendFault Response × σ × Tree

namespace Transport

/-- Writes a message, unless there is no file for it. -/
def dump (t : Tree) : Option Tree.Change → Except SendFault Unit × Tree
  | none => (.ok (), t)
  | some (.ok (), after) => (.ok (), after)
  | some (.error fault, after) => (.error (.dump fault.message), after)

/-- A transport that is not connected to anything: it refuses a target that is relative, before
anything is written, and reaches no other. -/
def unconnected : Transport Unit := fun d dumps wire t =>
  match d.target with
  | .relative reference => (.error (.invalidUrl reference), wire, t)
  | .absolute url =>
    match dump t (dumps.map fun paths => paths.writeRequest t d) with
    | (.error fault, t) => (.error fault, wire, t)
    | (.ok (), t) => (.error (.network ("no route to " ++ url.text)), wire, t)

end Transport

end Runbook
