import Runbook.Text.Utf8

set_option autoImplicit false
set_option relaxedAutoImplicit false

/-!
The tokens of YAML.
-/

namespace Runbook.Yaml

open Runbook.Text (Bytes)

/-- How a scalar is written. -/
inductive Style
  | plain
  | single
  | double
  | literal
  | folded
  deriving DecidableEq

/-- A lexical element. Tags are octets, because their escapes may write any. -/
inductive Token
  | version (major minor : Nat)
  | tagDirective (handle leading : Bytes)
  | documentStart
  | documentEnd
  | blockSequence
  | blockMapping
  | blockEnd
  | flowSequence
  | flowSequenceEnd
  | flowMapping
  | flowMappingEnd
  | blockEntry
  | flowEntry
  | key
  | value
  | alias (name : String)
  | anchor (name : String)
  | tag (handle suffix : Bytes)
  | scalar (style : Style) (text : String)
  deriving DecidableEq

end Runbook.Yaml
