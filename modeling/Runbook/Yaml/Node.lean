import Runbook.Yaml.Token

set_option autoImplicit false
set_option relaxedAutoImplicit false

/-!
From tokens to nodes: the one document of a text, with its aliases as they stand.
-/

namespace Runbook.Yaml

open Runbook.Text (Bytes)

/-- An anchor and a tag, each of which may be left out. -/
structure Properties where
  anchor : Option String
  tag : Option Bytes
  deriving DecidableEq

/-- An element of a document, with links of some kind in place of aliases. -/
inductive Node (Link : Type)
  | alias (link : Link)
  | scalar (properties : Properties) (style : Style) (text : String)
  | sequence (properties : Properties) (items : List (Node Link))
  | mapping (properties : Properties) (entries : List (Node Link × Node Link))

/-- An element as it is written, with names for links. -/
abbrev Written := Node String

def absent : Written := .scalar ⟨none, none⟩ .plain ""

/-- What a handle stands for. -/
abbrev Handles := List (Bytes × Bytes)

/-- The octets of a word. -/
def word (s : String) : Bytes := Text.encode s

/-- What the handles of every document stand for. -/
def standardHandles : Handles := [(word "!", word "!"), (word "!!", word "tag:yaml.org,2002:")]

/-- The tag of a handle and a suffix; without a handle the suffix is the whole tag. -/
def resolveTag? (handles : Handles) (handle suffix : Bytes) : Option Bytes :=
  if handle.isEmpty then some suffix
  else (handles.find? (·.1 == handle)).map (·.2 ++ suffix)

/-- The properties in front of a node: an anchor, a tag, or both in either order. -/
def properties (handles : Handles) : List Token → Option (Properties × List Token)
  | .anchor a :: .tag h s :: ts => (resolveTag? handles h s).map fun t => (⟨some a, some t⟩, ts)
  | .tag h s :: .anchor a :: ts => (resolveTag? handles h s).map fun t => (⟨some a, some t⟩, ts)
  | .anchor a :: ts => some (⟨some a, none⟩, ts)
  | .tag h s :: ts => (resolveTag? handles h s).map fun t => (⟨none, some t⟩, ts)
  | ts => some (⟨none, none⟩, ts)

/-- The properties of a scalar that is written; the tag of one mark says nothing about it. -/
def Properties.ofWritten (p : Properties) : Properties :=
  if p.tag == some (word "!") then { p with tag := none } else p

/-- Whether a token begins or ends something, so that no node stands before it. -/
def endsEntry (ends : List Token) : List Token → Bool
  | [] => true
  | t :: _ => t ∈ ends

mutual

/-- A node. A block may begin here unless it is inside brackets, and in a mapping so may the items
of a sequence that is not indented. -/
def node (handles : Handles) (block loose : Bool) : Nat → List Token → Option (Written × List Token)
  | 0, _ => none
  | _ + 1, .alias name :: ts => some (.alias name, ts)
  | depth + 1, tokens => do
    let (p, ts) ← properties handles tokens
    match ts with
    | .scalar style text :: rest => return (.scalar p.ofWritten style text, rest)
    | .flowSequence :: rest =>
      let (items, rest) ← flowItems handles depth true rest
      return (.sequence p items, rest)
    | .flowMapping :: rest =>
      let (entries, rest) ← flowEntries handles depth true rest
      return (.mapping p entries, rest)
    | t :: rest =>
      if loose && t == .blockEntry then
        let (items, rest) ← looseItems handles depth ts
        return (.sequence p items, rest)
      else if block && t == .blockSequence then
        let (items, rest) ← blockItems handles depth rest
        return (.sequence p items, rest)
      else if block && t == .blockMapping then
        let (entries, rest) ← blockEntries handles depth rest
        return (.mapping p entries, rest)
      else if p.anchor.isSome || p.tag.isSome then return (.scalar p .plain "", ts)
      else none
    | [] => if p.anchor.isSome || p.tag.isSome then return (.scalar p .plain "", ts) else none

/-- A node, or an absent scalar before one of some tokens. -/
def nodeOrAbsent (handles : Handles) (block loose : Bool) (ends : List Token) :
    Nat → List Token → Option (Written × List Token)
  | 0, _ => none
  | depth + 1, ts =>
    if endsEntry ends ts then some (absent, ts) else node handles block loose depth ts

/-- The items of an indented sequence. -/
def blockItems (handles : Handles) : Nat → List Token → Option (List Written × List Token)
  | 0, _ => none
  | _ + 1, .blockEnd :: ts => some ([], ts)
  | depth + 1, .blockEntry :: ts => do
    let (item, ts) ← nodeOrAbsent handles true false [.blockEntry, .blockEnd] depth ts
    let (items, ts) ← blockItems handles depth ts
    return (item :: items, ts)
  | _ + 1, _ => none

/-- The items of a sequence that is not indented. -/
def looseItems (handles : Handles) : Nat → List Token → Option (List Written × List Token)
  | 0, _ => none
  | depth + 1, .blockEntry :: ts => do
    let (item, ts) ←
      nodeOrAbsent handles true false [.blockEntry, .key, .value, .blockEnd] depth ts
    let (items, ts) ← looseItems handles depth ts
    return (item :: items, ts)
  | _ + 1, ts => some ([], ts)

/-- The entries of an indented mapping. -/
def blockEntries (handles : Handles) :
    Nat → List Token → Option (List (Written × Written) × List Token)
  | 0, _ => none
  | _ + 1, .blockEnd :: ts => some ([], ts)
  | depth + 1, .key :: ts => do
    let (key, ts) ← nodeOrAbsent handles true true [.key, .value, .blockEnd] depth ts
    let (value, ts) ← blockValue handles depth ts
    let (entries, ts) ← blockEntries handles depth ts
    return ((key, value) :: entries, ts)
  | _ + 1, _ => none

/-- The value of an entry of an indented mapping. -/
def blockValue (handles : Handles) : Nat → List Token → Option (Written × List Token)
  | 0, _ => none
  | depth + 1, .value :: ts => nodeOrAbsent handles true true [.key, .value, .blockEnd] depth ts
  | _ + 1, ts => some (absent, ts)

/-- The items between square brackets, after the first or from it on. -/
def flowItems (handles : Handles) : Nat → Bool → List Token → Option (List Written × List Token)
  | 0, _, _ => none
  | _ + 1, _, .flowSequenceEnd :: ts => some ([], ts)
  | depth + 1, first, ts => do
    let ts ← match first, ts with
      | true, ts => some ts
      | false, .flowEntry :: ts => some ts
      | false, _ => none
    match ts with
    | .flowSequenceEnd :: ts => return ([], ts)
    | .key :: ts =>
      let (entry, ts) ← flowPair handles depth ts
      let (items, ts) ← flowItems handles depth false ts
      return (.mapping ⟨none, none⟩ [entry] :: items, ts)
    | ts =>
      let (item, ts) ← node handles false false depth ts
      let (items, ts) ← flowItems handles depth false ts
      return (item :: items, ts)

/-- The one entry of a mapping that stands between square brackets, after the mark of its key. What
ends a key that is absent is passed over. -/
def flowPair (handles : Handles) : Nat → List Token → Option ((Written × Written) × List Token)
  | 0, _ => none
  | depth + 1, ts => do
    let (key, ts) ←
      if endsEntry [.value, .flowEntry, .flowSequenceEnd] ts then some (absent, ts.drop 1)
      else node handles false false depth ts
    match ts with
    | .value :: ts =>
      let (value, ts) ←
        nodeOrAbsent handles false false [.flowEntry, .flowSequenceEnd] depth ts
      return ((key, value), ts)
    | ts => return ((key, absent), ts)

/-- The entries between braces, after the first or from it on. -/
def flowEntries (handles : Handles) :
    Nat → Bool → List Token → Option (List (Written × Written) × List Token)
  | 0, _, _ => none
  | _ + 1, _, .flowMappingEnd :: ts => some ([], ts)
  | depth + 1, first, ts => do
    let ts ← match first, ts with
      | true, ts => some ts
      | false, .flowEntry :: ts => some ts
      | false, _ => none
    match ts with
    | .flowMappingEnd :: ts => return ([], ts)
    | .key :: ts =>
      let (key, ts) ←
        nodeOrAbsent handles false false [.value, .flowEntry, .flowMappingEnd] depth ts
      let (value, ts) ← flowValue handles depth ts
      let (entries, ts) ← flowEntries handles depth false ts
      return ((key, value) :: entries, ts)
    | ts =>
      let (key, ts) ← node handles false false depth ts
      let (entries, ts) ← flowEntries handles depth false ts
      return ((key, absent) :: entries, ts)

/-- The value of an entry between braces. -/
def flowValue (handles : Handles) : Nat → List Token → Option (Written × List Token)
  | 0, _ => none
  | depth + 1, .value :: ts =>
    nodeOrAbsent handles false false [.flowEntry, .flowMappingEnd] depth ts
  | _ + 1, ts => some (absent, ts)

end

/-- The directives before a document: whether one stated a version, and the handles they state. -/
def directives (versioned : Bool) (handles : Handles) : List Token → Option (Handles × List Token)
  | .version major minor :: ts =>
    if versioned || major != 1 || (minor != 1 && minor != 2) then none
    else directives true handles ts
  | .tagDirective handle leading :: ts =>
    if handles.any (·.1 == handle) then none
    else directives versioned (handles ++ [(handle, leading)]) ts
  | ts => some (handles, ts)

/-- Whether tokens are the end of a text behind its document. -/
def isEnd : List Token → Bool
  | [] => true
  | .documentEnd :: ts => isEnd ts
  | _ :: _ => false

/-- How deep the reading of tokens may go; every step down or on passes a token or follows one that
does. -/
def depthFor (ts : List Token) : Nat := 4 * ts.length + 8

/-- The content of the document that tokens make up, behind its directives. -/
def content (handles : Handles) (isMarked : Bool) (ts : List Token) :
    Option (Written × List Token) :=
  if isMarked && (endsEntry [.documentStart, .documentEnd] ts || isDirective ts) then
    some (absent, ts)
  else node handles true false (depthFor ts) ts
where
  isDirective : List Token → Bool
    | .version _ _ :: _ => true
    | .tagDirective _ _ :: _ => true
    | _ => false

/-- The document that tokens make up, if they make up one at most. -/
def Written.ofTokens? (ts : List Token) : Option (Option Written) :=
  if ts.isEmpty then some none
  else do
    let (handles, rest) ← directives false [] ts
    let isMarked := rest.head? == some .documentStart
    if !isMarked && rest.length != ts.length then none
    let (root, rest) ←
      content (handles ++ standardHandles) isMarked (if isMarked then rest.drop 1 else rest)
    if isEnd rest then return some root else none

end Runbook.Yaml
