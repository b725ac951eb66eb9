import Runbook.Yaml.Block
import Runbook.Yaml.Plain
import Runbook.Yaml.Property
import Runbook.Yaml.Quoted

set_option autoImplicit false
set_option relaxedAutoImplicit false

/-!
From text to tokens. Indentation becomes tokens that open and close blocks. A key that is not
marked as one is found out by the colon behind it: the place where one may have begun is kept, and
the tokens that mark it are put there afterwards.
-/

namespace Runbook.Yaml

/-- Where an unmarked key may have begun: the number of its first token, its place, and whether
nothing else may stand there. -/
structure KeyPlace where
  token : Nat
  mark : Mark
  required : Bool

/-- The state of reading: what is left, how many brackets are open, the indentations of the open
blocks, whether a key may begin here, where keys may have begun (innermost first, one for each open
bracket and one outside), and the tokens, last first. -/
structure Lexer where
  cursor : Cursor
  flow : Nat
  indent : Int
  outer : List Int
  allowsKey : Bool
  place : Option KeyPlace
  outerPlaces : List (Option KeyPlace)
  tokens : List Token
  count : Nat

namespace Lexer

def start (cs : List Char) : Lexer := ⟨⟨cs, ⟨0, 0, 0⟩⟩, 0, -1, [], true, none, [], [], 0⟩

def column (l : Lexer) : Nat := l.cursor.mark.column

def inFlow (l : Lexer) : Bool := l.flow != 0

/-- A token comes last. -/
def add (l : Lexer) (t : Token) : Lexer := { l with tokens := t :: l.tokens, count := l.count + 1 }

/-- A token takes a number; the tokens from that number on move up. -/
def insertAt (l : Lexer) (number : Nat) (t : Token) : Lexer :=
  { l with tokens := l.tokens.insertIdx (l.count - number) t, count := l.count + 1 }

def moveTo (l : Lexer) (c : Cursor) : Lexer := { l with cursor := c }

def skip (l : Lexer) (count : Nat) : Lexer := l.moveTo (l.cursor.skip count)

/-- Whether a key may begin next. -/
def allowKey (l : Lexer) (b : Bool) : Lexer := { l with allowsKey := b }

/-- Blocks that are indented more than a column end; brackets keep them open. -/
def unrollFrom (l : Lexer) (column : Int) : Int → List Int → Lexer
  | indent, [] => { l with indent, outer := [] }
  | indent, next :: outer =>
    if column < indent then (l.add .blockEnd).unrollFrom column next outer
    else { l with indent, outer := next :: outer }

/-- Blocks that are indented more than a column end. -/
def unroll (l : Lexer) (column : Int) : Lexer :=
  if l.inFlow then l else l.unrollFrom column l.indent l.outer

/-- A block begins at a column if it is indented more than the one around it; its opening token
takes a number. -/
def roll (l : Lexer) (column number : Nat) (t : Token) : Lexer :=
  if !l.inFlow && l.indent < column then
    { l.insertAt number t with indent := column, outer := l.indent :: l.outer }
  else l

/-- Whether a key that may have begun at a place is still missing its colon. -/
def isRequired (place : Option KeyPlace) : Bool := place.any (·.required)

/-- No key has begun at the innermost place after all. -/
def dropKey (l : Lexer) : Option Lexer :=
  if isRequired l.place then none else some { l with place := none }

/-- A key may begin here. -/
def saveKey (l : Lexer) : Option Lexer :=
  if l.allowsKey then do
    let l ← l.dropKey
    let required := !l.inFlow && l.indent == l.column
    return { l with place := some ⟨l.count, l.cursor.mark, required⟩ }
  else some l

/-- The most characters between the beginning of an unmarked key and its colon. -/
def maxKeyLength : Nat := 1024

/-- Whether a key that began at a place would have ended before another one. -/
def isStale (now : Mark) (k : KeyPlace) : Bool :=
  k.mark.line < now.line || k.mark.index + maxKeyLength < now.index

/-- A place unless it is stale. -/
def keepFresh (now : Mark) (place : Option KeyPlace) : Option (Option KeyPlace) :=
  match place with
  | none => some none
  | some k => if isStale now k then (if k.required then none else some none) else some (some k)

/-- Keys must be on one line and not too long. -/
def dropStale (l : Lexer) : Option Lexer := do
  let now := l.cursor.mark
  let place ← keepFresh now l.place
  let outerPlaces ← l.outerPlaces.mapM (keepFresh now)
  return { l with place, outerPlaces }

/-- The places where a comment or white space does not end: what lies before the next token, and
whether a line break was passed. -/
def skipBlanks (inFlow : Bool) : Bool → Bool → Mark → List Char → Cursor × Bool
  | allowsKey, _, m, [] => (⟨[], m⟩, allowsKey)
  | allowsKey, _, m, '\r' :: '\n' :: cs =>
    skipBlanks inFlow (allowsKey || !inFlow) false (m.newline 2) cs
  | allowsKey, inComment, m, c :: cs =>
    if isBreak c then skipBlanks inFlow (allowsKey || !inFlow) false (m.newline 1) cs
    else if inComment || c == ' ' || c == '#' || (c == '\t' && (inFlow || !allowsKey)) ||
        (m.column == 0 && isByteOrderMark c) then
      skipBlanks inFlow allowsKey (inComment || c == '#') (m.along 1) cs
    else (⟨c :: cs, m⟩, allowsKey)

/-- Reading goes on at the next token. -/
def skipToToken (l : Lexer) : Lexer :=
  let (cursor, allowsKey) :=
    skipBlanks l.inFlow l.allowsKey false l.cursor.mark l.cursor.rest
  { l with cursor, allowsKey }

def readDirective (l : Lexer) : Option Lexer := do
  let l ← (l.unroll (-1)).dropKey
  let (token, after) ← directive (l.cursor.skip 1)
  return ((l.allowKey false).add token).moveTo after

/-- A marker of a document. -/
def readMarker (l : Lexer) (t : Token) : Option Lexer := do
  let l ← (l.unroll (-1)).dropKey
  return ((l.allowKey false).add t).skip 3

def openFlow (l : Lexer) (t : Token) : Option Lexer := do
  let l ← l.saveKey
  return ({ l with
    flow := l.flow + 1, place := none, outerPlaces := l.place :: l.outerPlaces,
    allowsKey := true }.add t).skip 1

def closeFlow (l : Lexer) (t : Token) : Option Lexer := do
  let l ← l.dropKey
  let l := match l.flow, l.outerPlaces with
    | n + 1, place :: outerPlaces => { l with flow := n, place, outerPlaces }
    | _, _ => l
  return ((l.allowKey false).add t).skip 1

def readFlowEntry (l : Lexer) : Option Lexer := do
  let l ← l.dropKey
  return ((l.allowKey true).add .flowEntry).skip 1

/-- A block begins here if it is indented more than the one around it. -/
def rollHere (l : Lexer) (t : Token) : Option Lexer :=
  if l.inFlow then some l
  else if l.allowsKey then some (l.roll l.column l.count t)
  else none

/-- The dash of an item. -/
def readBlockEntry (l : Lexer) : Option Lexer := do
  let l ← (← l.rollHere .blockSequence).dropKey
  return ((l.allowKey true).add .blockEntry).skip 1

/-- The question mark of a key. -/
def readKey (l : Lexer) : Option Lexer := do
  let l ← (← l.rollHere .blockMapping).dropKey
  return ((l.allowKey !l.inFlow).add .key).skip 1

/-- The colon of a value, which may find out the key before it. -/
def readValue (l : Lexer) : Option Lexer :=
  match l.place with
  | some k =>
    let l := (l.insertAt k.token .key).roll k.mark.column k.token .blockMapping
    some ((({ l with place := none }.allowKey false).add .value).skip 1)
  | none => do
    let l ← l.rollHere .blockMapping
    return ((l.allowKey !l.inFlow).add .value).skip 1

/-- A token that may begin a key. -/
def readToken (l : Lexer) (read : Cursor → Option (Token × Cursor)) : Option Lexer := do
  let l ← l.saveKey
  let (token, after) ← read l.cursor
  return ((l.allowKey false).add token).moveTo after

def readBlockScalar (l : Lexer) (folds : Bool) : Option Lexer := do
  let l ← l.dropKey
  let (text, after) ← blockScalar folds l.indent (l.cursor.skip 1)
  return ((l.allowKey true).add (.scalar (if folds then .folded else .literal) text)).moveTo after

/-- A plain scalar, behind which a key may begin if lines were passed. -/
def readPlain (l : Lexer) : Option Lexer := do
  let l ← l.saveKey
  let (text, passed, after) ← plainScalar l.inFlow (l.indent + 1) l.cursor
  return ((l.allowKey passed).add (.scalar .plain text)).moveTo after

/-- The characters that no plain scalar begins with, whatever follows them. -/
def isIndicator (c : Char) : Bool :=
  c ∈ ['-', '?', ':', ',', '[', ']', '{', '}', '#', '&', '*', '!', '|', '>', '\'', '"', '%', '@',
    Char.ofNat 96]

/-- Whether a plain scalar begins with a character and the one after it. -/
def beginsPlain (inFlow : Bool) (c : Char) (next : Option Char) : Bool :=
  (!isBlank c && !isIndicator c) || (c == '-' && !next.any isBlank) ||
    (!inFlow && (c == '?' || c == ':') && !isBlankOrEnd next)

/-- The token that begins with a character. -/
def readAt (l : Lexer) (c : Char) (next : Option Char) : Option Lexer :=
  let inFlow := l.inFlow
  if l.column == 0 && c == '%' then l.readDirective
  else if l.column == 0 && isStartMarker l.cursor.rest then l.readMarker .documentStart
  else if l.column == 0 && isEndMarker l.cursor.rest then l.readMarker .documentEnd
  else if c == '[' then l.openFlow .flowSequence
  else if c == '{' then l.openFlow .flowMapping
  else if c == ']' then l.closeFlow .flowSequenceEnd
  else if c == '}' then l.closeFlow .flowMappingEnd
  else if c == ',' then l.readFlowEntry
  else if c == '-' && isBlankOrEnd next then l.readBlockEntry
  else if c == '?' && (inFlow || isBlankOrEnd next) then l.readKey
  else if c == ':' && (inFlow || isBlankOrEnd next) then l.readValue
  else if c == '*' then
    l.readToken fun cur => (anchorName (cur.skip 1)).map fun (name, after) => (.alias name, after)
  else if c == '&' then
    l.readToken fun cur => (anchorName (cur.skip 1)).map fun (name, after) => (.anchor name, after)
  else if c == '!' then l.readToken (tag inFlow)
  else if c == '|' && !inFlow then l.readBlockScalar false
  else if c == '>' && !inFlow then l.readBlockScalar true
  else if c == '\'' then
    l.readToken fun cur => (quotedScalar false (cur.skip 1)).map fun (s, after) =>
      (.scalar .single s, after)
  else if c == '"' then
    l.readToken fun cur => (quotedScalar true (cur.skip 1)).map fun (s, after) =>
      (.scalar .double s, after)
  else if beginsPlain inFlow c next then l.readPlain
  else none

/-- The tokens up to the end, in at most so many steps: each but the last passes a character. -/
def run : Nat → Lexer → Option Lexer
  | 0, _ => none
  | steps + 1, l => do
    let l := l.skipToToken
    let l ← l.dropStale
    let l := l.unroll l.column
    match l.cursor.rest with
    | [] => (l.unroll (-1)).dropKey
    | c :: rest => do
      let l ← l.readAt c rest.head?
      run steps l

end Lexer

/-- A text without a byte order mark at its beginning. -/
def dropByteOrderMark : List Char → List Char
  | c :: cs => if isByteOrderMark c then cs else c :: cs
  | [] => []

/-- The tokens of a text. -/
def Token.lex? (cs : List Char) : Option (List Token) :=
  let cs := dropByteOrderMark cs
  if cs.all isReadable then
    (Lexer.run (cs.length + 1) (.start cs)).map (·.tokens.reverse)
  else none

end Runbook.Yaml
