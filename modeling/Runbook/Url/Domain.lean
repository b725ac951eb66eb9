import Runbook.Url.Punycode
import Runbook.Text.Blank
import Runbook.Text.Split

set_option autoImplicit false
set_option relaxedAutoImplicit false

/-!
Domain names. A name is folded to lower case and composed letters before it is compared or sent;
labels with characters outside ASCII are sent in Punycode after `xn--`. A few ASCII characters never
occur in a name. Letters are folded and composed as far as Latin, Greek, Cyrillic and Armenian go:
the compatibility forms of other letters (ligatures, circled or mathematical letters) are left as
they are, and so are the parts of Hangul syllables.
-/

namespace Runbook.Url

/-- Base letters and their composed forms in turn, by the mark that composes them. -/
def compositions : List (Char × String) := [
  ('\u0300', "aàeèiìoòuùüǜnǹēḕōṑwẁâầăằêềôồơờưừyỳеѐиѝ"),
  ('\u0301', "aáeéiíoóuúyýcćlĺnńrŕsśzźüǘgǵåǻæǽøǿçḉēḗïḯkḱmḿõṍōṓpṕũṹwẃâấăắêếôốơớưứгѓкќϊΐαάεέηήιί" ++
    "ϋΰοόυύωώ"),
  ('\u0302', "aâeêiîoôuûcĉgĝhĥjĵsŝwŵyŷzẑạậẹệọộ"),
  ('\u0303', "aãnñoõiĩuũvṽâẫăẵeẽêễôỗơỡưữyỹ"),
  ('\u0304', "aāeēiīoōuūüǖäǟȧǡæǣǫǭöȫõȭȯȱyȳgḡḷḹṛṝиӣуӯ"),
  ('\u0306', "aăeĕgğiĭoŏuŭȩḝạặийуўжӂаӑеӗ"),
  ('\u0307', "cċeėgġzżaȧoȯbḃdḋfḟhḣmṁnṅpṗrṙsṡśṥšṧṣṩtṫwẇxẋyẏſẛ"),
  ('\u0308', "aäeëiïoöuüyÿhḧõṏūṻwẅxẍtẗеёіїаӓәӛжӝзӟиӥоӧөӫэӭуӱчӵыӹιϊυϋ"),
  ('\u0309', "aảâẩăẳeẻêểiỉoỏôổơởuủưửyỷ"),
  ('\u030a', "aåuůwẘyẙ"),
  ('\u030b', "oőuűуӳ"),
  ('\u030c', "cčdďeělľnňrřsštťzžaǎiǐoǒuǔüǚgǧkǩʒǯjǰhȟ"),
  ('\u030f', "aȁeȅiȉoȍrȑuȕѵѷ"),
  ('\u0311', "aȃeȇiȋoȏrȓuȗ"),
  ('\u031b', "oơuư"),
  ('\u0323', "bḅdḍhḥkḳlḷmṃnṇrṛsṣtṭvṿwẉzẓaạeẹiịoọơợuụưựyỵ"),
  ('\u0324', "uṳ"),
  ('\u0325', "aḁ"),
  ('\u0326', "sștț"),
  ('\u0327', "cçgģkķlļnņrŗsştţeȩdḑhḩ"),
  ('\u0328', "aąeęiįuųoǫ"),
  ('\u032d', "dḓeḙlḽnṋtṱuṷ"),
  ('\u032e', "hḫ"),
  ('\u0330', "eḛiḭuṵ"),
  ('\u0331', "bḇdḏkḵlḻnṉrṟtṯzẕhẖ")]

/-- The composed form of a base letter, among base letters and their composed forms in turn. -/
def composedOf? (c : Char) : List Char → Option Char
  | base :: composed :: rest => if base == c then some composed else composedOf? c rest
  | _ => none

/-- The letter that a base letter and a mark compose. -/
def compose? (c mark : Char) : Option Char :=
  (compositions.find? (·.1 == mark)).bind fun (_, pairs) => composedOf? c pairs.toList

/-- A text with every mark composed with the letter before it, where a composed letter exists. -/
def composeMarks (cs : List Char) : List Char :=
  (cs.foldl (fun (done : List Char) c =>
    match done with
    | last :: rest => match compose? last c with
      | some composed => composed :: rest
      | none => c :: done
    | [] => [c]) []).reverse

/-- The marks that combine with the letter before them. -/
def isMark (c : Char) : Bool := 0x300 ≤ c.toNat && c.toNat ≤ 0x36F

/-- Whether the code points of a block hold capitals and small letters in turn, capitals first on
even numbers. -/
def isEvenCapital (n : Nat) : Bool :=
  n % 2 == 0 &&
    ((0x100 ≤ n && n ≤ 0x136) || (0x14A ≤ n && n ≤ 0x176) || (0x1E00 ≤ n && n ≤ 0x1E94) ||
      (0x1EA0 ≤ n && n ≤ 0x1EFE) || (0x460 ≤ n && n ≤ 0x480) || (0x48A ≤ n && n ≤ 0x4BE) ||
      (0x4D0 ≤ n && n ≤ 0x52E) || (0x1F8 ≤ n && n ≤ 0x21E) || (0x222 ≤ n && n ≤ 0x232) ||
      (0x1DE ≤ n && n ≤ 0x1EE))

/-- Whether the code points of a block hold capitals and small letters in turn, capitals first on
odd numbers. -/
def isOddCapital (n : Nat) : Bool :=
  n % 2 == 1 &&
    ((0x139 ≤ n && n ≤ 0x147) || (0x179 ≤ n && n ≤ 0x17D) || (0x4C1 ≤ n && n ≤ 0x4CD) ||
      (0x1CD ≤ n && n ≤ 0x1DB))

/-- The small letter of a capital outside ASCII, as a distance. -/
def smallLetterShift (n : Nat) : Nat :=
  if 0xC0 ≤ n && n ≤ 0xDE && n != 0xD7 then 32
  else if n == 0x178 then 0
  else if isEvenCapital n || isOddCapital n then 1
  else if 0x391 ≤ n && n ≤ 0x3AB && n != 0x3A2 then 32
  else if n == 0x386 then 38
  else if 0x388 ≤ n && n ≤ 0x38A then 37
  else if n == 0x38C then 64
  else if n == 0x38E || n == 0x38F then 63
  else if 0x410 ≤ n && n ≤ 0x42F then 32
  else if 0x400 ≤ n && n ≤ 0x40F then 80
  else if n == 0x4C0 then 15
  else if 0x531 ≤ n && n ≤ 0x556 then 48
  else 0

/-- The characters that are dropped from names: the soft hyphen, joiners of words and selectors of
variants. -/
def isIgnored (n : Nat) : Bool :=
  n == 0xAD || n == 0x34F || n == 0x200B || n == 0x2060 || n == 0x2064 || n == 0xFEFF ||
    (0xFE00 ≤ n && n ≤ 0xFE0F) || (0x180B ≤ n && n ≤ 0x180D)

/-- The characters outside ASCII that names may not hold: controls, spaces, marks of direction,
private and undefined code points. -/
def isDisallowed (n : Nat) : Bool :=
  n < 0xA0 || Text.isBlank (Char.ofNat n) || n == 0xA8 || n == 0xAF || n == 0xB4 || n == 0xB8 ||
    n == 0x200E || n == 0x200F || (0x202A ≤ n && n ≤ 0x202E) || (0x2066 ≤ n && n ≤ 0x206F) ||
    (0xE000 ≤ n && n ≤ 0xF8FF) || (0xFDD0 ≤ n && n ≤ 0xFDEF) || (0xFFF0 ≤ n && n ≤ 0xFFFF) ||
    n % 0x10000 == 0xFFFE || n % 0x10000 == 0xFFFF || 0xE0000 ≤ n

/-- What a character of a name becomes. -/
def foldChar (c : Char) : Option (List Char) :=
  let n := c.toNat
  if n < 0x80 then some [c.toLower]
  else if n == 0x3002 || n == 0xFF0E || n == 0xFF61 then some ['.']
  else if 0xFF01 ≤ n && n ≤ 0xFF5E then some [(Char.ofNat (n - 0xFEE0)).toLower]
  else if isIgnored n then some []
  else if isDisallowed n then none
  else match n with
    | 0xAA => some ['a']
    | 0xB2 => some ['2']
    | 0xB3 => some ['3']
    | 0xB5 => some [Char.ofNat 0x3BC]
    | 0xB9 => some ['1']
    | 0xBA => some ['o']
    | 0x130 => some ['i', Char.ofNat 0x307]
    | 0x132 => some ['i', 'j']
    | 0x133 => some ['i', 'j']
    | 0x178 => some [Char.ofNat 0xFF]
    | 0x17F => some ['s']
    | 0x1E9E => some [Char.ofNat 0xDF]
    | 0x2122 => some ['t', 'm']
    | _ => some [Char.ofNat (n + smallLetterShift n)]

/-- A name in small composed letters, if it holds nothing that names may not hold. -/
def foldName? (cs : List Char) : Option (List Char) :=
  (cs.mapM foldChar).map fun folded => composeMarks folded.flatten

/-- The ASCII characters that no name holds. -/
def isForbiddenInName (c : Char) : Bool :=
  c.toNat ≤ 0x20 || c.toNat == 0x7F || "%#/:<>?@[\\]^|".toList.contains c

def isAscii (cs : List Char) : Bool := cs.all (·.toNat < 0x80)

/-- The signs that kill the vowel of the letter before them. -/
def isVirama (c : Char) : Bool :=
  c.toNat ∈ [0x94D, 0x9CD, 0xA4D, 0xACD, 0xB4D, 0xBCD, 0xC4D, 0xCCD, 0xD3B, 0xD3C, 0xD4D, 0xDCA,
    0xE3A, 0xEBA, 0xF84, 0x1039, 0x103A, 0x1714, 0x1734, 0x17D2, 0x1A60, 0x1B44, 0x1BAA, 0x1BAB]

/-- The letters of scripts in which neighbours join. -/
def isJoining (c : Char) : Bool := 0x620 ≤ c.toNat && c.toNat ≤ 0x74F

/-- Whether every joiner follows a virama, and every non-joiner a virama or a letter that would join
the one after it. -/
def joinersFit (before : Option Char) : List Char → Bool
  | [] => true
  | c :: cs =>
    let fits :=
      if c.toNat == 0x200D then before.any isVirama
      else if c.toNat == 0x200C then
        before.any isVirama || (before.any isJoining && cs.head?.any isJoining)
      else true
    fits && joinersFit (some c) cs

/-- Whether a folded label with characters outside ASCII may be one. -/
def isUnicodeLabel (label : List Char) : Bool :=
  !label.head?.any isMark && joinersFit none label

/-- The form in which a folded label is sent. A label that already is Punycode has to be the form of
some folded label. -/
def labelToAscii? (label : List Char) : Option (List Char) :=
  match label with
  | 'x' :: 'n' :: '-' :: '-' :: rest =>
    match Punycode.decode? rest with
    | some decoded =>
      if isAscii label && !isAscii decoded && foldName? decoded == some decoded &&
          !decoded.contains '.' && isUnicodeLabel decoded then
        some label
      else none
    | none => none
  | _ =>
    if isAscii label then some label
    else if isUnicodeLabel label then some ('x' :: 'n' :: '-' :: '-' :: Punycode.encode label)
    else none

/-- The ASCII form of a domain name. -/
def domainToAscii? (cs : List Char) : Option (List Char) := do
  let folded ← foldName? cs
  if folded.any isForbiddenInName then none
  let labels ← (Text.split '.' folded).mapM labelToAscii?
  return ['.'].intercalate labels

end Runbook.Url
