set_option autoImplicit false
set_option relaxedAutoImplicit false

/-!
UTF-8. Decoding cuts the bytes into characters and ill-formed pieces, an ill-formed piece being as
long as some well-formed sequence still begins with it; reading strictly refuses the pieces and
reading loosely shows a replacement character for each.
-/

namespace Runbook.Text

/-- The octets of a file, a message body or a dump. -/
abbrev Bytes := List UInt8

/-- The UTF-8 form of a text. -/
def encode (s : String) : Bytes := s.toList.flatMap String.utf8EncodeChar

/-- A sequence begun but not finished: the value so far, the octets still to come, and the range
the next of them must lie in. -/
structure Partial where
  value : Nat
  missing : Nat
  low : Nat
  high : Nat

inductive Lead
  | whole (c : Char)
  | opens (p : Partial)
  | stray

/-- The role of an octet at the start of a sequence. -/
def lead (b : UInt8) : Lead :=
  let n := b.toNat
  if n < 0x80 then .whole (Char.ofNat n)
  else if n < 0xC2 then .stray
  else if n < 0xE0 then .opens ⟨n - 0xC0, 1, 0x80, 0xBF⟩
  else if n == 0xE0 then .opens ⟨0, 2, 0xA0, 0xBF⟩
  else if n == 0xED then .opens ⟨13, 2, 0x80, 0x9F⟩
  else if n < 0xF0 then .opens ⟨n - 0xE0, 2, 0x80, 0xBF⟩
  else if n == 0xF0 then .opens ⟨0, 3, 0x90, 0xBF⟩
  else if n < 0xF4 then .opens ⟨n - 0xF0, 3, 0x80, 0xBF⟩
  else if n == 0xF4 then .opens ⟨4, 3, 0x80, 0x8F⟩
  else .stray

/-- The pieces that an octet at the start of a sequence completes, and the sequence it opens. -/
def start (b : UInt8) : List (Option Char) × Option Partial :=
  match lead b with
  | .whole c => ([some c], none)
  | .opens p => ([], some p)
  | .stray => ([none], none)

/-- The pieces of a byte string after an unfinished sequence, an ill-formed one being `none`. -/
def piecesFrom : Option Partial → Bytes → List (Option Char)
  | none, [] => []
  | some _, [] => [none]
  | none, b :: bs => (start b).1 ++ piecesFrom (start b).2 bs
  | some p, b :: bs =>
    if p.low ≤ b.toNat && b.toNat ≤ p.high then
      let value := p.value * 64 + (b.toNat - 0x80)
      if p.missing == 1 then some (Char.ofNat value) :: piecesFrom none bs
      else piecesFrom (some ⟨value, p.missing - 1, 0x80, 0xBF⟩) bs
    else none :: ((start b).1 ++ piecesFrom (start b).2 bs)

/-- The text that a byte string is the UTF-8 form of. -/
def decode? (bytes : Bytes) : Option String :=
  ((piecesFrom none bytes).mapM id).map String.ofList

/-- The text of a byte string with U+FFFD for every ill-formed piece. -/
def decodeLossy (bytes : Bytes) : String :=
  String.ofList ((piecesFrom none bytes).map (·.getD (Char.ofNat 0xFFFD)))

example : decode? [0xE2, 0x82, 0xAC, 0x21] = some "€!" := by decide
example : decode? [0xED, 0xA0, 0x80] = none := by decide
example : decodeLossy [0x61, 0xE2, 0x82, 0x62, 0xFF] = "a�b�" := by decide

end Runbook.Text
