import Runbook.Text.Utf8
import Runbook.Text.Hex

set_option autoImplicit false
set_option relaxedAutoImplicit false

/-!
Percent-encoding. Each part of a URL has its own set of ASCII characters that are written as octets;
characters outside ASCII always are.
-/

namespace Runbook.Url

open Runbook.Text (Bytes)

/-- The C0 controls and delete. -/
def isControl (c : Char) : Bool := c.toNat < 0x20 || c.toNat == 0x7F

/-- Encoded in a fragment. -/
def inFragmentSet (c : Char) : Bool :=
  isControl c || c == ' ' || c == '"' || c == '<' || c == '>' || c.toNat == 0x60

/-- Encoded in a path. -/
def inPathSet (c : Char) : Bool :=
  inFragmentSet c || c == '#' || c == '?' || c == '\x7b' || c == '\x7d'

/-- Encoded in a user name or password. -/
def inUserinfoSet (c : Char) : Bool :=
  inPathSet c || "/:;=@[\\]^|".toList.contains c

/-- Encoded in a query. -/
def inQuerySet (c : Char) : Bool :=
  isControl c || c == ' ' || c == '"' || c == '#' || c == '<' || c == '>'

/-- Encoded in the query of a special scheme. -/
def inSpecialQuerySet (c : Char) : Bool := inQuerySet c || c == '\''

/-- An octet as a percent sign and two digits. -/
def percent (b : UInt8) : List Char :=
  ['%', Text.upperHex (b.toNat / 16), Text.upperHex (b.toNat % 16)]

/-- A character as it stands in a part of a URL with a set of encoded characters. -/
def percentEncode (inSet : Char → Bool) (c : Char) : List Char :=
  if inSet c || 0x80 ≤ c.toNat then (String.utf8EncodeChar c).flatMap percent else [c]

/-- The value of an octet that is a hexadecimal digit. -/
def hexOctet? (b : UInt8) : Option Nat := Text.hexValue? (Char.ofNat b.toNat)

/-- The octets with every percent sign and two digits replaced by the octet they stand for. -/
def percentDecode : Bytes → Bytes
  | [] => []
  | b :: rest =>
    if b.toNat == 0x25 then
      match rest with
      | h :: l :: tail =>
        match hexOctet? h, hexOctet? l with
        | some h, some l => UInt8.ofNat (16 * h + l) :: percentDecode tail
        | _, _ => b :: percentDecode (h :: l :: tail)
      | [x] => [b, x]
      | [] => [b]
    else b :: percentDecode rest

end Runbook.Url
