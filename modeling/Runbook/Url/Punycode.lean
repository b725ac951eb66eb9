set_option autoImplicit false
set_option relaxedAutoImplicit false

/-!
Punycode, the ASCII form of domain labels with other characters: the ASCII characters of a label, a
hyphen, and then the positions and code points of the others in order of code point, each as the
distance from the one before, in digits of a base that adapts to the size of the distances.
-/

namespace Runbook.Url.Punycode

def base : Nat := 36

/-- The digit with a value: letters first, then decimal digits. -/
def digit (d : Nat) : Char := if d < 26 then Char.ofNat (97 + d) else Char.ofNat (22 + d)

def value? (c : Char) : Option Nat :=
  if c.isLower then some (c.toNat - 97)
  else if c.isUpper then some (c.toNat - 65)
  else if c.isDigit then some (c.toNat - 22)
  else none

/-- The value below which a digit at a place is the last of its number. -/
def threshold (bias place : Nat) : Nat :=
  if place ≤ bias then 1 else if bias + 26 ≤ place then 26 else place - bias

theorem threshold_pos (bias place : Nat) : 1 ≤ threshold bias place := by
  unfold threshold
  split
  · omega
  · split <;> omega

theorem threshold_lt_base (bias place : Nat) : threshold bias place < base := by
  unfold threshold base
  split
  · omega
  · split <;> omega

/-- The places that a scaled distance takes. -/
def places (distance place : Nat) : Nat :=
  if _h : 455 < distance then places (distance / 35) (place + base)
  else place + 36 * distance / (distance + 38)
termination_by distance
decreasing_by exact Nat.div_lt_self (by omega) (by decide)

/-- The bias after a distance, the first one being damped. -/
def adapt (distance count : Nat) (isFirst : Bool) : Nat :=
  let scaled := if isFirst then distance / 700 else distance / 2
  places (scaled + scaled / count) 0

def digits (bias place distance : Nat) : List Char :=
  if _h : distance < threshold bias place then [digit distance]
  else
    let t := threshold bias place
    digit (t + (distance - t) % (base - t)) ::
      digits bias (place + base) ((distance - t) / (base - t))
termination_by distance
decreasing_by
  have hpos := threshold_pos bias place
  exact Nat.lt_of_le_of_lt (Nat.div_le_self _ _) (by omega)

/-- The state of encoding: what is written, the distance so far, the bias and the number of
characters placed. -/
structure Encoding where
  written : List Char
  distance : Nat
  bias : Nat
  placed : Nat

def Encoding.step (basic point : Nat) (e : Encoding) (c : Char) : Encoding :=
  if c.toNat < point then { e with distance := e.distance + 1 }
  else if c.toNat == point then
    { written := e.written ++ digits e.bias base e.distance
      distance := 0
      bias := adapt e.distance (e.placed + 1) (e.placed == basic)
      placed := e.placed + 1 }
  else e

/-- A number put into a strictly increasing list. -/
def insertSorted (n : Nat) : List Nat → List Nat
  | [] => [n]
  | m :: ms => if n < m then n :: m :: ms else if n == m then m :: ms else m :: insertSorted n ms

/-- The state after all code points of a list are placed, the first not below a bound. -/
def Encoding.run (label : List Char) (basic : Nat) : List Nat → Nat → Encoding → Encoding
  | [], _, e => e
  | point :: points, bound, e =>
    let e := { e with distance := e.distance + (point - bound) * (e.placed + 1) }
    let e := label.foldl (Encoding.step basic point) e
    Encoding.run label basic points (point + 1) { e with distance := e.distance + 1 }

/-- The ASCII form of a label. -/
def encode (label : List Char) : List Char :=
  let ascii := label.filter (·.toNat < 0x80)
  let points := (label.filter (0x80 ≤ ·.toNat)).foldr (fun c ps => insertSorted c.toNat ps) []
  let e := Encoding.run label ascii.length points 0x80 ⟨[], 0, 72, ascii.length⟩
  ascii ++ (if ascii.isEmpty then [] else ['-']) ++ e.written

/-- The state of decoding: what is decoded, the last code point, the bias, and the distance being
read with its start, weight and place. -/
structure Decoding where
  decoded : List Char
  point : Nat
  bias : Nat
  distance : Nat
  start : Nat
  weight : Nat
  place : Nat

def Decoding.step (d : Decoding) (c : Char) : Option Decoding := do
  let v ← value? c
  let distance := d.distance + v * d.weight
  let t := threshold d.bias d.place
  if v < t then
    let count := d.decoded.length + 1
    let point := d.point + distance / count
    let position := distance % count
    if h : point.isValidChar then
      let (before, after) := (d.decoded.take position, d.decoded.drop position)
      return { decoded := before ++ Char.ofNatAux point h :: after
               point
               bias := adapt (distance - d.start) count (d.start == 0)
               distance := position + 1
               start := position + 1
               weight := 1
               place := base }
    else none
  else return { d with distance, weight := d.weight * (base - t), place := d.place + base }

/-- The label of an ASCII form. -/
def decode? (cs : List Char) : Option (List Char) := do
  let tail := (cs.reverse.takeWhile (· != '-')).reverse
  let ascii := (cs.take (cs.length - tail.length)).dropLast
  let d ← tail.foldlM Decoding.step ⟨ascii, 0x80, 72, 0, 0, 1, base⟩
  if d.place == base then return d.decoded else none

end Runbook.Url.Punycode
