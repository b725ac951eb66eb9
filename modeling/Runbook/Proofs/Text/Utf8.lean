import Mathlib.Tactic.SplitIfs
import Runbook.Proofs.Text.Marks
import Runbook.Text.Utf8

set_option autoImplicit false
set_option relaxedAutoImplicit false

/-!
UTF-8 is read back: the octets of a character are decoded to that character, whatever comes after
them, and so the octets of a text to that text.
-/

namespace Runbook.Text

private theorem toNat_octet {n : Nat} (h : n < 256) : (UInt8.ofNat n).toNat = n := by
  rw [UInt8.toNat_ofNat']
  omega

/-- The octet that begins a sequence of two. -/
private theorem lead_two {n : Nat} (low : 0x80 ≤ n) (high : n ≤ 0x7ff) :
    lead (UInt8.ofNat (n / 64 % 32 + 0xc0)) = .opens ⟨n / 64, 1, 0x80, 0xBF⟩ := by
  have octet := toNat_octet (n := n / 64 % 32 + 0xc0) (by omega)
  unfold lead
  have value : n / 64 % 32 + 0xc0 - 0xC0 = n / 64 := by omega
  rw [octet]
  dsimp only
  rw [if_neg (by omega), if_neg (by omega), if_pos (by omega), value]

/-- The octet that begins a sequence of three; the range of the next one leaves out surrogates and
what is shorter otherwise. -/
private theorem lead_three {n : Nat} (low : 0x800 ≤ n) (high : n ≤ 0xffff)
    (scalar : n < 0xd800 ∨ 0xdfff < n) : ∃ least most,
    lead (UInt8.ofNat (n / 4096 % 16 + 0xe0)) = .opens ⟨n / 4096, 2, least, most⟩ ∧
      least ≤ n / 64 % 64 + 0x80 ∧ n / 64 % 64 + 0x80 ≤ most := by
  have octet := toNat_octet (n := n / 4096 % 16 + 0xe0) (by omega)
  unfold lead
  rw [octet]
  dsimp only
  rw [if_neg (by omega), if_neg (by omega), if_neg (by omega)]
  by_cases first : n / 4096 = 0
  · refine ⟨0xA0, 0xBF, ?_, by omega, by omega⟩
    simp [first]
  · by_cases surrogates : n / 4096 = 13
    · refine ⟨0x80, 0x9F, ?_, by omega, by omega⟩
      simp [surrogates]
    · refine ⟨0x80, 0xBF, ?_, by omega, by omega⟩
      have value : n / 4096 % 16 + 0xe0 - 0xE0 = n / 4096 := by omega
      rw [if_neg (by simp; omega), if_neg (by simp; omega), if_pos (by omega), value]

/-- The octet that begins a sequence of four. -/
private theorem lead_four {n : Nat} (low : 0x10000 ≤ n) (high : n < 0x110000) : ∃ least most,
    lead (UInt8.ofNat (n / 262144 % 8 + 0xf0)) = .opens ⟨n / 262144, 3, least, most⟩ ∧
      least ≤ n / 4096 % 64 + 0x80 ∧ n / 4096 % 64 + 0x80 ≤ most := by
  have octet := toNat_octet (n := n / 262144 % 8 + 0xf0) (by omega)
  unfold lead
  rw [octet]
  dsimp only
  rw [if_neg (by omega), if_neg (by omega), if_neg (by omega), if_neg (by simp),
    if_neg (by simp), if_neg (by omega)]
  by_cases first : n / 262144 = 0
  · refine ⟨0x90, 0xBF, ?_, by omega, by omega⟩
    simp [first]
  · by_cases last : n / 262144 = 4
    · refine ⟨0x80, 0x8F, ?_, by omega, by omega⟩
      simp [last]
    · refine ⟨0x80, 0xBF, ?_, by omega, by omega⟩
      have value : n / 262144 % 8 + 0xf0 - 0xF0 = n / 262144 := by omega
      rw [if_neg (by simp; omega), if_pos (by omega), value]

/-- An octet that continues a sequence. -/
private theorem piecesFrom_continue {value missing least most n : Nat} (high : n < 64)
    (from_least : least ≤ n + 0x80) (to_most : n + 0x80 ≤ most) (more : missing ≠ 1) (bs : Bytes) :
    piecesFrom (some ⟨value, missing, least, most⟩) (UInt8.ofNat (n + 0x80) :: bs) =
      piecesFrom (some ⟨value * 64 + n, missing - 1, 0x80, 0xBF⟩) bs := by
  have octet := toNat_octet (n := n + 0x80) (by omega)
  rw [piecesFrom, octet]
  simp [from_least, to_most, more]

/-- The octet that ends a sequence. -/
private theorem piecesFrom_end {value least most n : Nat} (high : n < 64)
    (from_least : least ≤ n + 0x80) (to_most : n + 0x80 ≤ most) (bs : Bytes) :
    piecesFrom (some ⟨value, 1, least, most⟩) (UInt8.ofNat (n + 0x80) :: bs) =
      some (Char.ofNat (value * 64 + n)) :: piecesFrom none bs := by
  have octet := toNat_octet (n := n + 0x80) (by omega)
  rw [piecesFrom, octet]
  simp [from_least, to_most]

private theorem piecesFrom_opens {b : UInt8} {p : Partial} (h : lead b = .opens p) (bs : Bytes) :
    piecesFrom none (b :: bs) = piecesFrom (some p) bs := by
  rw [piecesFrom, start, h]
  rfl

/-- The octets of a character are decoded to it. -/
theorem piecesFrom_utf8EncodeChar (c : Char) (bs : Bytes) :
    piecesFrom none (String.utf8EncodeChar c ++ bs) = some c :: piecesFrom none bs := by
  have back : Char.ofNat c.val.toNat = c := Char.ofNat_toNat c
  have scalar : c.val.toNat < 0xd800 ∨ 0xdfff < c.val.toNat ∧ c.val.toNat < 0x110000 := c.valid
  unfold String.utf8EncodeChar
  dsimp only
  generalize c.val.toNat = n at back scalar
  split_ifs with one two three
  · have octet := toNat_octet (n := n) (by omega)
    have whole : lead (UInt8.ofNat n) = .whole c := by
      unfold lead
      rw [octet]
      dsimp only
      rw [if_pos (by omega), back]
    rw [List.singleton_append, piecesFrom, start, whole]
    rfl
  · have value : n / 64 * 64 + n % 64 = n := by omega
    rw [List.cons_append, List.singleton_append, piecesFrom_opens (lead_two (by omega) two),
      piecesFrom_end (by omega) (by omega) (by omega), value, back]
  · obtain ⟨least, most, opens, from_least, to_most⟩ :=
      lead_three (n := n) (by omega) three (by omega)
    have value : (n / 4096 * 64 + n / 64 % 64) * 64 + n % 64 = n := by omega
    rw [List.cons_append, List.cons_append, List.singleton_append, piecesFrom_opens opens,
      piecesFrom_continue (by omega) from_least to_most (by omega),
      piecesFrom_end (by omega) (by omega) (by omega), value, back]
  · obtain ⟨least, most, opens, from_least, to_most⟩ := lead_four (n := n) (by omega) (by omega)
    have value : ((n / 262144 * 64 + n / 4096 % 64) * 64 + n / 64 % 64) * 64 + n % 64 = n := by
      omega
    rw [List.cons_append, List.cons_append, List.cons_append, List.singleton_append,
      piecesFrom_opens opens, piecesFrom_continue (by omega) from_least to_most (by omega),
      piecesFrom_continue (by omega) (by omega) (by omega) (by omega),
      piecesFrom_end (by omega) (by omega) (by omega), value, back]

theorem piecesFrom_flatMap (cs : List Char) (bs : Bytes) :
    piecesFrom none (cs.flatMap String.utf8EncodeChar ++ bs) =
      cs.map some ++ piecesFrom none bs := by
  induction cs with
  | nil => rfl
  | cons c cs ih =>
    rw [List.flatMap_cons, List.append_assoc, piecesFrom_utf8EncodeChar, ih, List.map_cons,
      List.cons_append]

theorem piecesFrom_encode (s : String) : piecesFrom none (encode s) = s.toList.map some := by
  have whole := piecesFrom_flatMap s.toList []
  rwa [List.append_nil, piecesFrom, List.append_nil] at whole

/-- A text is read back from its octets. -/
theorem decode?_encode (s : String) : decode? (encode s) = some s := by
  have whole : ∀ cs : List Char, (cs.map some).mapM id = some cs := by
    intro cs
    induction cs with
    | nil => rfl
    | cons c cs ih => simp [ih]
  unfold decode?
  rw [piecesFrom_encode, whole, Option.map_some, String.ofList_toList]

/-- To read the octets of a text loosely replaces nothing. -/
theorem decodeLossy_encode (s : String) : decodeLossy (encode s) = s := by
  unfold decodeLossy
  rw [piecesFrom_encode, List.map_map]
  simp [Function.comp_def]

theorem encode_append (s t : String) : encode (s ++ t) = encode s ++ encode t := by
  simp [encode]

theorem encode_join (texts : List String) :
    encode (String.join texts) = texts.flatMap encode := by
  unfold encode
  rw [String.toList_join, List.flatMap_assoc]

theorem encode_injective : Function.Injective encode := by
  intro s t same
  have back := decode?_encode s
  rw [same, decode?_encode] at back
  exact (Option.some.inj back).symm

theorem utf8EncodeChar_ascii {c : Char} (ascii : c.toNat < 0x80) :
    String.utf8EncodeChar c = [UInt8.ofNat c.toNat] := by
  unfold String.utf8EncodeChar
  exact if_pos (Nat.le_of_lt_succ ascii)

/-- The octets of a character that is not in ASCII are none that ASCII uses. -/
theorem high_of_mem_utf8EncodeChar {c : Char} {b : UInt8} (other : ¬ c.toNat < 0x80)
    (h : b ∈ String.utf8EncodeChar c) : 0x80 ≤ b.toNat := by
  have code : c.toNat = c.val.toNat := rfl
  have octet : ∀ n < 128, 0x80 ≤ (UInt8.ofNat (n + 0x80)).toNat := by
    intro n small
    rw [toNat_octet (by omega)]
    omega
  rw [code] at other
  unfold String.utf8EncodeChar at h
  dsimp only at h
  generalize c.val.toNat = n at other h
  split_ifs at h
  · omega
  all_goals
    simp only [List.mem_cons, List.not_mem_nil, or_false] at h
  · rcases h with rfl | rfl
    · exact octet (n / 64 % 32 + 0x40) (by omega)
    · exact octet (n % 64) (by omega)
  · rcases h with rfl | rfl | rfl
    · exact octet (n / 4096 % 16 + 0x60) (by omega)
    · exact octet (n / 64 % 64) (by omega)
    · exact octet (n % 64) (by omega)
  · rcases h with rfl | rfl | rfl | rfl
    · exact octet (n / 262144 % 8 + 0x70) (by omega)
    · exact octet (n / 4096 % 64) (by omega)
    · exact octet (n / 64 % 64) (by omega)
    · exact octet (n % 64) (by omega)

section Marks

variable {mark : List Char} {cs : List Char}

/-- Octets of characters at the front of others are those of the first characters. -/
theorem prefix_of_flatMap
    (h : mark.flatMap String.utf8EncodeChar <+: cs.flatMap String.utf8EncodeChar) :
    mark <+: cs := by
  obtain ⟨rest, whole⟩ := h
  have pieces := congrArg (piecesFrom none) whole
  have all := piecesFrom_flatMap cs []
  rw [List.append_nil, piecesFrom, List.append_nil] at all
  rw [piecesFrom_flatMap, all] at pieces
  exact (List.prefix_map_iff_of_injective fun _ _ => Option.some.inj).mp ⟨_, pieces⟩

/-- Octets of characters that stand among others come from those characters, if the first of them is
in ASCII. The induction is on the characters; the octets of one that is not in ASCII are skipped. -/
theorem infix_of_flatMap {c : Char} (ascii : c.toNat < 0x80)
    (h : (c :: mark).flatMap String.utf8EncodeChar <:+: cs.flatMap String.utf8EncodeChar) :
    c :: mark <:+: cs := by
  have first := utf8EncodeChar_ascii ascii
  have value : (UInt8.ofNat c.toNat).toNat = c.toNat := toNat_octet (by omega)
  induction cs with
  | nil =>
    rw [List.flatMap_cons, first, List.flatMap_nil] at h
    exact absurd (List.eq_nil_of_infix_nil h) (by simp)
  | cons d cs ih =>
    by_cases plain : d.toNat < 0x80
    · have octets : (d :: cs).flatMap String.utf8EncodeChar =
          UInt8.ofNat d.toNat :: cs.flatMap String.utf8EncodeChar := by
        rw [List.flatMap_cons, utf8EncodeChar_ascii plain, List.singleton_append]
      rw [octets] at h
      rcases List.infix_cons_iff.mp h with front | later
      · exact (prefix_of_flatMap (octets ▸ front)).isInfix
      · exact List.infix_cons (ih later)
    · refine List.infix_cons (ih ?_)
      rw [List.flatMap_cons, first, List.singleton_append] at h ⊢
      refine infix_of_notMem ?_ h
      intro member
      have high := high_of_mem_utf8EncodeChar plain member
      omega

/-- Characters that a text does not hold side by side do not come about in its octets. -/
theorem not_infix_encode {c : Char} {s : String} (ascii : c.toNat < 0x80)
    (h : ¬ c :: mark <:+: s.toList) :
    ¬ (c :: mark).flatMap String.utf8EncodeChar <:+: encode s :=
  fun within => h (infix_of_flatMap ascii within)

end Marks

end Runbook.Text
