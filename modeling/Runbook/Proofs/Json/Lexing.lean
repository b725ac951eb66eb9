import Mathlib.Data.List.TakeWhile
import Mathlib.Tactic.SplitIfs
import Runbook.Json.Printer
import Runbook.Json.Token

set_option autoImplicit false
set_option relaxedAutoImplicit false

/-!
The tokens of printed values. The compact text of a value without floating-point numbers is cut into
the tokens that its shape lays down: texts come back through their escapes and integers through
their digits, whatever follows a value, unless it would go on with its last word or number.
-/

namespace Runbook

namespace Value

mutual

/-- Whether all numbers in a value are integers. -/
def isExact : Value → Bool
  | .num (.integer _ _ _) => true
  | .num (.real _) => false
  | .list items => areExact items
  | .map members => areExactIn members
  | .null => true
  | .bool _ => true
  | .str _ => true

def areExact : List Value → Bool
  | [] => true
  | v :: vs => isExact v && areExact vs

def areExactIn : List (String × Value) → Bool
  | [] => true
  | (_, v) :: rest => isExact v && areExactIn rest

end

end Value

namespace Json

mutual

/-- The tokens of a value. -/
def tokens : Value → List Token
  | .null => [.scalar .null]
  | .bool b => [.scalar (.bool b)]
  | .num n => [.scalar (.num n)]
  | .str s => [.text s]
  | .list [] => [.openList, .closeList]
  | .list (v :: vs) => .openList :: tokens v ++ itemTokens vs
  | .map [] => [.openMap, .closeMap]
  | .map ((k, v) :: rest) => .openMap :: .text k :: .colon :: tokens v ++ memberTokens rest

/-- The tokens of the items after the first, and of the closing bracket. -/
def itemTokens : List Value → List Token
  | [] => [.closeList]
  | v :: vs => .comma :: tokens v ++ itemTokens vs

/-- The tokens of the members after the first, and of the closing brace. -/
def memberTokens : List (String × Value) → List Token
  | [] => [.closeMap]
  | (k, v) :: rest => .comma :: .text k :: .colon :: tokens v ++ memberTokens rest

end

section Texts

/-- How a character is written in a text: by an escape of its own, by the digits of its code, or as
it is. -/
inductive Escaped (c : Char) : List Char → Prop
  | short {x : Char} : escaped? x = some c → Escaped c ['\\', x]
  | code : c.toNat < 0x20 → Escaped c
      ['\\', 'u', '0', '0', Text.lowerHex (c.toNat / 16), Text.lowerHex (c.toNat % 16)]
  | plain : c ≠ '"' → c ≠ '\\' → 0x20 ≤ c.toNat → Escaped c [c]

theorem escaped_escape (c : Char) : Escaped c (escape c) := by
  unfold escape
  split
  · exact .short rfl
  · exact .short rfl
  · exact .short rfl
  · exact .short rfl
  · exact .short rfl
  · next quote backslash feed ret tab =>
    have back : Char.ofNat c.toNat = c := Char.ofNat_toNat c
    split_ifs with backspace form control
    · rw [beq_iff_eq.mp backspace] at back
      exact .short (congrArg some back)
    · rw [beq_iff_eq.mp form] at back
      exact .short (congrArg some back)
    · exact .code control
    · exact .plain quote backslash (Nat.le_of_not_lt control)

/-- A written character is read back as the character, whatever follows it. -/
theorem Escaped.unescape {c : Char} {cs : List Char} (h : Escaped c cs) (rest : List Char) :
    unescape? (cs ++ rest) = (unescape? rest).map (c :: ·) := by
  cases h with
  | short read =>
    next x =>
    have ordinary : x ≠ 'u' := by
      rintro rfl
      cases read
    rw [List.cons_append, List.singleton_append, unescape?, read]
    · cases unescape? rest <;> rfl
    · exact fun _ _ _ _ _ same _ => ordinary same
  | code control =>
    have high := Text.hexValue?_lowerHex (n := c.toNat / 16) (by omega)
    have low := Text.hexValue?_lowerHex (n := c.toNat % 16) (by omega)
    have zero : Text.hexValue? '0' = some 0 := by decide
    have value : hexValues? '0' '0' (Text.lowerHex (c.toNat / 16)) (Text.lowerHex (c.toNat % 16)) =
        some c.toNat := by
      simp only [hexValues?, zero, high, low, Option.bind_eq_bind, Option.bind_some, pure]
      congr 1
      omega
    have single : ∀ least most : Nat, 0x20 ≤ least →
        ¬ (decide (least ≤ c.toNat) && decide (c.toNat ≤ most)) = true := by
      intro least most above
      rw [Bool.and_eq_true, decide_eq_true_eq, decide_eq_true_eq]
      omega
    simp only [List.cons_append, List.nil_append]
    rw [unescape?, value, Option.bind_eq_bind, Option.bind_some, if_neg (single _ _ (by decide)),
      if_neg (single _ _ (by decide)), Char.ofNat_toNat]
    cases unescape? rest <;> rfl
  | plain quote backslash printable =>
    have allowed : ¬ (c == '\\' || decide (c.toNat < 0x20)) = true := by
      rw [Bool.or_eq_true, beq_iff_eq, decide_eq_true_eq]
      exact not_or.mpr ⟨backslash, Nat.not_lt.mpr printable⟩
    rw [List.singleton_append, unescape?, if_neg allowed]
    · exact fun _ _ _ _ _ same _ => backslash same
    · exact fun _ _ same _ => backslash same

/-- A written character does not end the text that it is in. -/
theorem Escaped.lex {c : Char} {cs : List Char} (h : Escaped c cs) (seen rest : List Char) :
    Token.lexFrom (.text seen false) (cs ++ rest) =
      Token.lexFrom (.text (cs.reverse ++ seen) false) rest := by
  have inside : ∀ (x : Char) (before after : List Char), x ≠ '"' → x ≠ '\\' →
      Token.lexFrom (.text before false) (x :: after) =
        Token.lexFrom (.text (x :: before) false) after := by
    intro x before after quote backslash
    rw [Token.lexFrom, if_neg (by simpa using quote), beq_eq_false_iff_ne.mpr backslash]
  have escape : ∀ before after : List Char,
      Token.lexFrom (.text before false) ('\\' :: after) =
        Token.lexFrom (.text ('\\' :: before) true) after := by
    intro before after
    rw [Token.lexFrom, if_neg (by decide)]
    rfl
  cases h with
  | short read =>
    rw [List.cons_append, List.singleton_append, escape, Token.lexFrom]
    rfl
  | code control =>
    have digit : ∀ n < 16, Text.lowerHex n ≠ '"' ∧ Text.lowerHex n ≠ '\\' := by decide
    obtain ⟨highQuote, highBackslash⟩ := digit (c.toNat / 16) (by omega)
    obtain ⟨lowQuote, lowBackslash⟩ := digit (c.toNat % 16) (by omega)
    simp only [List.cons_append, List.nil_append]
    rw [escape, Token.lexFrom, inside _ _ _ (by decide) (by decide),
      inside _ _ _ (by decide) (by decide), inside _ _ _ highQuote highBackslash,
      inside _ _ _ lowQuote lowBackslash]
    rfl
  | plain quote backslash printable =>
    rw [List.singleton_append, inside _ _ _ quote backslash]
    rfl

private theorem unescape?_flatMap_escape (cs : List Char) :
    unescape? (cs.flatMap escape) = some cs := by
  induction cs with
  | nil => rfl
  | cons c cs ih => rw [List.flatMap_cons, (escaped_escape c).unescape, ih, Option.map_some]

private theorem lexFrom_flatMap_escape (cs seen rest : List Char) :
    Token.lexFrom (.text seen false) (cs.flatMap escape ++ rest) =
      Token.lexFrom (.text ((cs.flatMap escape).reverse ++ seen) false) rest := by
  induction cs generalizing seen with
  | nil => rfl
  | cons c cs ih =>
    rw [List.flatMap_cons, List.append_assoc, (escaped_escape c).lex, ih, List.reverse_append,
      List.append_assoc]

/-- A text in quotes is one token. -/
theorem lexFrom_quote (s : String) (rest : List Char) :
    Token.lexFrom .none (quote s ++ rest) = (Token.lexFrom .none rest).map (.text s :: ·) := by
  have opens : Token.begin '"' = some ([], .text [] false) := rfl
  have read : unescape? ((s.toList.flatMap escape).reverse ++ []).reverse = some s.toList := by
    rw [List.append_nil, List.reverse_reverse, unescape?_flatMap_escape]
  unfold quote
  rw [List.cons_append, List.cons_append, List.append_assoc, Token.lexFrom, opens]
  simp only [Option.bind_eq_bind, Option.bind_some]
  rw [lexFrom_flatMap_escape, List.singleton_append, Token.lexFrom, if_pos (by decide), read]
  simp only [Option.bind_eq_bind, Option.bind_some, String.ofList_toList]
  cases Token.lexFrom .none rest <;> rfl

end Texts

section Numerals

/-- The digits of a number do not begin with a zero, unless it is the only one. -/
theorem head?_toDigits (n : Nat) (positive : 0 < n) : (Nat.toDigits 10 n).head? ≠ some '0' := by
  induction n using Nat.strongRecOn with
  | _ n ih =>
    rcases Nat.lt_or_ge n 10 with single | several
    · have digit : ∀ m < 10, 0 < m → m.digitChar ≠ '0' := by decide
      rw [Nat.toDigits_of_lt_base single, List.head?_cons]
      exact fun same => digit n single positive (Option.some.inj same)
    · obtain ⟨c, cs, digits⟩ := List.exists_cons_of_ne_nil
        (Nat.toDigits_ne_nil : Nat.toDigits 10 (n / 10) ≠ [])
      have first := ih (n / 10) (by omega) (by omega)
      rw [Nat.toDigits_of_base_le (by decide) several, digits, List.cons_append, List.head?_cons]
      rwa [digits, List.head?_cons] at first

private theorem all_digits (n : Nat) : ∀ c ∈ Nat.toDigits 10 n, c.isDigit = true := fun _ hc =>
  Nat.isDigit_of_mem_toDigits (by decide) (by decide) hc

private theorem digits?_toDigits (n : Nat) :
    digits? (Nat.toDigits 10 n) = some (Nat.toDigits 10 n, []) := by
  have taken : (Nat.toDigits 10 n).takeWhile Char.isDigit = Nat.toDigits 10 n :=
    List.takeWhile_eq_self_iff.mpr (all_digits n)
  have dropped : (Nat.toDigits 10 n).dropWhile Char.isDigit = [] :=
    List.dropWhile_eq_nil_iff.mpr (all_digits n)
  unfold digits?
  rw [taken, dropped]
  split
  · next empty => exact absurd empty Nat.toDigits_ne_nil
  · rfl

private theorem short_or_nonzero (n : Nat) :
    ¬ (decide (1 < (Nat.toDigits 10 n).length) &&
      (Nat.toDigits 10 n).head? == some '0') = true := by
  rw [Bool.and_eq_true, decide_eq_true_eq, beq_iff_eq]
  rintro ⟨long, zero⟩
  rcases Nat.eq_zero_or_pos n with rfl | positive
  · simp at long
  · exact head?_toDigits n positive zero

/-- The digits of a natural, after a minus sign or without one, are a numeral of an integer. -/
theorem parse?_toDigits (negative : Bool) (n : Nat) :
    Numeral.parse? ((if negative then ['-'] else []) ++ Nat.toDigits 10 n) =
      some ⟨negative, Nat.toDigits 10 n, [], false, [], true⟩ := by
  unfold Numeral.parse?
  split
  next minus whole signed =>
    have parts : minus = negative ∧ whole = Nat.toDigits 10 n := by
      cases negative with
      | true =>
        obtain ⟨rfl, rfl⟩ := Prod.mk.inj signed
        exact ⟨rfl, rfl⟩
      | false =>
        rw [if_neg (by decide), List.nil_append] at signed
        split at signed
        · next rest same =>
          have digit := all_digits n '-' (same ▸ List.mem_cons_self)
          simp at digit
        · obtain ⟨rfl, rfl⟩ := Prod.mk.inj signed
          exact ⟨rfl, rfl⟩
    obtain ⟨rfl, rfl⟩ := parts
    rw [digits?_toDigits, Option.bind_eq_bind, Option.bind_some]
    dsimp only
    rw [if_neg (short_or_nonzero n)]
    rfl

private theorem intText_eq (i : Int) : intText i =
    (if decide (i < 0) = true then ['-'] else []) ++ Nat.toDigits 10 i.natAbs := by
  unfold intText Number.Decimal.digitsOf
  by_cases negative : i < 0 <;> simp [negative]

private theorem mem_intText {i : Int} {c : Char} (h : c ∈ intText i) :
    c = '-' ∨ c.isDigit = true := by
  rw [intText_eq] at h
  rcases List.mem_append.mp h with sign | digit
  · left
    split_ifs at sign
    · exact List.mem_singleton.mp sign
    · cases sign
  · exact .inr (all_digits _ c digit)

theorem toNum?_toDigits {i : Int} (lower : -9223372036854775808 ≤ i)
    (upper : i < 18446744073709551616) :
    Numeral.toNum? ⟨decide (i < 0), Nat.toDigits 10 i.natAbs, [], false, [], true⟩ =
      some (.integer i lower upper) := by
  have signed : (if decide (i < 0) = true then -(i.natAbs : Int) else i.natAbs) = i := by
    by_cases negative : i < 0
    · rw [if_pos (decide_eq_true negative)]
      omega
    · rw [if_neg (by simpa using negative)]
      omega
  have notMinusZero : (decide (i < 0) && (i.natAbs : Int) == 0) = false := by
    rw [Bool.and_eq_false_iff, decide_eq_false_iff_not, beq_eq_false_iff_ne]
    omega
  unfold Numeral.toNum?
  dsimp only
  rw [Text.decimal_toDigits, signed, notMinusZero, Num.ofInt?, dif_pos ⟨lower, upper⟩]
  rfl

/-- An integer is read back from its digits. -/
theorem scalar?_intText {i : Int} (lower : -9223372036854775808 ≤ i)
    (upper : i < 18446744073709551616) :
    scalar? (intText i) = some (.num (.integer i lower upper)) := by
  have noWord : ∀ {word : List Char} (c : Char), c ∈ word → c ≠ '-' → c.isDigit = false →
      ¬ (intText i == word) = true := by
    intro word c member notMinus notDigit same
    rcases mem_intText (beq_iff_eq.mp same ▸ member) with minus | digit
    · exact notMinus minus
    · rw [notDigit] at digit
      cases digit
  unfold scalar?
  rw [if_neg (noWord 'n' (by decide) (by decide) (by decide)),
    if_neg (noWord 't' (by decide) (by decide) (by decide)),
    if_neg (noWord 'f' (by decide) (by decide) (by decide)), intText_eq, parse?_toDigits,
    Option.bind_some, toNum?_toDigits lower upper, Option.map_some]

end Numerals

section Values

/-- Whether a text does not go on with a word or number that was begun before it. -/
def Ends (rest : List Char) : Prop := ∀ c ∈ rest.head?, isScalarChar c = false

/-- The characters of a word or number are taken together. -/
private theorem lexFrom_append (cs seen rest : List Char) (all : ∀ c ∈ cs, isScalarChar c = true) :
    Token.lexFrom (.scalar seen) (cs ++ rest) =
      Token.lexFrom (.scalar (cs.reverse ++ seen)) rest := by
  induction cs generalizing seen with
  | nil => rfl
  | cons c cs ih =>
    rw [List.cons_append, Token.lexFrom, if_pos (all c List.mem_cons_self),
      ih _ fun x hx => all x (List.mem_cons_of_mem c hx), List.reverse_cons, List.append_assoc,
      List.singleton_append]

private theorem lexFrom_of_ends {seen rest : List Char} {v : Value} (ends : Ends rest)
    (read : scalar? seen.reverse = some v) :
    Token.lexFrom (.scalar seen) rest = (Token.lexFrom .none rest).map (.scalar v :: ·) := by
  cases rest with
  | nil =>
    have last : Token.lexFrom (.scalar seen) [] =
        (scalar? seen.reverse).map fun v => [.scalar v] := by
      rw [Token.lexFrom]
    rw [last, read, Token.lexFrom]
    rfl
  | cons c rest =>
    have other : ¬ isScalarChar c = true := by
      rw [ends c rfl]
      decide
    have last : Token.lexFrom (.scalar seen) (c :: rest) = (scalar? seen.reverse).bind fun v =>
        (Token.begin c).bind fun begun =>
          (Token.lexFrom begun.2 rest).bind fun ts => some (.scalar v :: begun.1 ++ ts) := by
      rw [Token.lexFrom, if_neg other]
      rfl
    rw [last, read, Token.lexFrom]
    simp only [Option.bind_eq_bind, Option.bind_some]
    rcases Token.begin c with _ | ⟨done, next⟩
    · rfl
    · simp only [Option.bind_some]
      cases Token.lexFrom next rest <;> rfl

/-- A word or number is one token. -/
theorem lexFrom_scalar {cs rest : List Char} {v : Value} (nonempty : cs ≠ [])
    (all : cs.all isScalarChar = true) (read : scalar? cs = some v) (ends : Ends rest) :
    Token.lexFrom .none (cs ++ rest) = (Token.lexFrom .none rest).map (.scalar v :: ·) := by
  obtain ⟨c, cs, rfl⟩ := List.exists_cons_of_ne_nil nonempty
  have each : ∀ x ∈ c :: cs, isScalarChar x = true := List.all_eq_true.mp all
  have first := each c List.mem_cons_self
  have unquoted : ¬ (c == '"') = true := by
    rw [beq_iff_eq]
    rintro rfl
    exact absurd first (by decide)
  have begins : Token.begin c = some ([], .scalar [c]) := by
    unfold Token.begin
    rw [if_neg unquoted, if_pos first]
  have taken := lexFrom_append cs [c] rest fun x hx => each x (List.mem_cons_of_mem c hx)
  have whole : (cs.reverse ++ [c]).reverse = c :: cs := by simp
  rw [List.cons_append, Token.lexFrom, begins]
  simp only [Option.bind_eq_bind, Option.bind_some]
  rw [taken, lexFrom_of_ends ends (whole ▸ read)]
  cases Token.lexFrom .none rest <;> rfl

/-- A mark is one token. -/
theorem lexFrom_mark {c : Char} {t : Token} (mark : Token.begin c = some ([t], .none))
    (rest : List Char) :
    Token.lexFrom .none (c :: rest) = (Token.lexFrom .none rest).map (t :: ·) := by
  rw [Token.lexFrom, mark]
  simp only [Option.bind_eq_bind, Option.bind_some]
  cases Token.lexFrom .none rest <;> rfl

private theorem ends_compactItems (vs : List Value) (rest : List Char) :
    Ends (compactItems vs ++ rest) := by
  cases vs with
  | nil =>
    rintro c ⟨⟩
    decide
  | cons v vs =>
    rw [compactItems]
    rintro c ⟨⟩
    decide

private theorem ends_compactFields (members : List (String × Value)) (rest : List Char) :
    Ends (compactFields members ++ rest) := by
  cases members with
  | nil =>
    rintro c ⟨⟩
    decide
  | cons member members =>
    rw [compactFields]
    rintro c ⟨⟩
    decide

mutual

/-- The text of a value is cut into the tokens of the value, whatever follows that does not go on
with its last word or number. -/
theorem lexFrom_compact : ∀ (v : Value) (rest : List Char), v.isExact = true → Ends rest →
    Token.lexFrom .none (compact v ++ rest) = (Token.lexFrom .none rest).map (tokens v ++ ·)
  | .null, rest, _, ends => lexFrom_scalar (by decide) (by decide) rfl ends
  | .bool true, rest, _, ends => lexFrom_scalar (by decide) (by decide) rfl ends
  | .bool false, rest, _, ends => lexFrom_scalar (by decide) (by decide) rfl ends
  | .num (.integer i lower upper), rest, _, ends => by
    have nonempty : intText i ≠ [] := by
      rw [intText_eq]
      simp [Nat.toDigits_ne_nil]
    have all : (intText i).all isScalarChar = true := by
      refine List.all_eq_true.mpr fun c member => ?_
      rcases mem_intText member with rfl | digit
      · decide
      · simp [isScalarChar, Char.isAlphanum, digit]
    exact lexFrom_scalar nonempty all (scalar?_intText lower upper) ends
  | .num (.real _), rest, integers, _ => by cases integers
  | .str s, rest, _, _ => lexFrom_quote s rest
  | .list [], rest, _, _ => by
    have shape : compact (.list []) ++ rest = '[' :: ']' :: rest := rfl
    rw [shape, lexFrom_mark rfl, lexFrom_mark rfl, Option.map_map]
    rfl
  | .list (v :: vs), rest, integers, _ => by
    obtain ⟨first, others⟩ := Bool.and_eq_true_iff.mp integers
    have shape : compact (.list (v :: vs)) ++ rest =
        '[' :: (compact v ++ (compactItems vs ++ rest)) := by
      simp [compact]
    rw [shape, lexFrom_mark rfl, lexFrom_compact v _ first (ends_compactItems vs rest),
      lexFrom_compactItems vs rest others, Option.map_map, Option.map_map]
    simp [tokens, Function.comp_def]
  | .map [], rest, _, _ => by
    have shape : compact (.map []) ++ rest = '\x7b' :: '\x7d' :: rest := rfl
    rw [shape, lexFrom_mark rfl, lexFrom_mark rfl, Option.map_map]
    rfl
  | .map ((k, v) :: members), rest, integers, _ => by
    obtain ⟨first, others⟩ := Bool.and_eq_true_iff.mp integers
    have shape : compact (.map ((k, v) :: members)) ++ rest =
        '\x7b' :: (quote k ++ (':' :: (compact v ++ (compactFields members ++ rest)))) := by
      simp [compact]
    rw [shape, lexFrom_mark rfl, lexFrom_quote, lexFrom_mark rfl,
      lexFrom_compact v _ first (ends_compactFields members rest),
      lexFrom_compactFields members rest others, Option.map_map, Option.map_map, Option.map_map,
      Option.map_map]
    simp [tokens, Function.comp_def]

theorem lexFrom_compactItems : ∀ (vs : List Value) (rest : List Char), Value.areExact vs = true →
    Token.lexFrom .none (compactItems vs ++ rest) =
      (Token.lexFrom .none rest).map (itemTokens vs ++ ·)
  | [], rest, _ => lexFrom_mark rfl rest
  | v :: vs, rest, integers => by
    obtain ⟨first, others⟩ := Bool.and_eq_true_iff.mp integers
    have shape : compactItems (v :: vs) ++ rest =
        ',' :: (compact v ++ (compactItems vs ++ rest)) := by
      simp [compactItems]
    rw [shape, lexFrom_mark rfl, lexFrom_compact v _ first (ends_compactItems vs rest),
      lexFrom_compactItems vs rest others, Option.map_map, Option.map_map]
    simp [itemTokens, Function.comp_def]

theorem lexFrom_compactFields : ∀ (members : List (String × Value)) (rest : List Char),
    Value.areExactIn members = true →
    Token.lexFrom .none (compactFields members ++ rest) =
      (Token.lexFrom .none rest).map (memberTokens members ++ ·)
  | [], rest, _ => lexFrom_mark rfl rest
  | (k, v) :: members, rest, integers => by
    obtain ⟨first, others⟩ := Bool.and_eq_true_iff.mp integers
    have shape : compactFields ((k, v) :: members) ++ rest =
        ',' :: (quote k ++ (':' :: (compact v ++ (compactFields members ++ rest)))) := by
      simp [compactFields]
    rw [shape, lexFrom_mark rfl, lexFrom_quote, lexFrom_mark rfl,
      lexFrom_compact v _ first (ends_compactFields members rest),
      lexFrom_compactFields members rest others, Option.map_map, Option.map_map, Option.map_map,
      Option.map_map]
    simp [memberTokens, Function.comp_def]

end

/-- The text of a value is cut into the tokens of the value. -/
theorem lex?_compact {v : Value} (integers : v.isExact = true) :
    Token.lex? (compact v) = some (tokens v) := by
  have alone := lexFrom_compact v [] integers (by rintro c ⟨⟩)
  have nothing : Token.lexFrom .none [] = some [] := by rw [Token.lexFrom]
  rw [List.append_nil, nothing, Option.map_some, List.append_nil] at alone
  exact alone

end Values

end Json

end Runbook
