import Runbook.Proofs.Text.Split
import Runbook.Proofs.Text.Utf8
import Runbook.Proofs.Url.Percent
import Runbook.Url.Form

set_option autoImplicit false
set_option relaxedAutoImplicit false

/-!
Reading form-encoded pairs. A query is cut at its ampersands, and each piece that is not empty at its
first equals sign; then plus signs are spaces and percent-encoding is undone. Pairs that were
appended to a query are read back behind those that the query had.
-/

namespace Runbook.Url

open Runbook.Text (splitOnce? split)

/-- The text that an encoded name or value stands for. -/
def formText (cs : List Char) : String :=
  let spaced := cs.map fun c => if c = '+' then ' ' else c
  Text.decodeLossy (percentDecode (Text.encode (String.ofList spaced)))

/-- The pair that a piece of a query stands for; one without an equals sign is a name alone. -/
def formPiece (piece : List Char) : String × String :=
  match splitOnce? '=' piece with
  | some (name, value) => (formText name, formText value)
  | none => (formText piece, "")

/-- The pairs that a query holds. -/
def formPairs (query : List Char) : List (String × String) :=
  ((split '&' query).filter (!·.isEmpty)).map formPiece

section Characters

variable {c : Char}

theorem isFormSafe_iff :
    isFormSafe c = true ↔ c.isAlphanum = true ∨ c = '*' ∨ c = '-' ∨ c = '.' ∨ c = '_' := by
  simp [isFormSafe, or_assoc]

theorem isFormSafe_ascii (h : isFormSafe c = true) : c.toNat < 0x80 := by
  rcases isFormSafe_iff.mp h with alphanumeric | rfl | rfl | rfl | rfl
  · exact Nat.lt_of_le_of_lt (toNat_of_isAlphanum alphanumeric).2 (by decide)
  all_goals decide

theorem mem_formEncodeChar {d : Char} (h : d ∈ formEncodeChar c) :
    isFormSafe d = true ∨ d = '+' ∨ d = '%' := by
  unfold formEncodeChar at h
  split at h
  · next safe =>
    obtain rfl := List.mem_singleton.mp h
    exact .inl safe
  · split at h
    · exact .inr (.inl (List.mem_singleton.mp h))
    · obtain ⟨b, -, written⟩ := List.mem_flatMap.mp h
      rcases mem_percent written with sign | alphanumeric
      · exact .inr (.inr sign)
      · exact .inl (isFormSafe_iff.mpr (.inl alphanumeric))

theorem mem_formEncode {s : String} (h : c ∈ formEncode s) :
    isFormSafe c = true ∨ c = '+' ∨ c = '%' := by
  obtain ⟨d, -, written⟩ := List.mem_flatMap.mp h
  exact mem_formEncodeChar written

/-- Neither mark between names and values stands in one of them. -/
theorem mark_notMem_formEncode (s : String) : '&' ∉ formEncode s ∧ '=' ∉ formEncode s := by
  constructor <;>
    · intro h
      exact absurd (mem_formEncode h) (by decide)

end Characters

section Reading

variable {query : List Char} {pairs : List (String × String)}

/-- A character is read back from its encoding, whatever comes after it. -/
private theorem percentDecode_formEncodeChar (c : Char) (rest : Text.Bytes) :
    percentDecode (((formEncodeChar c).map fun d => if d = '+' then ' ' else d).flatMap
      String.utf8EncodeChar ++ rest) = String.utf8EncodeChar c ++ percentDecode rest := by
  unfold formEncodeChar
  split
  · next safe =>
    have kept : c ≠ '+' ∧ c ≠ '%' := by
      constructor <;>
        · rintro rfl
          cases safe
    rw [List.map_singleton, if_neg kept.1, List.flatMap_singleton,
      percentDecode_ascii (isFormSafe_ascii safe) kept.2]
  · split
    · next space =>
      obtain rfl := beq_iff_eq.mp space
      show percentDecode (String.utf8EncodeChar ' ' ++ rest) = _
      exact percentDecode_ascii (by decide) (by decide) rest
    · -- No octet is written with a plus sign, so that to read spaces first changes nothing.
      have unspaced : ∀ d ∈ (String.utf8EncodeChar c).flatMap percent,
          (if d = '+' then ' ' else d) = d := by
        intro d member
        obtain ⟨b, -, written⟩ := List.mem_flatMap.mp member
        refine if_neg ?_
        rintro rfl
        exact absurd (mem_percent written) (by decide)
      rw [List.map_congr_left unspaced, List.map_id', percentDecode_flatMap_percent]

theorem formText_formEncode (s : String) : formText (formEncode s) = s := by
  have octets : ∀ cs : List Char, percentDecode (((cs.flatMap formEncodeChar).map fun d =>
      if d = '+' then ' ' else d).flatMap String.utf8EncodeChar) =
        cs.flatMap String.utf8EncodeChar := by
    intro cs
    induction cs with
    | nil => rfl
    | cons c cs ih =>
      rw [List.flatMap_cons, List.map_append, List.flatMap_append, percentDecode_formEncodeChar,
        ih, List.flatMap_cons]
  unfold formText formEncode
  dsimp only
  rw [Text.encode, String.toList_ofList, octets]
  exact Text.decodeLossy_encode s

theorem formPiece_formPair (p : String × String) : formPiece (formPair p) = p := by
  unfold formPiece formPair
  rw [Text.splitOnce?_append (mark_notMem_formEncode p.1).2]
  show (formText (formEncode p.1), formText (formEncode p.2)) = p
  rw [formText_formEncode, formText_formEncode]

@[simp] theorem formPairs_nil : formPairs [] = [] := rfl

/-- A query that is cut at an ampersand holds the pairs of both parts. -/
theorem formPairs_append (query rest : List Char) :
    formPairs (query ++ '&' :: rest) = formPairs query ++ formPairs rest := by
  unfold formPairs
  rw [Text.split_append_cut, List.filter_append, List.map_append]

example : formPairs "a=1&&b%3D=x+y&c".toList = [("a", "1"), ("b=", "x y"), ("c", "")] := by
  decide +kernel

theorem formPairs_formPair (p : String × String) : formPairs (formPair p) = [p] := by
  have whole : '&' ∉ formPair p := by
    intro h
    rcases List.mem_append.mp h with name | value
    · exact (mark_notMem_formEncode p.1).1 name
    · rcases List.mem_cons.mp value with equals | value
      · cases equals
      · exact (mark_notMem_formEncode p.2).1 value
  have something : [formPair p].filter (!·.isEmpty) = [formPair p] := by simp [formPair]
  unfold formPairs
  rw [Text.split_eq_singleton whole, something]
  show [formPiece (formPair p)] = [p]
  rw [formPiece_formPair]

/-- Pairs that are appended to a query come behind those it had; the induction is on the pairs, each
of which stands behind an ampersand unless it is the first. -/
theorem formPairs_formAppend (query : List Char) (pairs : List (String × String)) :
    formPairs (formAppend query pairs) = formPairs query ++ pairs := by
  induction pairs generalizing query with
  | nil => exact (List.append_nil _).symm
  | cons p pairs ih =>
    show formPairs (formAppend ((if query.isEmpty then [] else query ++ ['&']) ++ formPair p) pairs)
      = formPairs query ++ p :: pairs
    rw [ih]
    cases query with
    | nil => exact congrArg (· ++ pairs) (formPairs_formPair p)
    | cons c query =>
      rw [if_neg (by simp), List.append_assoc, List.singleton_append, formPairs_append,
        formPairs_formPair, List.append_assoc, List.singleton_append]

theorem formAppend_append (query : List Char) (first rest : List (String × String)) :
    formAppend (formAppend query first) rest = formAppend query (first ++ rest) :=
  (List.foldl_append ..).symm

/-- What is appended holds no other characters than those of encoded names and values and the marks
between them. -/
theorem mem_formAppend {c : Char} (h : c ∈ formAppend query pairs) :
    c ∈ query ∨ isFormSafe c = true ∨ c = '+' ∨ c = '%' ∨ c = '=' ∨ c = '&' := by
  induction pairs generalizing query with
  | nil => exact .inl h
  | cons p pairs ih =>
    have encoded : ∀ s, c ∈ formEncode s →
        c ∈ query ∨ isFormSafe c = true ∨ c = '+' ∨ c = '%' ∨ c = '=' ∨ c = '&' := by
      intro s member
      rcases mem_formEncode member with safe | plus | sign
      · exact .inr (.inl safe)
      · exact .inr (.inr (.inl plus))
      · exact .inr (.inr (.inr (.inl sign)))
    rcases ih h with begun | appended
    · rcases List.mem_append.mp begun with before | pair
      · split at before
        · cases before
        · rcases List.mem_append.mp before with there | mark
          · exact .inl there
          · simp [List.mem_singleton.mp mark]
      · rcases List.mem_append.mp pair with name | value
        · exact encoded p.1 name
        · rcases List.mem_cons.mp value with rfl | value
          · simp
          · exact encoded p.2 value
    · exact .inr appended

end Reading

end Runbook.Url
