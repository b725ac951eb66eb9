import Mathlib.Data.List.Basic
import Runbook.Yaml.Node
import Runbook.Yaml.Property

set_option autoImplicit false
set_option relaxedAutoImplicit false

/-!
Anchors, tags and directives at the beginning of a YAML text. An anchor and a directive say nothing
of what a scalar is read as, and neither do a lone mark and the tags that are YAML's own or written
out in full; every other tag is one of the application's own or has a handle that is not known.
-/

namespace Runbook.Yaml

open Runbook.Text (Bytes)

/-- The characters behind the first one of a text. -/
def behindFirst (cs : List Char) : Cursor := (Cursor.mk cs ⟨0, 0, 0⟩).skip 1

/-- Whether a text begins with an anchor: a name behind its mark that may end there. -/
def beginsAnchor : List Char → Bool
  | '&' :: cs =>
    let name := cs.takeWhile isNameChar
    !name.isEmpty && endsName (cs.drop name.length).head?
  | _ => false

/-- Whether a text begins with a tag that is YAML's own or written out in full, or with a mark of
tags that stands alone. -/
def beginsTag (cs : List Char) : Bool :=
  match cs with
  | '!' :: c :: _ => (c == '!' || c == '<' || isBlank c || isBreak c) &&
      (tag false ⟨cs, ⟨0, 0, 0⟩⟩).isSome
  | _ => false

/-- Whether a text begins with a directive and goes on behind the line of it. -/
def beginsDirective (cs : List Char) : Bool :=
  cs.head? == some '%' && (directive (behindFirst cs)).any fun read => !read.2.rest.isEmpty

example : beginsAnchor "&a b".toList = true := by decide
example : beginsAnchor "&amp;".toList = false := by decide
example : beginsTag "!!null ~".toList = true := by decide
example : beginsTag "!important".toList = false := by decide
example : beginsDirective "%20abc".toList = false := by decide

/-- Whether a token is a directive. -/
def Token.isDirective : Token → Bool
  | .version _ _ | .tagDirective _ _ => true
  | _ => false

/-- Whether a handle and a suffix make no tag, or one of the application's own and not its mark
alone. -/
def IsOwnTag (handle suffix : Bytes) : Prop :=
  ∀ whole, resolveTag? standardHandles handle suffix = some whole →
    whole.head? = (word "!").head? ∧ whole ≠ word "!"

section Anchors

variable {cs : List Char} {name : String} {after : Cursor}

theorem beginsAnchor_of_anchorName
    (h : anchorName (behindFirst ('&' :: cs)) = some (name, after)) :
    beginsAnchor ('&' :: cs) = true := by
  unfold anchorName at h
  obtain ⟨ends, -⟩ := Option.ite_none_left_eq_some.mp h
  simpa [beginsAnchor, behindFirst, Cursor.skip, Cursor.span, Cursor.next?] using ends

end Anchors

section Directives

variable {c after : Cursor} {t : Token}

private theorem isDirective_version (h : versionDirective c = some (t, after)) :
    t.isDirective = true := by
  unfold versionDirective at h
  obtain ⟨⟨major, c⟩, -, h⟩ := Option.bind_eq_some_iff.mp h
  dsimp only at h
  split at h
  · cases h
  · obtain ⟨⟨minor, c⟩, -, h⟩ := Option.bind_eq_some_iff.mp h
    obtain ⟨rfl, -⟩ := Prod.mk.inj (Option.some.inj h)
    rfl

private theorem isDirective_tag (h : tagDirective c = some (t, after)) : t.isDirective = true := by
  unfold tagDirective at h
  obtain ⟨⟨handle, c⟩, -, h⟩ := Option.bind_eq_some_iff.mp h
  dsimp only at h
  split at h
  · cases h
  · obtain ⟨⟨leading, c⟩, -, h⟩ := Option.bind_eq_some_iff.mp h
    dsimp only at h
    split at h
    · cases h
    · obtain ⟨rfl, -⟩ := Prod.mk.inj (Option.some.inj h)
      rfl

/-- What is read of a line that begins with a percent sign is a directive. -/
theorem isDirective_of_directive (h : directive c = some (t, after)) : t.isDirective = true := by
  unfold directive at h
  dsimp only at h
  split at h
  · cases h
  · split at h
    · obtain ⟨⟨token, c⟩, version, h⟩ := Option.bind_eq_some_iff.mp h
      obtain ⟨-, same⟩ := Option.ite_none_right_eq_some.mp h
      obtain ⟨rfl, -⟩ := Prod.mk.inj (Option.some.inj same)
      exact isDirective_version version
    · split at h
      · obtain ⟨⟨token, c⟩, tag, h⟩ := Option.bind_eq_some_iff.mp h
        obtain ⟨-, same⟩ := Option.ite_none_right_eq_some.mp h
        obtain ⟨rfl, -⟩ := Prod.mk.inj (Option.some.inj same)
        exact isDirective_tag tag
      · cases h

end Directives

section Tags

variable {isChar : Char → Bool} {missing : Nat} {cs rest : List Char} {c after : Cursor}
  {octetsRead : Bytes} {handle : List Char} {t : Token}

/-- Where no octet of a tag is read, no character is passed. -/
private theorem rest_of_tagFrom (h : tagFrom isChar missing cs = some ([], rest)) : rest = cs := by
  unfold tagFrom at h
  split at h
  · obtain ⟨a, -, h⟩ := Option.bind_eq_some_iff.mp h
    obtain ⟨b, -, h⟩ := Option.bind_eq_some_iff.mp h
    obtain ⟨missing, -, h⟩ := Option.bind_eq_some_iff.mp h
    obtain ⟨found, -, h⟩ := Option.bind_eq_some_iff.mp h
    cases h
  · cases h
  · split at h
    · obtain ⟨found, -, h⟩ := Option.bind_eq_some_iff.mp h
      cases h
    · cases h
      rfl
  · cases h
    rfl
  · cases h

private theorem next?_of_tagText (h : tagText isChar c = some ([], after)) :
    after.next? = c.next? := by
  obtain ⟨⟨octets, rest⟩, read, h⟩ := Option.bind_eq_some_iff.mp h
  obtain ⟨rfl, rfl⟩ := Prod.mk.inj (Option.some.inj h)
  obtain rfl := rest_of_tagFrom read
  simp [Cursor.next?, Cursor.skip]

private theorem tagHandle_eq_some {cs : List Char} {m : Mark}
    (h : tagHandle ⟨'!' :: cs, m⟩ = some (handle, after)) :
    (handle = '!' :: cs.takeWhile isNameChar ++ ['!'] ∧
        (cs.drop (cs.takeWhile isNameChar).length).head? = some '!') ∨
      handle = '!' :: cs.takeWhile isNameChar ∧
        after.rest = cs.drop (cs.takeWhile isNameChar).length := by
  have marked : (Cursor.mk ('!' :: cs) m).next? = some '!' := rfl
  unfold tagHandle at h
  rw [marked, if_pos (by rfl)] at h
  dsimp only at h
  split at h
  · next closes =>
    obtain ⟨rfl, -⟩ := Prod.mk.inj (Option.some.inj h)
    exact .inl ⟨rfl, beq_iff_eq.mp closes⟩
  · obtain ⟨rfl, rfl⟩ := Prod.mk.inj (Option.some.inj h)
    exact .inr ⟨rfl, rfl⟩

/-- A handle of its own between two marks is not known without a directive. -/
private theorem isOwnTag_of_named {name : List Char} (named : name ≠ []) (suffix : Bytes) :
    IsOwnTag (octets ('!' :: name ++ ['!'])) suffix := by
  intro whole found
  have longer : 2 < (octets ('!' :: name ++ ['!'])).length := by
    have some_name := List.length_pos_iff.mpr named
    simp only [octets, List.length_map, List.length_append, List.length_cons, List.length_nil]
    omega
  have unknown : standardHandles.find? (·.1 == octets ('!' :: name ++ ['!'])) = none := by
    rw [List.find?_eq_none]
    intro entry known same
    have short : entry.1.length ≤ 2 := by
      simp only [standardHandles, List.mem_cons, List.not_mem_nil, or_false] at known
      rcases known with rfl | rfl <;> decide
    rw [beq_iff_eq.mp same] at short
    omega
  rw [resolveTag?, if_neg (by simp [octets]), unknown] at found
  cases found

/-- A tag behind the mark alone begins with the mark. -/
private theorem isOwnTag_of_primary {suffix : Bytes} (some_suffix : suffix ≠ []) :
    IsOwnTag (octets ['!']) suffix := by
  intro whole found
  have primary : resolveTag? standardHandles (octets ['!']) suffix = some (word "!" ++ suffix) := by
    rfl
  obtain rfl := Option.some.inj (primary.symm.trans found)
  refine ⟨rfl, fun same => some_suffix ?_⟩
  simpa using same

/-- A handle without a second mark does not close. -/
private theorem open_handle (cs : List Char) :
    (decide (1 < ('!' :: cs.takeWhile isNameChar).length) &&
      ('!' :: cs.takeWhile isNameChar).getLast? == some '!') = false := by
  rw [Bool.and_eq_false_iff]
  by_contra closed
  simp only [not_or, Bool.not_eq_false, decide_eq_true_eq, beq_iff_eq] at closed
  obtain ⟨longer, last⟩ := closed
  have some_name : cs.takeWhile isNameChar ≠ [] := by
    intro nothing
    rw [nothing] at longer
    cases longer with
    | step shorter => cases shorter
  rw [List.getLast?_cons_of_ne_nil some_name] at last
  have in_name := List.all_eq_true.mp List.all_takeWhile '!' (List.mem_of_getLast? last)
  cases in_name

/-- Any other tag at the beginning of a text is one of the application's own, or has a handle that
is not known. -/
theorem isOwnTag_of_tag {cs : List Char} (more : cs ≠ []) (other : beginsTag ('!' :: cs) = false)
    (h : tag false ⟨'!' :: cs, ⟨0, 0, 0⟩⟩ = some (t, after)) :
    ∃ handle suffix, t = .tag handle suffix ∧ IsOwnTag handle suffix := by
  obtain ⟨c, cs, rfl⟩ := List.exists_cons_of_ne_nil more
  simp only [beginsTag, h, Option.isSome_some, Bool.and_true, Bool.or_eq_false_iff,
    beq_eq_false_iff_ne] at other
  obtain ⟨⟨⟨unclosed, short⟩, no_blank⟩, no_break⟩ := other
  unfold tag at h
  dsimp only at h
  rw [if_neg (by simpa [Cursor.after?] using short)] at h
  obtain ⟨⟨token, behind⟩, read, h⟩ := Option.bind_eq_some_iff.mp h
  obtain ⟨ends, same⟩ := Option.ite_none_right_eq_some.mp h
  obtain ⟨rfl, rfl⟩ := Prod.mk.inj (Option.some.inj same)
  obtain ⟨⟨handle, named⟩, handled, read⟩ := Option.bind_eq_some_iff.mp read
  obtain ⟨⟨suffix, last⟩, texted, read⟩ := Option.bind_eq_some_iff.mp read
  dsimp only at read ends
  rcases tagHandle_eq_some handled with ⟨rfl, closes⟩ | ⟨rfl, left⟩
  · have some_name : (c :: cs).takeWhile isNameChar ≠ [] := by
      intro nothing
      rw [nothing] at closes
      exact unclosed (Option.some.inj closes)
    rw [if_pos (by rw [List.getLast?_concat]; simp)] at read
    obtain ⟨-, same⟩ := Option.ite_none_left_eq_some.mp read
    obtain ⟨rfl, -⟩ := Prod.mk.inj (Option.some.inj same)
    exact ⟨_, _, rfl, isOwnTag_of_named some_name suffix⟩
  · rw [open_handle, if_neg (by simp), List.drop_one, List.tail_cons] at read
    split at read
    · next nothing =>
      -- a mark that stands alone ends there, but another character comes next
      obtain ⟨rfl, rfl⟩ := Prod.mk.inj (Option.some.inj read)
      obtain ⟨unnamed, rfl⟩ := List.append_eq_nil_iff.mp (List.isEmpty_iff.mp nothing)
      have no_name : (c :: cs).takeWhile isNameChar = [] := List.map_eq_nil_iff.mp unnamed
      rw [next?_of_tagText texted, Cursor.next?, left, no_name] at ends
      simp [endsTag, isBlankOrEnd, no_blank, no_break] at ends
    · next some_suffix =>
      obtain ⟨rfl, -⟩ := Prod.mk.inj (Option.some.inj read)
      exact ⟨_, _, rfl, isOwnTag_of_primary fun nothing => some_suffix (by rw [nothing]; rfl)⟩

end Tags

end Runbook.Yaml
