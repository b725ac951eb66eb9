import Runbook.Proofs.Outcome
import Runbook.Proofs.Session.Numbering
import Runbook.Proofs.Text.Split
import Runbook.Proofs.Text.Utf8
import Runbook.Proofs.Url.Percent
import Runbook.Viewer

set_option autoImplicit false
set_option relaxedAutoImplicit false

/-!
Routes of the viewer. Each page has a target that asks for it, with the octets of a name
percent-encoded; and the answer to a target is taken apart into what was opened and found for it.
-/

namespace Runbook

open Runbook.Files

namespace Viewer

/-- The segment that writes a text, each octet percent-encoded. -/
def segmentOf (s : String) : List Char := (Text.encode s).flatMap Url.percent

def Route.segments : Route → List (List Char)
  | .sessions => [rootSegment]
  | .session name => [rootSegment, segmentOf name]
  | .exchange name identifier =>
    [rootSegment, segmentOf name, requestsSegment, Nat.toDigits 10 identifier]

/-- A target that asks for a page. -/
def Route.target (r : Route) : String := String.ofList (r.segments.flatMap ('/' :: ·))

/-- Whether a page can be asked for: a name is not empty and an identifier has 32 bits. -/
def Route.Askable : Route → Prop
  | .sessions => True
  | .session name => name ≠ ""
  | .exchange name identifier => name ≠ "" ∧ identifier < Text.bound32

section Targets

theorem segmentText_segmentOf (s : String) : segmentText (segmentOf s) = .ok s := by
  have octets : Url.percentDecode (Text.encode (String.ofList (segmentOf s))) = Text.encode s := by
    have back := Url.percentDecode_flatMap_percent (Text.encode s) []
    simp only [List.append_nil, Url.percentDecode] at back
    rw [Text.encode, String.toList_ofList, segmentOf, back]
  unfold segmentText
  rw [octets, Text.decode?_encode]

private theorem segmentOf_ne_nil {s : String} (h : s ≠ "") : segmentOf s ≠ [] := by
  intro empty
  have back := segmentText_segmentOf s
  rw [empty] at back
  have nothing : segmentText [] = .ok "" := by decide
  rw [nothing] at back
  exact h (Except.ok.inj back).symm

private theorem ne_of_mem_segmentOf {s : String} {c : Char} (h : c ∈ segmentOf s) :
    c ≠ '/' ∧ c ≠ '?' ∧ c ≠ '#' := by
  obtain ⟨b, -, hc⟩ := List.mem_flatMap.mp h
  exact Url.ne_of_mem_percent hc

private theorem ne_of_mem_digits {n : Nat} {c : Char} (h : c ∈ Nat.toDigits 10 n) :
    c ≠ '/' ∧ c ≠ '?' ∧ c ≠ '#' := by
  have digit : c.isDigit = true := Nat.isDigit_of_mem_toDigits (by decide) (by decide) h
  refine ⟨?_, ?_, ?_⟩ <;>
    · rintro rfl
      simp at digit

private theorem segmentIdentifier_digits {n : Nat} (h : n < Text.bound32) :
    segmentIdentifier (Nat.toDigits 10 n) = .ok n := by
  have digits : ∀ c ∈ Nat.toDigits 10 n, c.isDigit = true := fun c hc =>
    Nat.isDigit_of_mem_toDigits (by decide) (by decide) hc
  have octets : Url.percentDecode (Text.encode (String.ofList (Nat.toDigits 10 n))) =
      Text.encode (String.ofList (Nat.toDigits 10 n)) := by
    rw [Text.encode, String.toList_ofList, Url.percentDecode_digits digits]
  have text : segmentText (Nat.toDigits 10 n) = .ok (String.ofList (Nat.toDigits 10 n)) := by
    unfold segmentText
    rw [octets, Text.decode?_encode]
  unfold segmentIdentifier
  rw [text]
  dsimp only [bind, Except.bind]
  rw [String.toList_ofList, Text.natural?_toDigits h]
  rfl

/-- No segment holds a character that ends a segment or a path. -/
private theorem ne_of_mem_segments {r : Route} {piece : List Char} {c : Char}
    (hp : piece ∈ r.segments) (hc : c ∈ piece) : c ≠ '/' ∧ c ≠ '?' ∧ c ≠ '#' := by
  have all : (rootSegment ++ requestsSegment).all
      (fun c => decide (c ≠ '/' ∧ c ≠ '?' ∧ c ≠ '#')) = true := by
    decide
  have fixed : ∀ c ∈ rootSegment ++ requestsSegment, c ≠ '/' ∧ c ≠ '?' ∧ c ≠ '#' := fun c hc =>
    of_decide_eq_true (List.all_eq_true.mp all c hc)
  have inRoot : c ∈ rootSegment → c ≠ '/' ∧ c ≠ '?' ∧ c ≠ '#' := fun h =>
    fixed c (List.mem_append_left _ h)
  cases r with
  | sessions =>
    obtain rfl : piece = rootSegment := by simpa [Route.segments] using hp
    exact inRoot hc
  | session name =>
    simp only [Route.segments, List.mem_cons, List.not_mem_nil, or_false] at hp
    rcases hp with rfl | rfl
    · exact inRoot hc
    · exact ne_of_mem_segmentOf hc
  | exchange name identifier =>
    simp only [Route.segments, List.mem_cons, List.not_mem_nil, or_false] at hp
    rcases hp with rfl | rfl | rfl | rfl
    · exact inRoot hc
    · exact ne_of_mem_segmentOf hc
    · exact fixed c (List.mem_append_right _ hc)
    · exact ne_of_mem_digits hc

private theorem pathOf_target (r : Route) : pathOf r.target = r.segments.flatMap ('/' :: ·) := by
  unfold pathOf Route.target
  rw [String.toList_ofList, List.takeWhile_eq_self_iff]
  intro c hc
  obtain ⟨piece, hp, hc⟩ := List.mem_flatMap.mp hc
  rcases List.mem_cons.mp hc with rfl | hc
  · decide
  · obtain ⟨-, query, fragment⟩ := ne_of_mem_segments hp hc
    simp [query, fragment]

private theorem ofSegments_segments {r : Route} (h : r.Askable) :
    Route.ofSegments r.segments = .ok r := by
  cases r with
  | sessions => rfl
  | session name =>
    have nonempty := segmentOf_ne_nil h
    simp [Route.segments, Route.ofSegments, nonempty, segmentText_segmentOf, Except.map]
  | exchange name identifier =>
    obtain ⟨named, below⟩ := h
    have nonempty := segmentOf_ne_nil named
    have digits : Nat.toDigits 10 identifier ≠ [] := Nat.toDigits_ne_nil
    simp [Route.segments, Route.ofSegments, nonempty, digits, segmentText_segmentOf,
      segmentIdentifier_digits below, bind, Except.bind, pure, Except.pure]

/-- Each page that can be asked for is asked for by its target. -/
theorem Route.parse_target {r : Route} (h : r.Askable) : Route.parse r.target = .ok r := by
  have pieces : Text.split '/' ([] ++ r.segments.flatMap ('/' :: ·)) = [] :: r.segments := by
    refine Text.split_append_flatMap fun piece member slash => ?_
    rcases List.mem_cons.mp member with rfl | member
    · cases slash
    · exact (ne_of_mem_segments member slash).1 rfl
  unfold Route.parse
  rw [pathOf_target, ← List.nil_append (r.segments.flatMap _), pieces]
  exact ofSegments_segments h

end Targets

section Answers

variable {p : Project} {t : Tree} {root : Path} {target name : String} {identifier : Nat}

/-- In a project that can be opened, a target is answered with the page that it asks for. -/
theorem answer_eq_page {r : Route} (loaded : Project.load t root = .ok p)
    (asked : Route.parse target = .ok r) : answer t root target = page p t r := by
  unfold answer
  rw [asked, loaded]
  rfl

theorem listed_eq_ok {s : Session} : listed p t name = .ok s ↔
    name ∈ p.sessionNames t ∧ Session.openNamed p t name = .ok s := by
  unfold listed
  by_cases member : name ∈ p.sessionNames t
  · rw [if_pos member]
    cases Session.openNamed p t name with
    | error e => simp [answered]
    | ok opened => simp [answered, member]
  · simp [member]

theorem page_session_eq_ok {shown : Page} : page p t (.session name) = .ok shown ↔
    ∃ s, listed p t name = .ok s ∧ shown = .session s (s.recorded t) := by
  unfold page
  rw [Outcome.bind_eq_ok]
  simp only [pure, Except.pure, Except.ok.injEq, eq_comm]

theorem page_exchange_eq_ok {shown : Page} : page p t (.exchange name identifier) = .ok shown ↔
    ∃ s r, listed p t name = .ok s ∧
      (s.recorded t).find? (·.identifier == identifier) = some r ∧ shown = exchangePage t r := by
  unfold page
  rw [Outcome.bind_eq_ok]
  constructor
  · rintro ⟨s, opened, found⟩
    cases record : (s.recorded t).find? (·.identifier == identifier) with
    | none => simp [record, throw, throwThe, MonadExceptOf.throw] at found
    | some r =>
      simp only [record, pure, Except.pure, Except.ok.injEq] at found
      exact ⟨s, r, opened, record, found.symm⟩
  · rintro ⟨s, r, opened, record, rfl⟩
    exact ⟨s, opened, by simp [record, pure, Except.pure]⟩

end Answers

end Viewer

end Runbook
