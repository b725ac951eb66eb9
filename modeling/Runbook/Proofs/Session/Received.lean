import Mathlib.Algebra.GroupWithZero.Nat
import Runbook.Proofs.Session.Unsaved
import Runbook.Proofs.Text.Trimming

set_option autoImplicit false
set_option relaxedAutoImplicit false

/-!
What a session received. Whatever is done with a session, the requests that it knows are those that
succeeded, in order, and the total of their lengths is their sum if that fits into a 64-bit word; if
it does not, there is no total.
-/

namespace Runbook

namespace Headers

/-- The value of a name is that of its first line, in whatever case the name is written. -/
theorem get?_eq_some {headers : Headers} {name value : String} : headers.get? name = some value ↔
    ∃ before written after, headers = before ++ (written, value) :: after ∧
      (∀ line ∈ before, Text.sameIgnoringCase line.1 name = false) ∧
      Text.sameIgnoringCase written name = true := by
  unfold get?
  rw [Option.map_eq_some_iff]
  constructor
  · rintro ⟨⟨written, _⟩, found, rfl⟩
    obtain ⟨same, before, after, rfl, others⟩ := List.find?_eq_some_iff_append.mp found
    exact ⟨before, written, after, rfl, fun line member => by simpa using others line member, same⟩
  · rintro ⟨before, written, after, rfl, others, same⟩
    refine ⟨(written, value), List.find?_eq_some_iff_append.mpr ⟨same, before, after, rfl, ?_⟩, rfl⟩
    intro line member
    simp [others line member]

end Headers

namespace Response

variable {r : Response} {n : Nat}

/-- Whether a response declares a length: the first line of that name writes it as a natural of 64
bits. -/
def Declares (r : Response) (n : Nat) : Prop :=
  ∃ before name value after, r.headers = before ++ (name, value) :: after ∧
    (∀ line ∈ before, Text.sameIgnoringCase line.1 "content-length" = false) ∧
    Text.sameIgnoringCase name "content-length" = true ∧ Text.Writes Text.bound64 value.toList n

theorem declares_iff : r.Declares n ↔ ((r.headers.get? "content-length").bind fun s =>
    Text.natural? Text.bound64 (Text.trimBlanks s.toList)) = some n := by
  rw [Option.bind_eq_some_iff]
  unfold Declares
  constructor
  · rintro ⟨before, name, value, after, lines, others, same, writes⟩
    exact ⟨value, Headers.get?_eq_some.mpr ⟨before, name, after, lines, others, same⟩,
      Text.natural?_trimBlanks.mpr writes⟩
  · rintro ⟨value, found, read⟩
    obtain ⟨before, name, after, lines, others, same⟩ := Headers.get?_eq_some.mp found
    exact ⟨before, name, value, after, lines, others, same, Text.natural?_trimBlanks.mp read⟩

/-- The length of a response is the one that it declares, and that of its body if it declares none
or nought. -/
structure HasLength (r : Response) (n : Nat) : Prop where
  declared : ∀ m, r.Declares m → m ≠ 0 → n = m
  received : (∀ m, r.Declares m → m = 0) → n = r.body.length

theorem hasLength_contentLength (r : Response) : r.HasLength r.contentLength := by
  constructor
  · intro m declares some
    have declared : r.declaredLength = m := by
      rw [declaredLength, declares_iff.mp declares, Option.getD_some]
    rw [contentLength, declared, if_neg some]
  · intro none
    have nought : r.declaredLength = 0 := by
      unfold declaredLength
      cases read : (r.headers.get? "content-length").bind fun s =>
          Text.natural? Text.bound64 (Text.trimBlanks s.toList) with
      | none => rfl
      | some m => exact none m (declares_iff.mpr read)
    rw [contentLength, if_pos nought]

end Response

namespace Session

variable {σ : Type} {transport : Transport σ} {s s' : Session} {b b' : Bench σ}

/-- The requests that succeed among steps, up to the first that is given up. -/
def doneBySteps (transport : Transport σ) : List ActionRef → Session → Bench σ → List Executed
  | [], _, _ => []
  | step :: rest, s, b =>
    match perform transport s step .none b with
    | (.error _, _, _) => []
    | (.ok e, s, b) => e :: doneBySteps transport rest s b

/-- The requests that succeed in an operation. -/
def doneBy (transport : Transport σ) (s : Session) (b : Bench σ) : Operation → List Executed
  | .set _ _ | .merge _ | .save => []
  | .perform ref o => (perform transport s ref o b).1.toOption.toList
  | .performFlow name =>
    match s.project.flow b.tree name with
    | .error _ => []
    | .ok flow => doneBySteps transport flow.steps s (b.note .info (flowText flow))

/-- The requests that succeed in operations. -/
def doneByAll (transport : Transport σ) : List Operation → Session → Bench σ → List Executed
  | [], _, _ => []
  | op :: rest, s, b => doneBy transport s b op ++
      doneByAll transport rest (operate transport s b op).1 (operate transport s b op).2

theorem executed_perform (transport : Transport σ) (s : Session) (ref : ActionRef)
    (o : BuildOptions) (b : Bench σ) : (perform transport s ref o b).2.1.executed =
      s.executed ++ (perform transport s ref o b).1.toOption.toList := by
  rcases h : perform transport s ref o b with ⟨outcome, s', b'⟩
  cases outcome with
  | error e => simp [executed_of_error h, Except.toOption]
  | ok e =>
    obtain ⟨-, -, -, -, -, -, -, -, -, rfl⟩ := perform_eq_ok h
    rfl

theorem executed_performSteps (transport : Transport σ) (steps : List ActionRef) (s : Session)
    (b : Bench σ) : (performSteps transport steps s b).2.1.executed =
      s.executed ++ doneBySteps transport steps s b := by
  induction steps generalizing s b with
  | nil => simp [performSteps, doneBySteps]
  | cons step rest ih =>
    have first := executed_perform transport s step .none b
    unfold performSteps doneBySteps
    generalize perform transport s step .none b = one at first ⊢
    obtain ⟨outcome, s', b'⟩ := one
    cases outcome with
    | error e => simpa [Except.toOption] using first
    | ok e =>
      have others := ih s' b'
      dsimp only at others first ⊢
      generalize performSteps transport rest s' b' = more at others ⊢
      obtain ⟨outcome, s'', b''⟩ := more
      cases outcome <;> simpa [first, Except.toOption] using others

/-- An operation adds the requests that succeed in it to those that a session knows. -/
theorem executed_operate (transport : Transport σ) (s : Session) (b : Bench σ) (op : Operation) :
    (operate transport s b op).1.executed = s.executed ++ doneBy transport s b op := by
  cases op with
  | set name v => exact (List.append_nil s.executed).symm
  | merge vars => exact (List.append_nil s.executed).symm
  | save => exact (List.append_nil s.executed).symm
  | perform ref o => exact executed_perform transport s ref o b
  | performFlow name =>
    unfold operate doneBy performFlow
    dsimp only
    cases s.project.flow b.tree name with
    | error e => simp
    | ok flow =>
      have steps := executed_performSteps transport flow.steps s (b.note .info (flowText flow))
      dsimp only
      generalize performSteps transport flow.steps s (b.note .info (flowText flow)) = run
        at steps ⊢
      obtain ⟨outcome, s', b'⟩ := run
      cases outcome <;> exact steps

theorem executed_operateAll (transport : Transport σ) (ops : List Operation) (s : Session)
    (b : Bench σ) : (operateAll transport ops s b).1.executed =
      s.executed ++ doneByAll transport ops s b := by
  induction ops generalizing s b with
  | nil => simp [operateAll, doneByAll]
  | cons op rest ih =>
    unfold operateAll doneByAll
    rw [ih, executed_operate, List.append_assoc]

/-- The lengths of what came back for some requests. -/
def lengthsOf (executed : List Executed) : List Nat := executed.map (·.response.contentLength)

/-- Lengths are added up to their sum, unless it is too large for a word. -/
private theorem foldlM_addLength? {n : Nat} (executed : List Executed) (fits : n < Text.bound64) :
    executed.foldlM (fun n e => addLength? n e.response.contentLength) n =
      if n + (lengthsOf executed).sum < Text.bound64 then some (n + (lengthsOf executed).sum)
      else none := by
  induction executed generalizing n with
  | nil => simp [lengthsOf, fits]
  | cons e rest ih =>
    have sum : n + (lengthsOf (e :: rest)).sum =
        n + e.response.contentLength + (lengthsOf rest).sum := by
      simp [lengthsOf, Nat.add_assoc]
    rw [List.foldlM_cons, addLength?, sum]
    by_cases more : n + e.response.contentLength < Text.bound64
    · rw [if_pos more, Option.bind_eq_bind, Option.bind_some, ih more]
    · -- the sums only grow, so one that does not fit leaves no total
      rw [if_neg more, if_neg (by omega)]
      rfl

/-- The total is the sum, unless it is too large for a word. -/
theorem totalReceived_eq (s : Session) :
    s.totalReceived = if (lengthsOf s.executed).sum < Text.bound64 then
      some (lengthsOf s.executed).sum else none := by
  rw [totalReceived, foldlM_addLength? s.executed (by decide), Nat.zero_add]

end Session

open Session

/-- Whatever is done with a session, the total of what it received is the sum of the lengths of the
responses to all requests that succeeded, if the sum is below the size of a 64-bit word; and there
is no total if and only if it is not. -/
theorem total_received_sum {σ : Type} (transport : Transport σ) (ops : List Operation) (s : Session)
    (b : Bench σ) :
    let after := (operateAll transport ops s b).1
    let done := s.executed ++ doneByAll transport ops s b
    after.executed = done ∧
      (∀ e ∈ done, e.response.HasLength e.response.contentLength) ∧
      (∀ n, after.totalReceived = some n ↔ n = (lengthsOf done).sum ∧ n < Nat.pow 2 64) ∧
      (after.totalReceived = none ↔ Nat.pow 2 64 ≤ (lengthsOf done).sum) := by
  intro after done
  have executed : after.executed = done := executed_operateAll transport ops s b
  have total := totalReceived_eq after
  rw [executed, Text.bound64] at total
  refine ⟨executed, fun e _ => e.response.hasLength_contentLength, fun n => ?_, ?_⟩
  · rw [total, Option.ite_none_right_eq_some, Option.some.injEq]
    constructor
    · rintro ⟨fits, rfl⟩
      exact ⟨rfl, fits⟩
    · rintro ⟨rfl, fits⟩
      exact ⟨fits, rfl⟩
  · rw [total, ite_eq_right_iff, ← Nat.not_lt]
    simp

private def receiving : Session :=
  ⟨⟨⟨"/p"⟩, .standard⟩, unsavedName, none, none, [], [], [], []⟩

private def fetch : Operation := .perform (.inline [("url", .str "x")]) .none

/-- A response with a body of two octets that declares a length. -/
private def declaring (length : String) : Response :=
  ⟨200, "OK", "HTTP/1.1", [("Content-Length", length)], [104, 105]⟩

/-- A transport that answers from a list. -/
private def inTurn : Transport (List Response) := fun _ _ left t =>
  match left with
  | [] => (.error .timeout, [], t)
  | r :: rest => (.ok r, rest, t)

/-- Two responses that declare no length count by their bodies, beside one that declares its own. -/
theorem total_received_sum_sample :
    let after := (operateAll inTurn [fetch, fetch, fetch] receiving
      ⟨.directory [], [declaring " 1200 ", declaring "-1", declaring "0"], []⟩).1
    lengthsOf after.executed = [1200, 2, 2] ∧ after.totalReceived = some 1204 ∧
      after.totalReceived ≠ none := by
  intro after
  obtain ⟨executed, -, total, absent⟩ := total_received_sum inTurn [fetch, fetch, fetch] receiving
    ⟨.directory [], [declaring " 1200 ", declaring "-1", declaring "0"], []⟩
  have lengths : lengthsOf (receiving.executed ++ doneByAll inTurn [fetch, fetch, fetch] receiving
      ⟨.directory [], [declaring " 1200 ", declaring "-1", declaring "0"], []⟩) =
      [1200, 2, 2] := by
    decide +kernel
  have sum : ([1200, 2, 2] : List Nat).sum = 1204 := rfl
  refine ⟨by rw [executed, lengths], (total 1204).mpr ⟨?_, by decide⟩, fun nothing => ?_⟩
  · rw [lengths, sum]
  · have large := absent.mp nothing
    rw [lengths, sum] at large
    exact absurd large (by decide)

/-- After two responses that declare half of what a word can count, there is no total. -/
theorem total_received_overflows :
    let after := (operateAll (.replying (declaring "9223372036854775808")) [fetch, fetch] receiving
      ⟨.directory [], (), []⟩).1
    lengthsOf after.executed = [9223372036854775808, 9223372036854775808] ∧
      (lengthsOf after.executed).sum = 18446744073709551616 ∧ after.totalReceived = none := by
  decide +kernel

end Runbook
