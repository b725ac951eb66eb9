import Mathlib.Data.List.Forall2

set_option autoImplicit false
set_option relaxedAutoImplicit false

/-!
Operations that may fail, taken apart: what is known of the steps when the whole succeeded, and
which step failed when it did not.
-/

namespace Runbook.Outcome

variable {ε α β : Type}

theorem exists_of_isOk {x : Except ε α} (h : x.isOk = true) : ∃ a, x = .ok a := by
  cases x with
  | error e => exact absurd h (by simp [Except.isOk, Except.toBool])
  | ok a => exact ⟨a, rfl⟩

theorem eq_ok_of_toOption {x : Except ε α} {a : α} (h : x.toOption = some a) : x = .ok a := by
  cases x with
  | error e => cases h
  | ok b => exact congrArg Except.ok (Option.some.inj h)

theorem toOption_eq_some {x : Except ε α} {a : α} : x.toOption = some a ↔ x = .ok a :=
  ⟨eq_ok_of_toOption, fun h => h ▸ rfl⟩

theorem exists_of_toOption_map {x : Except ε α} {f : α → β} {b : β}
    (h : x.toOption.map f = some b) : ∃ a, x = .ok a ∧ f a = b := by
  obtain ⟨a, ok, value⟩ := Option.map_eq_some_iff.mp h
  exact ⟨a, eq_ok_of_toOption ok, value⟩

theorem bind_eq_ok {x : Except ε α} {f : α → Except ε β} {b : β} :
    (x >>= f) = .ok b ↔ ∃ a, x = .ok a ∧ f a = .ok b := by
  cases x with
  | error e => simp [bind, Except.bind]
  | ok a => simp [bind, Except.bind]

theorem bind_eq_error {x : Except ε α} {f : α → Except ε β} {e : ε} :
    (x >>= f) = .error e ↔ x = .error e ∨ ∃ a, x = .ok a ∧ f a = .error e := by
  cases x with
  | error e => simp [bind, Except.bind]
  | ok a => simp [bind, Except.bind]

theorem map_eq_ok {x : Except ε α} {f : α → β} {b : β} :
    x.map f = .ok b ↔ ∃ a, x = .ok a ∧ f a = b := by
  cases x with
  | error e => simp [Except.map]
  | ok a => simp [Except.map]

/-- Whether everything that an operation can succeed with has a property. -/
def Yields (x : Except ε α) (P : α → Prop) : Prop := ∀ a, x = .ok a → P a

section Yields

variable {x : Except ε α} {f : α → Except ε β} {P : α → Prop} {Q : β → Prop}

theorem yields_bind (h : ∀ a, x = .ok a → Yields (f a) Q) : Yields (x >>= f) Q := by
  intro b done
  obtain ⟨a, first, next⟩ := bind_eq_ok.mp done
  exact h a first b next

theorem yields_pure {a : α} (h : P a) : Yields (.ok a : Except ε α) P := by
  intro b done
  exact Except.ok.inj done ▸ h

theorem yields_error {e : ε} : Yields (.error e : Except ε α) P := by
  intro a done
  cases done

/-- A check that may refuse, and what follows it. -/
theorem yields_guard {p : Prop} [Decidable p] {e : ε} {f : Unit → Except ε β}
    (h : Yields (f ()) Q) : Yields (if p then throw e >>= f else f ()) Q := by
  split
  · exact yields_error
  · exact h

end Yields

/-- Whether an operation never fails with a certain fault. -/
def Spares (x : Except ε α) (e : ε) : Prop := x ≠ .error e

section Spares

variable {x : Except ε α} {f : α → Except ε β} {e : ε}

theorem spares_ok (a : α) : Spares (.ok a) e := by
  intro failed
  cases failed

theorem spares_error {other : ε} (differs : other ≠ e) : Spares (.error other : Except ε α) e :=
  fun failed => differs (Except.error.inj failed)

theorem Spares.map (h : Spares x e) (f : α → β) : Spares (x.map f) e := by
  intro failed
  cases x with
  | error other => exact h (congrArg Except.error (Except.error.inj failed))
  | ok a => cases failed

theorem Spares.bind (h : Spares x e) (next : ∀ a, Spares (f a) e) : Spares (x >>= f) e := by
  intro failed
  rcases bind_eq_error.mp failed with first | ⟨a, -, later⟩
  · exact h first
  · exact next a later

theorem spares_guard {p : Prop} [Decidable p] {other : ε} {f : Unit → Except ε β}
    (differs : other ≠ e) (h : Spares (f ()) e) :
    Spares (if p then throw other >>= f else f ()) e := by
  split
  · exact spares_error differs
  · exact h

end Spares

/-- A list is gone through successfully if and only if each of its items is. -/
theorem mapM_eq_ok {f : α → Except ε β} {xs : List α} {ys : List β} :
    xs.mapM f = .ok ys ↔ List.Forall₂ (fun x y => f x = .ok y) xs ys := by
  induction xs generalizing ys with
  | nil => cases ys <;> simp [pure, Except.pure]
  | cons x xs ih =>
    rw [List.mapM_cons]
    simp only [bind_eq_ok]
    constructor
    · rintro ⟨y, hy, rest, hrest, hys⟩
      obtain rfl : y :: rest = ys := by simpa [pure, Except.pure] using hys
      exact .cons hy (ih.mp hrest)
    · intro h
      cases h with
      | cons hy hrest => exact ⟨_, hy, _, ih.mpr hrest, rfl⟩

/-- A walk through a list fails at the first item that fails. -/
theorem mapM_eq_error {f : α → Except ε β} {xs : List α} {e : ε} :
    xs.mapM f = .error e ↔ ∃ before x after, xs = before ++ x :: after ∧
      (∀ y ∈ before, ∃ b, f y = .ok b) ∧ f x = .error e := by
  induction xs with
  | nil => simp [pure, Except.pure]
  | cons head rest ih =>
    rw [List.mapM_cons]
    simp only [bind_eq_error, ih]
    constructor
    · rintro (refused | ⟨b, passed, ⟨before, x, after, split, fine, refused⟩ | ⟨_, -, done⟩⟩)
      · exact ⟨[], head, rest, rfl, by simp, refused⟩
      · refine ⟨head :: before, x, after, by rw [split, List.cons_append], ?_, refused⟩
        exact List.forall_mem_cons.mpr ⟨⟨b, passed⟩, fine⟩
      · cases done
    · rintro ⟨before, x, after, split, fine, refused⟩
      cases before with
      | nil =>
        obtain ⟨rfl, -⟩ := List.cons.inj split
        exact .inl refused
      | cons first before =>
        obtain ⟨rfl, rfl⟩ := List.cons.inj split
        obtain ⟨⟨b, passed⟩, fine⟩ := List.forall_mem_cons.mp fine
        exact .inr ⟨b, passed, .inl ⟨before, x, after, rfl, fine, refused⟩⟩

/-- A walk through a list succeeds if and only if it does at every item. -/
theorem exists_mapM_eq_ok {f : α → Except ε β} {xs : List α} :
    (∃ ys, xs.mapM f = .ok ys) ↔ ∀ x ∈ xs, ∃ y, f x = .ok y := by
  induction xs with
  | nil => simp [pure, Except.pure]
  | cons x xs ih =>
    rw [List.forall_mem_cons, ← ih, List.mapM_cons]
    simp only [bind_eq_ok]
    constructor
    · rintro ⟨_, y, passed, ys, rest, -⟩
      exact ⟨⟨y, passed⟩, ys, rest⟩
    · rintro ⟨⟨y, passed⟩, ys, rest⟩
      exact ⟨_, y, passed, ys, rest, rfl⟩

/-- Two walks that agree on the items come to the same. -/
theorem mapM_congr {f g : α → Except ε β} {xs : List α} (h : ∀ x ∈ xs, f x = g x) :
    xs.mapM f = xs.mapM g := by
  induction xs with
  | nil => rfl
  | cons x xs ih =>
    rw [List.mapM_cons, List.mapM_cons, h x List.mem_cons_self,
      ih fun y hy => h y (List.mem_cons_of_mem x hy)]

/-- What a successful walk through a list comes to, if each success is known. -/
theorem eq_map_of_mapM_eq_ok {f : α → Except ε β} {g : α → β} {xs : List α} {ys : List β}
    (known : ∀ x y, f x = .ok y → y = g x) (h : xs.mapM f = .ok ys) : ys = xs.map g := by
  have each : List.Forall₂ (fun x y => y = g x) xs ys :=
    (mapM_eq_ok.mp h).imp fun x y hxy => known x y hxy
  clear h
  induction each with
  | nil => rfl
  | cons hy _ ih => rw [hy, ih, List.map_cons]

/-- A list is read back item by item if each item is. -/
theorem mapM_map_eq_some {write : α → β} {read : β → Option α}
    (inverse : ∀ a, read (write a) = some a) (xs : List α) : (xs.map write).mapM read = some xs := by
  have same : read ∘ write = fun a => pure a := funext inverse
  rw [List.mapM_map, same, List.mapM_pure, List.map_id']
  rfl

end Runbook.Outcome
