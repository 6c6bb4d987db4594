import XrBindings.Proofs.Result

/-!
# What a computation rejects for

A computation that may fail is judged by the causes for which it rejects the registry; failures of
other kinds do not count. A sequence of steps rejects only for causes of its steps, and a later step
may be judged under the assumption that the earlier ones gave a result. So what a function of the
bindings can reject for follows from what it calls, one lemma for each function.
-/

namespace XrBindings

variable {α β : Type} {P Q : GenerationError → Prop} {x : Result α} {xs : List α}

/-- A computation that rejects the registry does so for one of these causes. -/
def RejectsOnly (P : GenerationError → Prop) (x : Result α) : Prop :=
  ∀ error, x = .error (.rejected error) → P error

namespace RejectsOnly

@[simp] theorem ok (P : GenerationError → Prop) (a : α) : RejectsOnly P (.ok a : Result α) :=
  fun _ h ↦ absurd h (by simp)

@[simp] theorem pure (P : GenerationError → Prop) (a : α) :
    RejectsOnly P (Pure.pure a : Result α) :=
  ok P a

theorem reject {error : GenerationError} (h : P error) :
    RejectsOnly P (XrBindings.reject error : Result α) := by
  rintro error' herror
  obtain rfl := Failure.rejected.inj (Except.error.inj herror)
  exact h

theorem failure {f : Failure} (h : ∀ error, f ≠ .rejected error) :
    RejectsOnly P (.error f : Result α) :=
  fun error herror ↦ absurd (Except.error.inj herror) (h error)

theorem mono (h : RejectsOnly P x) (hPQ : ∀ error, P error → Q error) : RejectsOnly Q x :=
  fun error herror ↦ hPQ error (h error herror)

theorem bind {f : α → Result β} (hx : RejectsOnly P x)
    (hf : ∀ a, x = .ok a → RejectsOnly P (f a)) : RejectsOnly P (x >>= f) := by
  intro error herror
  obtain hfirst | ⟨a, ha, hthen⟩ := Result.bind_eq_error_iff.mp herror
  · exact hx error hfirst
  · exact hf a ha error hthen

theorem map (f : α → β) (hx : RejectsOnly P x) : RejectsOnly P (x.map f) := by
  cases x with
  | ok a => exact ok P (f a)
  | error e =>
    intro error herror
    exact hx error (by rw [Except.error.inj herror])

theorem mapM {f : α → Result β} (h : ∀ x ∈ xs, RejectsOnly P (f x)) :
    RejectsOnly P (xs.mapM f) := by
  intro error herror
  obtain ⟨before, x, after, -, rfl, -, hx⟩ := Result.mapM_eq_error_iff.mp herror
  exact h x (by simp) error hx

theorem foldlM {f : β → α → Result β} {start : β} (h : ∀ x ∈ xs, ∀ b, RejectsOnly P (f b x)) :
    RejectsOnly P (xs.foldlM f start) := by
  induction xs generalizing start with
  | nil => exact pure P start
  | cons x xs ih =>
    rw [List.forall_mem_cons] at h
    rw [List.foldlM_cons]
    exact bind (h.1 start) fun b _ ↦ ih h.2

end RejectsOnly

end XrBindings
