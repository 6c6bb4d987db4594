import Mathlib.Data.List.Forall2
import XrBindings.Failure

/-!
# Computations that may fail

What a result says about the steps that led to it. A sequence of steps gives a result when each
step does, and it fails with the failure of the first step that fails.
-/

namespace XrBindings.Result

variable {α β : Type}

theorem bind_eq_ok_iff {x : Result α} {f : α → Result β} {b : β} :
    x >>= f = .ok b ↔ ∃ a, x = .ok a ∧ f a = .ok b := by
  cases x with
  | error e => simp [bind, Except.bind]
  | ok a => simp [bind, Except.bind]

theorem bind_eq_error_iff {x : Result α} {f : α → Result β} {e : Failure} :
    x >>= f = .error e ↔ x = .error e ∨ ∃ a, x = .ok a ∧ f a = .error e := by
  cases x with
  | error e' => simp [bind, Except.bind]
  | ok a => simp [bind, Except.bind]

theorem ok_bind (a : α) (f : α → Result β) : (Except.ok a : Result α) >>= f = f a := rfl

theorem pure_eq_ok_iff {a b : α} : (pure a : Result α) = .ok b ↔ a = b := by
  simp [pure, Except.pure]

theorem pure_ne_error {a : α} {e : Failure} : (pure a : Result α) ≠ .error e := by
  simp [pure, Except.pure]

theorem reject_ne_ok {error : GenerationError} {a : α} : (reject error : Result α) ≠ .ok a := by
  simp [reject]

theorem exists_eq_error_iff {x : Result α} : (∃ e, x = .error e) ↔ ¬∃ a, x = .ok a := by
  cases x with
  | error e => simp
  | ok a => simp

/-- Whether there is a result can be evaluated. -/
theorem exists_eq_ok_of_isOk {x : Result α} (h : x.isOk = true) : ∃ a, x = .ok a := by
  cases x with
  | error e => exact absurd h Bool.false_ne_true
  | ok a => exact ⟨a, rfl⟩

theorem map_eq_ok_iff {x : Result α} {f : α → β} {b : β} :
    x.map f = .ok b ↔ ∃ a, x = .ok a ∧ f a = b := by
  cases x with
  | error e => simp [Except.map]
  | ok a => simp [Except.map]

/-! ## Lists of steps -/

theorem exists_mem_of_forall₂ {R : α → β → Prop} {xs : List α} {ys : List β}
    (h : List.Forall₂ R xs ys) {x : α} (hx : x ∈ xs) : ∃ y ∈ ys, R x y := by
  induction h with
  | nil => exact absurd hx List.not_mem_nil
  | cons hxy _ ih =>
    obtain rfl | hx := List.mem_cons.mp hx
    · exact ⟨_, List.mem_cons_self, hxy⟩
    · obtain ⟨y, hy, hxy⟩ := ih hx
      exact ⟨y, List.mem_cons_of_mem _ hy, hxy⟩

theorem mapM_eq_ok_iff {f : α → Result β} {xs : List α} {ys : List β} :
    xs.mapM f = .ok ys ↔ List.Forall₂ (fun x y ↦ f x = .ok y) xs ys := by
  induction xs generalizing ys with
  | nil => rw [List.mapM_nil, pure_eq_ok_iff, List.forall₂_nil_left_iff, eq_comm]
  | cons x xs ih =>
    simp only [List.mapM_cons, bind_eq_ok_iff, pure_eq_ok_iff, ih, List.forall₂_cons_left_iff]
    constructor
    · rintro ⟨y, hy, zs, hzs, rfl⟩
      exact ⟨y, zs, hy, hzs, rfl⟩
    · rintro ⟨y, zs, hy, hzs, rfl⟩
      exact ⟨y, hy, zs, hzs, rfl⟩

/-- A list of steps fails with the failure of its first step that fails. -/
theorem mapM_eq_error_iff {f : α → Result β} {xs : List α} {e : Failure} :
    xs.mapM f = .error e ↔ ∃ before x after ys, xs = before ++ x :: after ∧
      before.mapM f = .ok ys ∧ f x = .error e := by
  induction xs with
  | nil => simp [pure_ne_error]
  | cons x xs ih =>
    rw [List.mapM_cons, bind_eq_error_iff]
    constructor
    · rintro (hx | ⟨y, hy, h⟩)
      · exact ⟨[], x, xs, [], rfl, by simp [pure_eq_ok_iff], hx⟩
      · rw [bind_eq_error_iff] at h
        obtain h | ⟨ys, -, h⟩ := h
        · obtain ⟨before, x', after, ys, rfl, hys, hx'⟩ := ih.mp h
          refine ⟨x :: before, x', after, y :: ys, rfl, ?_, hx'⟩
          exact mapM_eq_ok_iff.mpr (.cons hy (mapM_eq_ok_iff.mp hys))
        · exact absurd h pure_ne_error
    · rintro ⟨before, x', after, ys, hsplit, hys, hx'⟩
      cases before with
      | nil =>
        obtain ⟨rfl, rfl⟩ := List.cons.inj hsplit
        exact Or.inl hx'
      | cons z before =>
        obtain ⟨rfl, rfl⟩ := List.cons.inj hsplit
        obtain ⟨y, zs, hy, hzs, rfl⟩ := List.forall₂_cons_left_iff.mp (mapM_eq_ok_iff.mp hys)
        refine Or.inr ⟨y, hy, bind_eq_error_iff.mpr (Or.inl (ih.mpr ?_))⟩
        exact ⟨before, x', after, zs, rfl, mapM_eq_ok_iff.mpr hzs, hx'⟩

theorem exists_mapM_eq_ok {f : α → Result β} {xs : List α} (h : ∀ x ∈ xs, ∃ y, f x = .ok y) :
    ∃ ys, xs.mapM f = .ok ys := by
  cases hm : xs.mapM f with
  | ok ys => exact ⟨ys, rfl⟩
  | error e =>
    obtain ⟨before, x, after, -, rfl, -, hx⟩ := mapM_eq_error_iff.mp hm
    obtain ⟨y, hy⟩ := h x (by simp)
    rw [hx] at hy
    exact absurd hy (by simp)

theorem mem_of_mapM {f : α → Result β} {xs : List α} {ys : List β} (h : xs.mapM f = .ok ys)
    {y : β} : y ∈ ys ↔ ∃ x ∈ xs, f x = .ok y := by
  have hall := mapM_eq_ok_iff.mp h
  clear h
  induction hall with
  | nil => simp
  | cons hx _ ih =>
    simp only [List.mem_cons, exists_eq_or_imp, ih, hx, Except.ok.injEq, @eq_comm _ y]

theorem exists_of_mapM {f : α → Result β} {xs : List α} {ys : List β} (h : xs.mapM f = .ok ys)
    {x : α} (hx : x ∈ xs) : ∃ y ∈ ys, f x = .ok y :=
  exists_mem_of_forall₂ (mapM_eq_ok_iff.mp h) hx

/-! ### Steps that combine what they find with what they are applied to -/

variable {γ : Type} {f : α → Result β} {k : α → β → γ} {xs : List α} {zs : List γ}

theorem exists_mapM_bind_eq_ok (h : ∀ x ∈ xs, ∃ y, f x = .ok y) :
    ∃ zs, xs.mapM (fun x ↦ do let y ← f x; return k x y) = .ok zs := by
  refine exists_mapM_eq_ok fun x hx ↦ ?_
  obtain ⟨y, hy⟩ := h x hx
  exact ⟨k x y, bind_eq_ok_iff.mpr ⟨y, hy, rfl⟩⟩

theorem exists_of_mapM_bind (h : xs.mapM (fun x ↦ do let y ← f x; return k x y) = .ok zs) {x : α}
    (hx : x ∈ xs) : ∃ y, f x = .ok y ∧ k x y ∈ zs := by
  obtain ⟨z, hz, hxz⟩ := exists_of_mapM h hx
  obtain ⟨y, hy, hxz⟩ := bind_eq_ok_iff.mp hxz
  obtain rfl := pure_eq_ok_iff.mp hxz
  exact ⟨y, hy, hz⟩

theorem mem_of_mapM_bind (h : xs.mapM (fun x ↦ do let y ← f x; return k x y) = .ok zs) {z : γ} :
    z ∈ zs ↔ ∃ x ∈ xs, ∃ y, f x = .ok y ∧ k x y = z := by
  simp only [mem_of_mapM h, bind_eq_ok_iff, pure_eq_ok_iff]

/-- What a combination keeps of what a step is applied to, the list of steps keeps in order. -/
theorem map_eq_of_mapM_bind {δ : Type} {g : γ → δ} {key : α → δ}
    (h : xs.mapM (fun x ↦ do let y ← f x; return k x y) = .ok zs)
    (hkey : ∀ x y, g (k x y) = key x) : zs.map g = xs.map key := by
  have hall := mapM_eq_ok_iff.mp h
  clear h
  induction hall with
  | nil => rfl
  | cons hz _ ih =>
    obtain ⟨y, -, hz⟩ := bind_eq_ok_iff.mp hz
    rw [List.map_cons, List.map_cons, ih, ← pure_eq_ok_iff.mp hz, hkey]

/-! ## Steps without a result, and steps that pass on a state -/

theorem forM_eq_ok_iff {f : α → Result Unit} {xs : List α} :
    xs.forM f = .ok () ↔ ∀ x ∈ xs, f x = .ok () := by
  induction xs with
  | nil => simp [pure_eq_ok_iff]
  | cons x xs ih =>
    rw [List.forM, bind_eq_ok_iff, List.forall_mem_cons, ← ih]
    exact ⟨fun ⟨_, hx, h⟩ ↦ ⟨hx, h⟩, fun ⟨hx, h⟩ ↦ ⟨(), hx, h⟩⟩

/-- What holds at the start and is kept by every step holds at the end. -/
theorem foldlM_induction {f : β → α → Result β} {xs : List α} {start final : β}
    (motive : β → Prop) (h : xs.foldlM f start = .ok final) (hstart : motive start)
    (hstep : ∀ b x b', motive b → f b x = .ok b' → motive b') : motive final := by
  induction xs generalizing start with
  | nil =>
    rw [List.foldlM_nil, pure_eq_ok_iff] at h
    exact h ▸ hstart
  | cons x xs ih =>
    rw [List.foldlM_cons, bind_eq_ok_iff] at h
    obtain ⟨b, hb, h⟩ := h
    exact ih h (hstep start x b hstart hb)

/-- The same for a statement about the state and the elements that have led to it. -/
theorem foldlM_prefix_induction {f : β → α → Result β} {xs : List α} {start final : β}
    (motive : List α → β → Prop) (h : xs.foldlM f start = .ok final) (hstart : motive [] start)
    (hstep : ∀ before x b b', motive before b → f b x = .ok b' → motive (before ++ [x]) b') :
    motive xs final := by
  suffices hall : ∀ before, motive before start → motive (before ++ xs) final from hall [] hstart
  clear hstart
  induction xs generalizing start with
  | nil =>
    intro before hbefore
    rw [List.foldlM_nil, pure_eq_ok_iff] at h
    rwa [List.append_nil, ← h]
  | cons x xs ih =>
    intro before hbefore
    rw [List.foldlM_cons, bind_eq_ok_iff] at h
    obtain ⟨b, hb, h⟩ := h
    have hx := ih h (before ++ [x]) (hstep before x start b hbefore hb)
    rwa [List.append_assoc, List.singleton_append] at hx

theorem exists_of_foldlM_eq_error {f : β → α → Result β} {xs : List α} {start : β} {e : Failure}
    (h : xs.foldlM f start = .error e) : ∃ x ∈ xs, ∃ b, f b x = .error e := by
  induction xs generalizing start with
  | nil => exact absurd h pure_ne_error
  | cons x xs ih =>
    rw [List.foldlM_cons, bind_eq_error_iff] at h
    obtain hx | ⟨b, -, h⟩ := h
    · exact ⟨x, List.mem_cons_self, start, hx⟩
    · obtain ⟨y, hy, hfails⟩ := ih h
      exact ⟨y, List.mem_cons_of_mem x hy, hfails⟩

/-- Steps that cannot fail where something holds, and keep it, give a result. -/
theorem exists_foldlM_eq_ok {f : β → α → Result β} {xs : List α} {start : β} (motive : β → Prop)
    (hstart : motive start)
    (hstep : ∀ x ∈ xs, ∀ b, motive b → ∃ b', f b x = .ok b' ∧ motive b') :
    ∃ final, xs.foldlM f start = .ok final := by
  induction xs generalizing start with
  | nil => exact ⟨start, rfl⟩
  | cons x xs ih =>
    rw [List.forall_mem_cons] at hstep
    obtain ⟨b, hb, hmotive⟩ := hstep.1 start hstart
    rw [List.foldlM_cons, hb, ok_bind]
    exact ih hmotive hstep.2

theorem foldlM_eq_ok {f : β → α → Result β} {g : β → α → β} {xs : List α} {start : β}
    (h : ∀ x ∈ xs, ∀ b, f b x = .ok (g b x)) : xs.foldlM f start = .ok (xs.foldl g start) := by
  induction xs generalizing start with
  | nil => rfl
  | cons x xs ih =>
    rw [List.forall_mem_cons] at h
    rw [List.foldlM_cons, h.1, ok_bind, ih h.2, List.foldl_cons]

/-- Elements may be replaced by others with the same step, and left out if their step keeps the
state. -/
theorem foldlM_filterMap_eq {f : β → α → Result β} {k : α → Option α} {xs : List α}
    (hsome : ∀ x ∈ xs, ∀ y, k x = some y → ∀ b, f b y = f b x)
    (hnone : ∀ x ∈ xs, k x = none → ∀ b, f b x = .ok b) (start : β) :
    (xs.filterMap k).foldlM f start = xs.foldlM f start := by
  induction xs generalizing start with
  | nil => rfl
  | cons x xs ih =>
    simp only [List.forall_mem_cons] at hsome hnone
    have ih := ih hsome.2 hnone.2
    cases hx : k x with
    | none => rw [List.filterMap_cons_none hx, List.foldlM_cons, hnone.1 hx, ok_bind, ih]
    | some y => simp only [List.filterMap_cons_some hx, List.foldlM_cons, hsome.1 y hx, ih]

/-- A step that fails in every state makes the whole fail. If failures of all steps have a property,
so has the failure of the whole. -/
theorem exists_foldlM_eq_error {f : β → α → Result β} {xs : List α} {P : Failure → Prop} {x : α}
    (hx : x ∈ xs) (hfail : ∀ b, ∃ e, f b x = .error e)
    (hP : ∀ x ∈ xs, ∀ b e, f b x = .error e → P e) (start : β) :
    ∃ e, xs.foldlM f start = .error e ∧ P e := by
  induction xs generalizing start with
  | nil => exact absurd hx List.not_mem_nil
  | cons y ys ih =>
    rw [List.foldlM_cons]
    cases hy : f start y with
    | error e => exact ⟨e, rfl, hP y List.mem_cons_self start e hy⟩
    | ok b =>
      obtain rfl | hx := List.mem_cons.mp hx
      · obtain ⟨e, he⟩ := hfail start
        rw [hy] at he
        exact absurd he (by simp)
      · exact ih hx (fun z hz ↦ hP z (List.mem_cons_of_mem y hz)) b

end XrBindings.Result
