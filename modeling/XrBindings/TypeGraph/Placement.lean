import XrBindings.Table

/-!
# Placing what depends on each other

Tasks are put into an order in which each stands after what it needs. Every task counts the needs
that are not placed yet. One that waits for nothing stands in a queue, which is kept in the order
of positions, and the first in the queue is placed next. Everything that needs what is placed then
waits for one thing less, and joins the queue with its last need.

A task joins the queue when its count falls to zero, so the tasks in the queue and those with a
count above zero are together one fewer after each placement, and placing always ends.
-/

namespace XrBindings.Placement

variable {κ : Type}

/-- Something to be placed, and what has to be placed before it. -/
structure Task (κ : Type) where
  name : κ
  needs : List κ
  deriving DecidableEq, Repr

/-- How far a placement has come. -/
structure State (κ : Type) where
  /-- How many of its needs each task waits for. -/
  waiting : Table κ Nat
  /-- The tasks that wait for nothing and are not placed, in the order of positions. -/
  queue : List κ
  /-- The tasks that are placed, in order. -/
  placed : List κ

/-- Put a name into a queue. -/
def enqueue (position : κ → Nat) (queue : List κ) (name : κ) : List κ :=
  match queue with
  | [] => [name]
  | first :: rest =>
    if position name ≤ position first then name :: first :: rest
    else first :: enqueue position rest name

theorem length_enqueue (position : κ → Nat) (queue : List κ) (name : κ) :
    (enqueue position queue name).length = queue.length + 1 := by
  induction queue with
  | nil => rfl
  | cons first rest ih =>
    rw [enqueue]
    split
    · rfl
    · rw [List.length_cons, ih, List.length_cons]

variable [DecidableEq κ]

/-- The tasks that need a name, each as often as it needs it. -/
def dependents (tasks : List (Task κ)) (name : κ) : List κ :=
  tasks.flatMap fun t ↦ (t.needs.filter (· = name)).map fun _ ↦ t.name

/-- Nothing is placed, and what needs nothing stands in the queue. -/
def start (position : κ → Nat) (tasks : List (Task κ)) : State κ where
  waiting := Table.ofList (tasks.map fun t ↦ (t.name, t.needs.length))
  queue := ((tasks.filter (·.needs.isEmpty)).map (·.name)).foldl (enqueue position) []
  placed := []

/-- One need of a task is met. With the last one the task joins the queue. -/
def meet (position : κ → Nat) (s : State κ) (name : κ) : State κ :=
  match s.waiting.get? name with
  | none => s
  | some n =>
    let waiting := s.waiting.insert name (n - 1)
    if n = 1 then { s with waiting, queue := enqueue position s.queue name }
    else { s with waiting }

/-- Place a name, and leave the rest of the queue. -/
def place (position : κ → Nat) (tasks : List (Task κ)) (s : State κ) (name : κ) (rest : List κ) :
    State κ :=
  (dependents tasks name).foldl (meet position)
    { s with queue := rest, placed := s.placed ++ [name] }

/-! ## Placing ends -/

/-- How many tasks stand in the queue or still wait. -/
def State.size (s : State κ) : Nat := s.queue.length + s.waiting.values.countP (0 < ·)

theorem size_meet (position : κ → Nat) (s : State κ) (name : κ) :
    (meet position s name).size = s.size := by
  rw [meet]
  cases hn : s.waiting.get? name with
  | none => rfl
  | some n =>
    have hcount := s.waiting.countP_insert (fun m ↦ decide (0 < m)) hn (n - 1)
    simp only [decide_eq_true_eq] at hcount
    by_cases h : n = 1
    · rw [if_pos (by omega), if_neg (by omega)] at hcount
      simp only [State.size, if_pos h, length_enqueue]
      omega
    · have hsame : (0 < n - 1) = (0 < n) := propext (by omega)
      simp only [hsame] at hcount
      simp only [State.size, if_neg h]
      omega

theorem size_foldl_meet (position : κ → Nat) (s : State κ) (names : List κ) :
    (names.foldl (meet position) s).size = s.size := by
  induction names generalizing s with
  | nil => rfl
  | cons name names ih => rw [List.foldl_cons, ih, size_meet]

theorem size_place_lt (position : κ → Nat) (tasks : List (Task κ)) {s : State κ} {name : κ}
    {rest : List κ} (h : s.queue = name :: rest) :
    (place position tasks s name rest).size < s.size := by
  rw [place, size_foldl_meet]
  simp only [State.size, h, List.length_cons]
  omega

/-- Place as long as something stands in the queue. -/
def run (position : κ → Nat) (tasks : List (Task κ)) (s : State κ) : State κ :=
  match _h : s.queue with
  | [] => s
  | name :: rest => run position tasks (place position tasks s name rest)
termination_by s.size
decreasing_by exact size_place_lt position tasks _h

/-- What can be placed, in the order in which it is. -/
def order (position : κ → Nat) (tasks : List (Task κ)) : List κ :=
  (run position tasks (start position tasks)).placed

end XrBindings.Placement
