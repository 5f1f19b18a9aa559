import Mathlib.Data.List.Basic

/-! Runs of a system whose moves may be impossible, and the rule for what every move
keeps. -/

namespace ChronoBook.Library

variable {σ μ : Type} {step : σ → μ → Option σ} {s s' : σ}

/-- The state after some moves, if each of them is possible in its turn. -/
def runFrom (step : σ → μ → Option σ) : σ → List μ → Option σ
  | s, [] => some s
  | s, move :: later => (step s move).bind (fun next => runFrom step next later)

theorem runFrom_append (s : σ) (earlier later : List μ) :
    runFrom step s (earlier ++ later) = (runFrom step s earlier).bind (fun next => runFrom step next later) := by
  induction earlier generalizing s with
  | nil => rfl
  | cons move earlier ih =>
    rw [List.cons_append, runFrom, runFrom, Option.bind_assoc]
    congr 1
    funext next
    exact ih next

theorem runFrom_two {earlier later : List μ} {between : σ} (first : runFrom step s earlier = some between)
    (second : runFrom step between later = some s') : runFrom step s (earlier ++ later) = some s' := by
  rw [runFrom_append, first, Option.bind_some, second]

/-- A system may define its runs by itself. -/
theorem eq_runFrom {run : σ → List μ → Option σ} (nil : ∀ s, run s [] = some s)
    (cons : ∀ s move later, run s (move :: later) = (step s move).bind (fun next => run next later)) (s : σ)
    (moves : List μ) : run s moves = runFrom step s moves := by
  induction moves generalizing s with
  | nil => exact nil s
  | cons move later ih =>
    rw [cons, runFrom]
    congr 1
    funext next
    exact ih next

theorem runFrom_keeps {P : σ → Prop} {moves : List μ}
    (keeps : ∀ s move s', move ∈ moves → step s move = some s' → P s → P s')
    (ran : runFrom step s moves = some s') (start : P s) : P s' := by
  induction moves generalizing s with
  | nil =>
    cases ran
    exact start
  | cons move later ih =>
    obtain ⟨next, moved, rest⟩ := Option.bind_eq_some_iff.mp ran
    exact ih (fun s move s' inside => keeps s move s' (List.mem_cons_of_mem _ inside)) rest
      (keeps s move next List.mem_cons_self moved start)

end ChronoBook.Library
