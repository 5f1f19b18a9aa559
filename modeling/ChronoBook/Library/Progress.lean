import ChronoBook.Library.Signals
import Mathlib.Algebra.Ring.Nat

/-! No livelock. Every place has a price, the steps that are left from there; every
instruction makes its thread cheaper, and one that wakes others pays for what they do
before they sleep again. A run is then no longer than what its calls and its wake-ups
without a reason bring in. -/

namespace ChronoBook.Library

/-- Where every move takes one away from what is there and what it brings in, a run is no longer than that. -/
theorem runFrom_pays {σ μ : Type} {step : σ → μ → Option σ} {P : σ → Prop} {price : σ → Nat} {charge : μ → Nat} {s' : σ}
    (keeps : ∀ s move s', step s move = some s' → P s → P s')
    (pays : ∀ s move s', step s move = some s' → P s → price s' < price s + charge move) {moves : List μ} :
    ∀ {s : σ}, P s → runFrom step s moves = some s' → moves.length + price s' ≤ price s + (moves.map charge).sum := by
  induction moves with
  | nil =>
    intro s start ran
    cases ran
    exact Nat.le_of_eq (Nat.add_comm _ _)
  | cons move later ih =>
    intro s start ran
    obtain ⟨next, moved, rest⟩ := Option.bind_eq_some_iff.mp ran
    have first := pays s move next moved start
    have others := ih (keeps s move next moved start) rest
    rw [List.length_cons, List.map_cons, List.sum_cons]
    omega

namespace Monitor

variable {m : Nat} {σ κ : Type}

structure Tariff (κ : Type) where
  cost : κ → Nat
  /-- What it takes to wake a sleeper. -/
  wake : Nat

namespace Tariff

/-- The price of a sleeper: what the end of its time will cost, and what its wake-up does not cover. -/
def rest (tariff : Tariff κ) (next : κ) (late : Option κ) : Nat :=
  max (tariff.cost next + 1 - tariff.wake) (late.elim 0 (fun place => tariff.cost place + 2))

def thread (tariff : Tariff κ) : Thread κ → Nat
  | .running here => tariff.cost here
  | .asleep next late => tariff.rest next late
  | .waking next => tariff.cost next + 1

/-- What a move brings in. -/
def charge (tariff : Tariff κ) : Move m κ → Nat
  | .call _ entry => tariff.cost entry + 1
  | .fail _ => tariff.wake + 1
  | .spurious _ => tariff.wake + 1
  | _ => 0

def price (tariff : Tariff κ) (s : Monitor m σ κ) : Nat := total tariff.thread s.threads

variable (tariff : Tariff κ)

theorem waking_le (next : κ) (late : Option κ) :
    tariff.thread (.waking next) ≤ tariff.thread (.asleep next late) + tariff.wake := by
  change tariff.cost next + 1 ≤ tariff.rest next late + tariff.wake
  unfold rest
  omega

theorem late_lt (next place : κ) : tariff.thread (.waking place) < tariff.thread (.asleep next (some place)) := by
  change tariff.cost place + 1 < max _ (tariff.cost place + 2)
  omega

theorem rouse_le (thread : Thread κ) : tariff.thread thread.rouse ≤ tariff.thread thread + tariff.wake := by
  cases thread with
  | asleep next late => exact tariff.waking_le next late
  | running here => exact Nat.le_add_right _ _
  | waking next => exact Nat.le_add_right _ _

theorem price_rouse (threads : Fin m → Thread κ) :
    total tariff.thread (fun u => (threads u).rouse) ≤ total tariff.thread threads + m * tariff.wake := by
  calc total tariff.thread (fun u => (threads u).rouse)
      ≤ ∑ u, (tariff.thread (threads u) + tariff.wake) := Finset.sum_le_sum (fun u _ => tariff.rouse_le (threads u))
    _ = total tariff.thread threads + m * tariff.wake := by
      rw [Finset.sum_add_distrib, Finset.sum_const, Finset.card_univ, Fintype.card_fin]
      rfl

theorem price_start (m : Nat) (shared : σ) {idle : κ} (free : tariff.cost idle = 0) :
    tariff.price (start m shared idle) = 0 := by
  change ∑ _ : Fin m, tariff.cost idle = 0
  rw [free, Finset.sum_const_zero]

end Tariff

/-- The instruction leaves its thread with less to do, and pays for those that it wakes. -/
def Instr.Pays (tariff : Tariff κ) (m : Nat) (shared : σ) (now : Nat) : Instr σ κ → Prop
  | .idle => True
  | .act run => tariff.cost (run shared).2 < now
  | .lock next => tariff.cost next < now
  | .unlock next => tariff.cost next < now
  | .wait next late => tariff.rest next late < now
  | .notifyOne next => tariff.cost next + tariff.wake < now
  | .notifyAll next => tariff.cost next + m * tariff.wake < now

structure Program.Paid (p : Program σ κ) (m : Nat) (Inv : σ → Prop) (asserts : κ → σ → Prop) (tariff : Tariff κ) :
    Prop where
  code : ∀ here shared, Inv shared → asserts here shared → (p.code here).Pays tariff m shared (tariff.cost here)
  weak : ∀ here next, p.weak here = some next → tariff.cost next ≤ tariff.cost here + tariff.wake

variable {p : Program σ κ} {s s' : Monitor m σ κ} {t : Fin m} {tariff : Tariff κ} {holds : κ → Bool} {Inv : σ → Prop}
  {asserts : κ → σ → Prop}

/-- One thread goes on, and the others are as expensive as before. -/
theorem price_put (s : Monitor m σ κ) {before : Thread κ} (place : s.threads t = before) (now : Thread κ) {charge : Nat}
    (pays : tariff.thread now < tariff.thread before + charge) (shared : σ) (owner : Option (Fin m)) :
    tariff.price ⟨shared, owner, Function.update s.threads t now⟩ < tariff.price s + charge := by
  have changed := total_update tariff.thread s.threads t now
  rw [place] at changed
  unfold Tariff.price
  dsimp only
  omega

theorem exec_pays (paid : p.Paid m Inv asserts tariff) (annotated : s.Annotated Inv asserts) {here : κ}
    (place : s.threads t = .running here) (done : s.exec t (p.code here) = some s') :
    tariff.price s' < tariff.price s + 0 := by
  have pays := paid.code here s.shared annotated.inv (annotated.running place)
  cases code : p.code here with
  | idle =>
    rw [code] at done
    cases done
  | act run =>
    rw [code] at done pays
    cases done
    exact price_put s place (.running _) (by exact pays) _ _
  | lock next | unlock next =>
    rw [code] at done pays
    rw [exec] at done
    split at done <;> cases done
    exact price_put s place (.running next) (by exact pays) _ _
  | wait next late =>
    rw [code] at done pays
    rw [exec] at done
    split at done <;> cases done
    exact price_put s place (.asleep next late) (by exact pays) _ _
  | notifyOne next =>
    rw [code] at done pays
    rw [exec] at done
    split at done <;> cases done
    exact price_put s place (.running next) (lt_of_le_of_lt (Nat.le_add_right _ _) pays) _ _
  | notifyAll next =>
    rw [code] at done pays
    cases done
    have changed := total_update tariff.thread s.threads t (.running next)
    have roused := tariff.price_rouse (Function.update s.threads t (.running next))
    rw [place] at changed
    dsimp only [Instr.Pays, Tariff.price, Tariff.thread] at changed roused pays ⊢
    omega

theorem step_pays (paid : p.Paid m Inv asserts tariff) (annotated : s.Annotated Inv asserts) {move : Move m κ}
    (moved : s.step p move = some s') : tariff.price s' < tariff.price s + tariff.charge move := by
  cases move with
  | call t entry =>
    rw [step] at moved
    split at moved
    next here place =>
      split at moved
      next code =>
        split at moved <;> cases moved
        refine price_put s place (.running entry) ?_ _ _
        dsimp only [Tariff.thread, Tariff.charge]
        omega
      next => cases moved
    next => cases moved
  | next t =>
    rw [step] at moved
    split at moved
    next here place => exact exec_pays paid annotated place moved
    next => cases moved
    next next place =>
      split at moved <;> cases moved
      exact price_put s place (.running next) (Nat.lt_succ_self _) _ _
  | fail t =>
    rw [step] at moved
    split at moved
    next here place =>
      obtain ⟨next, code, rfl⟩ := Option.map_eq_some_iff.mp moved
      exact price_put s place (.running next) (Nat.lt_succ_of_le (paid.weak here next code)) _ _
    next => cases moved
  | signal t sleeper =>
    rw [step] at moved
    split at moved
    next here wakes late place asleep =>
      split at moved
      next next code =>
        cases moved
        have pays := paid.code here s.shared annotated.inv (annotated.running place)
        rw [code] at pays
        have other := ne_of_places place asleep
        have woken := total_update tariff.thread s.threads sleeper (.waking wakes)
        have went := total_update tariff.thread (s.goto sleeper (.waking wakes)).threads t (.running next)
        have still : (s.goto sleeper (.waking wakes)).threads t = .running here :=
          (Function.update_of_ne other _ _).trans place
        have bound := tariff.waking_le wakes late
        rw [asleep] at woken
        rw [still] at went
        dsimp only [Instr.Pays, Tariff.price, Tariff.thread, Tariff.charge, goto] at woken went bound pays ⊢
        omega
      next => cases moved
    next => cases moved
  | spurious t =>
    rw [step] at moved
    split at moved
    next next late place =>
      cases moved
      exact price_put s place (.waking next) (Nat.lt_succ_of_le (tariff.waking_le next late)) _ _
    next => cases moved
  | timeOut t =>
    rw [step] at moved
    split at moved
    next next late place =>
      cases moved
      exact price_put s place (.waking late) (tariff.late_lt next late) _ _
    next => cases moved

theorem run_pays (verified : p.Verified holds Inv asserts) (paid : p.Paid m Inv asserts tariff) {moves : List (Move m κ)}
    (kept : s.Kept holds Inv asserts) (ran : s.run p moves = some s') :
    moves.length + tariff.price s' ≤ tariff.price s + (moves.map tariff.charge).sum := by
  refine runFrom_pays (P := Kept holds Inv asserts) ?_ ?_ kept ran
  · exact fun _ _ _ moved before => before.step verified (stepped_of_step moved)
  · exact fun _ _ _ moved before => step_pays paid before.annotated moved

/-- A thread goes on by itself. -/
def Move.goesOn : Move m κ → Bool
  | .next _ => true
  | .signal _ _ => true
  | _ => false

theorem exists_step (moving : ¬s.Stuck p) : ∃ move s', Move.goesOn move = true ∧ s.step p move = some s' := by
  by_contra still
  refine moving (fun t => ⟨?_, fun u => ?_⟩)
  · exact Option.eq_none_iff_forall_ne_some.mpr (fun s' moved => still ⟨.next t, s', rfl, moved⟩)
  · exact Option.eq_none_iff_forall_ne_some.mpr (fun s' moved => still ⟨.signal t u, s', rfl, moved⟩)

/-- Threads that go on come to an end. -/
theorem runs_out (verified : p.Verified holds Inv asserts) (paid : p.Paid m Inv asserts tariff) (s : Monitor m σ κ)
    (kept : s.Kept holds Inv asserts) :
    ∃ later s', (∀ move ∈ later, Move.goesOn move = true) ∧ s.run p later = some s' ∧ s'.Stuck p := by
  by_cases stuck : s.Stuck p
  · exact ⟨[], s, nofun, rfl, stuck⟩
  · obtain ⟨move, next, own, moved⟩ := exists_step stuck
    have cheaper : tariff.price next < tariff.price s := by
      have pays := step_pays paid kept.annotated moved
      cases move <;> first | exact pays | cases own
    obtain ⟨later, s', owns, ran, stuck'⟩ := runs_out verified paid next (kept.step verified (stepped_of_step moved))
    refine ⟨move :: later, s', List.forall_mem_cons.mpr ⟨own, owns⟩, ?_, stuck'⟩
    exact Option.bind_eq_some_iff.mpr ⟨next, moved, ran⟩
termination_by tariff.price s

end Monitor

end ChronoBook.Library
