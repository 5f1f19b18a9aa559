import ChronoBook.Library.Monitor

/-! Sleeping threads of a monitor. No signal is lost if every unit that a waiter could
take has somebody awake who takes it or signals it; whoever stands between its test and
its sleep needs more, namely that the signal comes from somebody who has to take the
mutex first. A program that keeps such an account is free of deadlocks. -/

namespace ChronoBook.Library

namespace Monitor

variable {m : Nat} {σ κ : Type} {p : Program σ κ} {s s' : Monitor m σ κ} {t : Fin m}

section Signals

/-- An account of what waiters wait for: how many units there are in the memory; at which places a thread has looked
for one and is going to sleep without looking again; what a thread at a place is still to take or to signal,
apart from what it will only signal after it has taken the mutex once more; and how much of this an awakened
thread stands for. -/
structure Account (σ κ : Type) where
  supply : σ → Nat
  parks : κ → Bool
  early : κ → Nat
  due : κ → Nat
  credit : Nat

def Account.share (account : Account σ κ) (here : κ) : Nat := account.early here + account.due here

/-- An access takes no unit that the account does not know of. If it leaves no unit, it may lead anywhere. -/
def Account.Allows (account : Account σ κ) (holds : κ → Bool) (here : κ) (before : σ) (after : σ × κ) : Prop :=
  account.supply after.1 = 0 ∨ (account.parks after.2 = true → account.parks here = true) ∧
    account.supply after.1 + account.share here ≤ account.supply before + account.share after.2 ∧
    (holds here = true ∧ account.parks here = false ∨
      account.supply after.1 + account.early here ≤ account.supply before + account.early after.2)

/-- The instruction takes no unit and drops no signal that the account does not know of. -/
def Instr.Balances (holds : κ → Bool) (Inv : σ → Prop) (asserts : κ → σ → Prop) (account : Account σ κ) (here : κ) :
    Instr σ κ → Prop
  | .idle => account.share here = 0
  | .act run => ∀ shared, Inv shared → asserts here shared → account.Allows holds here shared (run shared)
  | .lock next => account.share here ≤ account.share next ∧ account.parks next = false
  | .unlock next => account.share here ≤ account.share next ∧ account.parks next = false
  | .wait next late => account.parks here = true ∧ account.share here = 0 ∧
      (account.credit ≤ account.share next ∧ account.parks next = false) ∧
        ∀ place ∈ late, account.credit ≤ account.share place ∧ account.parks place = false
  | .notifyOne next => account.share here ≤ account.share next + account.credit ∧
      account.early here ≤ account.early next ∧ account.parks next = false
  | .notifyAll next => account.early here ≤ account.early next ∧ account.parks next = false

structure Program.Balanced (p : Program σ κ) (holds : κ → Bool) (Inv : σ → Prop) (asserts : κ → σ → Prop)
    (account : Account σ κ) : Prop where
  code : ∀ here, (p.code here).Balances holds Inv asserts account here
  entry : ∀ here, p.entry here = true → account.parks here = false
  weak : ∀ here next, p.weak here = some next → account.share here ≤ account.share next ∧
    account.early here ≤ account.early next ∧ account.parks next = false
  parks : ∀ here, account.parks here = true → holds here = true

namespace Thread

def share (account : Account σ κ) : Thread κ → Nat
  | .running here => account.share here
  | .asleep _ _ => 0
  | .waking _ => account.credit

def early (account : Account σ κ) : Thread κ → Nat
  | .running here => account.early here
  | _ => 0

def parks (account : Account σ κ) : Thread κ → Bool
  | .running here => account.parks here
  | _ => false

/-- Who is awakened goes on with its credit. -/
def Patient (account : Account σ κ) : Thread κ → Prop
  | .running _ => True
  | .asleep next late => (account.credit ≤ account.share next ∧ account.parks next = false) ∧
      ∀ place ∈ late, account.credit ≤ account.share place ∧ account.parks place = false
  | .waking next => account.credit ≤ account.share next ∧ account.parks next = false

end Thread

/-- While a thread sleeps, every unit has a share of somebody awake. While a thread is going to sleep, every unit
will be signalled by somebody who has to take the mutex first. -/
structure Served (account : Account σ κ) (s : Monitor m σ κ) : Prop where
  patient : ∀ u, (s.threads u).Patient account
  asleep : ∀ u, (s.threads u).isAsleep = true → account.supply s.shared ≤ total (Thread.share account) s.threads
  parked : ∀ u, (s.threads u).parks account = true → account.supply s.shared ≤ total (Thread.early account) s.threads

variable {holds : κ → Bool} {Inv : σ → Prop} {asserts : κ → σ → Prop} {account : Account σ κ}

theorem Program.Balanced.rule (balanced : p.Balanced holds Inv asserts account) {here : κ} {instr : Instr σ κ}
    (code : p.code here = instr) : instr.Balances holds Inv asserts account here := by
  rw [← code]
  exact balanced.code here

theorem Program.Balanced.parks_holds (balanced : p.Balanced holds Inv asserts account) {thread : Thread κ}
    (parks : thread.parks account = true) : thread.holds holds = true := by
  cases thread with
  | running here => exact balanced.parks here parks
  | asleep next late => cases parks
  | waking next => cases parks

/-- Nobody is going to sleep while the mutex is free. -/
theorem Exclusive.parks_free (exclusive : s.Exclusive holds) (balanced : p.Balanced holds Inv asserts account)
    (free : s.owner = none) (u : Fin m) : (s.threads u).parks account = false := by
  refine Bool.eq_false_iff.mpr (fun parks => ?_)
  have mine := (exclusive.owner u).mp (balanced.parks_holds parks)
  rw [free] at mine
  cases mine

/-- Nobody is going to sleep but who holds the mutex. -/
theorem Exclusive.parks_other (exclusive : s.Exclusive holds) (balanced : p.Balanced holds Inv asserts account)
    (held : (s.threads t).holds holds = true) (u : Fin m) (other : u ≠ t) : (s.threads u).parks account = false :=
  Bool.eq_false_iff.mpr (fun parks => other (exclusive.unique (balanced.parks_holds parks) held))

/-- A thread goes on, and does not fall asleep. -/
theorem Served.put (served : s.Served account) (now : Thread κ) (shared : σ) (owner : Option (Fin m))
    (patient : now.Patient account) (awake : now.isAsleep = false)
    (asleep : account.supply shared = 0 ∨ s.sleeps = false ∨
      account.supply shared + (s.threads t).share account ≤ account.supply s.shared + now.share account)
    (parked : account.supply shared = 0 ∨
      now.parks account = false ∧ (∀ u, u ≠ t → (s.threads u).parks account = false) ∨
      (now.parks account = true → (s.threads t).parks account = true) ∧
        account.supply shared + (s.threads t).early account ≤ account.supply s.shared + now.early account) :
    Served account ⟨shared, owner, Function.update s.threads t now⟩ where
  patient := forall_update (P := fun _ thread => thread.Patient account) now patient (fun u _ => served.patient u)
  asleep := by
    refine forall_update (P := fun _ thread => thread.isAsleep = true → account.supply shared ≤ _) now
      (fun sleeping => nomatch awake.symm.trans sleeping) ?_
    intro u _ sleeping
    have shares := total_update (Thread.share account) s.threads t now
    have before := served.asleep u sleeping
    rcases asleep with none | nobody | balanced
    · omega
    · exact absurd ⟨u, sleeping⟩ (of_decide_eq_false nobody)
    · dsimp only
      omega
  parked := by
    have shares := total_update (Thread.early account) s.threads t now
    rcases parked with none | ⟨unparked, nobody⟩ | ⟨before, balanced⟩
    · exact fun _ _ => none ▸ Nat.zero_le _
    · exact forall_update (P := fun _ thread => thread.parks account = true → account.supply shared ≤ _) now
        (fun parking => nomatch unparked.symm.trans parking)
        (fun u other parking => nomatch (nobody u other).symm.trans parking)
    · refine forall_update (P := fun _ thread => thread.parks account = true → account.supply shared ≤ _) now ?_ ?_
      · intro parking
        have covered := served.parked t (before parking)
        dsimp only
        omega
      · intro u _ parking
        have covered := served.parked u parking
        dsimp only
        omega

/-- A thread goes on to a place from which it is not going to sleep, and the memory stays as it is. -/
theorem Served.went (served : s.Served account) {next : κ} (unparked : account.parks next = false)
    (share : (s.threads t).share account ≤ account.share next) (owner : Option (Fin m))
    (early : (∀ u, u ≠ t → (s.threads u).parks account = false) ∨ (s.threads t).early account ≤ account.early next) :
    Served account ⟨s.shared, owner, Function.update s.threads t (.running next)⟩ := by
  refine served.put (.running next) s.shared owner trivial rfl
    (Or.inr (Or.inr (Nat.add_le_add_left share _))) (Or.inr ?_)
  rcases early with nobody | less
  · exact Or.inl ⟨unparked, nobody⟩
  · exact Or.inr ⟨fun parking => (nomatch unparked.symm.trans parking), Nat.add_le_add_left less _⟩

theorem early_le_share (account : Account σ κ) (thread : Thread κ) : thread.early account ≤ thread.share account := by
  cases thread with
  | running here => exact Nat.le_add_right _ _
  | asleep next late => exact Nat.le_refl 0
  | waking next => exact Nat.zero_le _

/-- Who goes to sleep had the mutex, so that every unit is still to be signalled. -/
theorem Served.sleep (served : s.Served account) (nobody : ∀ u, u ≠ t → (s.threads u).parks account = false)
    {here next : κ} {late : Option κ} (place : s.threads t = .running here) (parks : account.parks here = true)
    (none : account.share here = 0) (patient : (Thread.asleep next late).Patient account) :
    Served account { s.goto t (.asleep next late) with owner := Option.none } where
  patient := forall_update (P := fun _ thread => thread.Patient account) _ patient (fun u _ => served.patient u)
  asleep := by
    intro _ _
    have covered := served.parked t (by rw [place]; exact parks)
    refine Nat.le_trans covered (Finset.sum_le_sum ?_)
    intro u _
    dsimp only [goto]
    by_cases same : u = t
    · rw [same, Function.update_self, place]
      exact Nat.le_trans (Nat.le_add_right _ _) (Nat.le_of_eq none)
    · rw [Function.update_of_ne same]
      exact early_le_share account _
  parked := forall_update (P := fun _ thread => thread.parks account = true → account.supply s.shared ≤ _) _
    (fun parking => nomatch parking) (fun u other parking => nomatch (nobody u other).symm.trans parking)

theorem Served.signal (served : s.Served account) {u : Fin m} {here next wakes : κ} {late : Option κ}
    (place : s.threads t = .running here) (sleeper : s.threads u = .asleep wakes late)
    (share : account.share here ≤ account.share next + account.credit) (early : account.early here ≤ account.early next)
    (unparked : account.parks next = false) : ((s.goto u (.waking wakes)).goto t (.running next)).Served account := by
  have other := ne_of_places place sleeper
  have still : Function.update s.threads u (.waking wakes) t = .running here := by
    rw [Function.update_of_ne other, place]
  have patient := served.patient u
  rw [sleeper] at patient
  refine ⟨?_, ?_, ?_⟩
  · exact forall_update (P := fun _ thread => thread.Patient account) (.running next) trivial (fun v _ =>
      forall_update (P := fun _ thread => thread.Patient account) (.waking wakes) patient.1
        (fun w _ => served.patient w) v)
  · intro v _
    have woken := total_update (Thread.share account) s.threads u (.waking wakes)
    have went := total_update (Thread.share account) (Function.update s.threads u (.waking wakes)) t (.running next)
    have covered := served.asleep u (by rw [sleeper]; rfl)
    rw [sleeper] at woken
    rw [still] at went
    change _ + 0 = _ + account.credit at woken
    change _ + account.share here = _ + account.share next at went
    change account.supply s.shared ≤ _
    dsimp only [goto]
    omega
  · intro v parking
    have woken := total_update (Thread.early account) s.threads u (.waking wakes)
    have went := total_update (Thread.early account) (Function.update s.threads u (.waking wakes)) t (.running next)
    rw [sleeper] at woken
    rw [still] at went
    change _ + 0 = _ + 0 at woken
    change _ + account.early here = _ + account.early next at went
    have before : (s.threads v).parks account = true := by
      revert parking
      exact forall_update (P := fun v thread => thread.parks account = true → (s.threads v).parks account = true)
        (.running next) (fun parking => nomatch unparked.symm.trans parking) (fun w _ =>
          forall_update (P := fun v thread => thread.parks account = true → (s.threads v).parks account = true)
            (.waking wakes) (fun parking => nomatch parking) (fun _ _ => id) w) v
    have covered := served.parked v before
    change account.supply s.shared ≤ _
    dsimp only [goto]
    omega

namespace Thread

theorem isAsleep_rouse (thread : Thread κ) : thread.rouse.isAsleep = false := by cases thread <;> rfl

theorem parks_rouse (thread : Thread κ) : thread.rouse.parks account = thread.parks account := by
  cases thread <;> rfl

theorem early_rouse (thread : Thread κ) : thread.rouse.early account = thread.early account := by cases thread <;> rfl

theorem Patient.rouse {thread : Thread κ} (patient : thread.Patient account) : thread.rouse.Patient account := by
  cases thread with
  | running here => trivial
  | asleep next late => exact patient.1
  | waking next => exact patient

end Thread

/-- Nobody sleeps after a `notify_all`. -/
theorem Served.all (served : s.Served account) {here next : κ} (place : s.threads t = .running here)
    (early : account.early here ≤ account.early next) (unparked : account.parks next = false) :
    Served account { s with threads := fun u => (Function.update s.threads t (.running next) u).rouse } where
  patient := fun u => Thread.Patient.rouse (forall_update (P := fun _ thread => thread.Patient account) (.running next)
    trivial (fun v _ => served.patient v) u)
  asleep := fun u sleeping => nomatch (Thread.isAsleep_rouse _).symm.trans sleeping
  parked := by
    intro u parking
    dsimp only at parking ⊢
    rw [Thread.parks_rouse] at parking
    have before : (s.threads u).parks account = true := by
      revert parking
      exact forall_update (P := fun u thread => thread.parks account = true → (s.threads u).parks account = true)
        (.running next) (fun parking => nomatch unparked.symm.trans parking) (fun _ _ => id) u
    have covered := served.parked u before
    have went := total_update (Thread.early account) s.threads t (.running next)
    rw [place] at went
    change _ + account.early here = _ + account.early next at went
    have same : total (Thread.early account) (fun u => (Function.update s.threads t (.running next) u).rouse) =
        total (Thread.early account) (Function.update s.threads t (.running next)) :=
      Finset.sum_congr rfl (fun u _ => Thread.early_rouse _)
    rw [same]
    omega

theorem Served.step (balanced : p.Balanced holds Inv asserts account) (kept : s.Kept holds Inv asserts)
    (served : s.Served account) (stepped : Stepped p s s') : s'.Served account := by
  cases stepped with
  | @called t here entry place code allowed =>
    have rule := balanced.rule code
    have none : (s.threads t).share account = 0 := by
      rw [place]
      exact rule
    have less := early_le_share account (s.threads t)
    exact served.went (balanced.entry entry allowed) (by omega) s.owner (Or.inr (by omega))
  | @acted t here run place code =>
    have rule := balanced.rule code
    rcases rule s.shared kept.annotated.inv (kept.annotated.running place) with none | ⟨parks, shares, early⟩
    · exact served.put (.running _) _ s.owner trivial rfl (Or.inl none) (Or.inl none)
    · refine served.put (.running _) _ s.owner trivial rfl (Or.inr (Or.inr ?_)) (Or.inr ?_)
      · rw [place]
        exact shares
      · rcases early with ⟨held, unparked⟩ | less
        · refine Or.inl ⟨Bool.eq_false_iff.mpr (fun parking => nomatch unparked.symm.trans (parks parking)), ?_⟩
          exact kept.exclusive.parks_other balanced (by rw [place]; exact held)
        · rw [place]
          exact Or.inr ⟨parks, less⟩
  | @failed t here next place code =>
    obtain ⟨share, early, unparked⟩ := balanced.weak here next code
    exact served.went unparked (by rw [place]; exact share) s.owner (Or.inr (by rw [place]; exact early))
  | @locked t here next place code free =>
    have rule := balanced.rule code
    exact served.went rule.2 (by rw [place]; exact rule.1) (some t)
      (Or.inl (fun u _ => kept.exclusive.parks_free balanced free u))
  | @relocked t next place free =>
    have patient := served.patient t
    rw [place] at patient
    exact served.went patient.2 (by rw [place]; exact patient.1) (some t)
      (Or.inl (fun u _ => kept.exclusive.parks_free balanced free u))
  | @unlocked t here next place code mine =>
    have rule := balanced.rule code
    exact served.went rule.2 (by rw [place]; exact rule.1) none
      (Or.inl (kept.exclusive.parks_other balanced ((kept.exclusive.owner t).mpr mine)))
  | @slept t here next late place code mine =>
    have rule := balanced.rule code
    exact served.sleep (kept.exclusive.parks_other balanced ((kept.exclusive.owner t).mpr mine)) place rule.1 rule.2.1 rule.2.2
  | @unheard t here next place code nobody =>
    have rule := balanced.rule code
    refine served.put (.running next) s.shared s.owner trivial rfl (Or.inr (Or.inl nobody))
      (Or.inr (Or.inr ⟨fun parking => (nomatch rule.2.2.symm.trans parking), ?_⟩))
    rw [place]
    exact Nat.add_le_add_left rule.2.1 _
  | @signalled t u here next wakes late place code sleeper =>
    have rule := balanced.rule code
    exact served.signal place sleeper rule.1 rule.2.1 rule.2.2
  | @broadcast t here next place code =>
    have rule := balanced.rule code
    exact served.all place rule.1 rule.2
  | @roused t next late place =>
    have patient := served.patient t
    rw [place] at patient
    refine served.put (.waking next) s.shared s.owner patient.1 rfl (Or.inr (Or.inr ?_))
      (Or.inr (Or.inr ⟨fun parking => (nomatch parking), ?_⟩))
    · rw [place]
      exact Nat.le_add_right _ _
    · rw [place]
      exact Nat.le_refl _
  | @expired t next late place =>
    have patient := served.patient t
    rw [place] at patient
    refine served.put (.waking late) s.shared s.owner (patient.2 late rfl) rfl (Or.inr (Or.inr ?_))
      (Or.inr (Or.inr ⟨fun parking => (nomatch parking), ?_⟩))
    · rw [place]
      exact Nat.le_add_right _ _
    · rw [place]
      exact Nat.le_refl _

theorem Served.run (verified : p.Verified holds Inv asserts) (balanced : p.Balanced holds Inv asserts account)
    (kept : s.Kept holds Inv asserts) (served : s.Served account) {moves : List (Move m κ)}
    (ran : s.run p moves = some s') : s'.Served account :=
  (run_keeps (P := fun s => s.Kept holds Inv asserts ∧ s.Served account)
    (fun _ _ stepped before => ⟨before.1.step verified stepped, before.2.step balanced before.1 stepped⟩) ran
    ⟨kept, served⟩).2

theorem Served.start (m : Nat) (shared : σ) (idle : κ) (unparked : account.parks idle = false) :
    (start m shared idle).Served account where
  patient := fun _ => trivial
  asleep := fun _ sleeping => nomatch sleeping
  parked := fun _ parking => nomatch unparked.symm.trans parking

/-- While there is a unit and a thread sleeps or is going to, somebody awake has a share in it. -/
theorem Served.shared (served : s.Served account) {u : Fin m} (positive : 0 < account.supply s.shared)
    (waits : (s.threads u).isAsleep = true ∨ (s.threads u).parks account = true) :
    ∃ v, 0 < (s.threads v).share account := by
  have some : 0 < total (Thread.share account) s.threads := by
    rcases waits with sleeping | parking
    · exact Nat.lt_of_lt_of_le positive (served.asleep u sleeping)
    · refine Nat.lt_of_lt_of_le (Nat.lt_of_lt_of_le positive (served.parked u parking)) ?_
      exact Finset.sum_le_sum (fun v _ => early_le_share account (s.threads v))
  obtain ⟨v, _, nonzero⟩ := Finset.exists_ne_zero_of_sum_ne_zero (Nat.ne_of_gt some)
  exact ⟨v, Nat.pos_of_ne_zero nonzero⟩

/-- There is a unit for good, and nobody is going to sleep. -/
structure Quiet (account : Account σ κ) (s : Monitor m σ κ) : Prop where
  served : s.Served account
  positive : 0 < account.supply s.shared
  unparked : ∀ u, (s.threads u).parks account = false

/-- Nobody sleeps either. -/
structure Settled (account : Account σ κ) (s : Monitor m σ κ) : Prop where
  quiet : s.Quiet account
  awake : ∀ u, (s.threads u).isAsleep = false

theorem Thread.share_eq_zero {thread : Thread κ} (free : account.credit = 0)
    (clear : ∀ here, account.share here ≠ 0 → thread ≠ .running here) : thread.share account = 0 := by
  cases thread with
  | running here => exact Classical.byContradiction (fun some => clear here some rfl)
  | asleep next late => rfl
  | waking next => exact free

/-- When there is a unit in which nobody has a share, everybody has seen it. -/
theorem Served.settled (served : s.Served account) (positive : 0 < account.supply s.shared) (free : account.credit = 0)
    (nobody : ∀ u here, account.share here ≠ 0 → s.threads u ≠ .running here) : s.Settled account := by
  have none : ∀ u, ¬((s.threads u).isAsleep = true ∨ (s.threads u).parks account = true) := by
    intro u waits
    obtain ⟨v, some⟩ := served.shared positive waits
    rw [Thread.share_eq_zero free (nobody v)] at some
    cases some
  exact ⟨⟨served, positive, fun u => Bool.eq_false_iff.mpr (fun parking => none u (Or.inr parking))⟩,
    fun u => Bool.eq_false_iff.mpr (fun sleeping => none u (Or.inl sleeping))⟩

/-- The supply never runs out. -/
def Program.Lasts (p : Program σ κ) (supply : σ → Nat) : Prop :=
  ∀ here run, p.code here = .act run → ∀ shared, 0 < supply shared → 0 < supply (run shared).1

theorem Quiet.put (quiet : s.Quiet account) (now : Thread κ) (unparked : now.parks account = false) {shared : σ}
    {owner : Option (Fin m)} (positive : 0 < account.supply shared)
    (served : Served account ⟨shared, owner, Function.update s.threads t now⟩) :
    Quiet account ⟨shared, owner, Function.update s.threads t now⟩ where
  served := served
  positive := positive
  unparked := forall_update (P := fun _ thread => thread.parks account = false) _ unparked (fun u _ => quiet.unparked u)

theorem Quiet.step (balanced : p.Balanced holds Inv asserts account) (lasts : p.Lasts account.supply)
    (kept : s.Kept holds Inv asserts) (quiet : s.Quiet account) (stepped : Stepped p s s') : s'.Quiet account := by
  have served := quiet.served.step balanced kept stepped
  cases stepped with
  | called place code allowed => exact quiet.put (.running _) (balanced.entry _ allowed) quiet.positive served
  | @acted t here run place code =>
    have rule := balanced.rule code
    have positive := lasts here run code s.shared quiet.positive
    have before := quiet.unparked t
    rw [place] at before
    rcases rule s.shared kept.annotated.inv (kept.annotated.running place) with none | ⟨parks, _, _⟩
    · omega
    · have unparked := Bool.eq_false_iff.mpr (fun parking => nomatch before.symm.trans (parks parking))
      exact quiet.put (.running _) unparked positive served
  | failed place code => exact quiet.put (.running _) (balanced.weak _ _ code).2.2 quiet.positive served
  | @locked t here next place code free =>
    have rule := balanced.rule code
    exact quiet.put (.running next) rule.2 quiet.positive served
  | @relocked t next place free =>
    have patient := quiet.served.patient t
    rw [place] at patient
    exact quiet.put (.running next) patient.2 quiet.positive served
  | @unlocked t here next place code mine =>
    have rule := balanced.rule code
    exact quiet.put (.running next) rule.2 quiet.positive served
  | @slept t here next late place code mine =>
    have rule := balanced.rule code
    have unparked := quiet.unparked t
    rw [place] at unparked
    cases unparked.symm.trans rule.1
  | @unheard t here next place code nobody =>
    have rule := balanced.rule code
    exact quiet.put (.running next) rule.2.2 quiet.positive served
  | @signalled t u here next wakes late place code sleeper =>
    have rule := balanced.rule code
    refine ⟨served, quiet.positive, ?_⟩
    exact forall_update (P := fun _ thread => thread.parks account = false) (.running next) rule.2.2 (fun v _ =>
      forall_update (P := fun _ thread => thread.parks account = false) (.waking wakes) rfl
        (fun w _ => quiet.unparked w) v)
  | @broadcast t here next place code =>
    have rule := balanced.rule code
    refine ⟨served, quiet.positive, fun u => (Thread.parks_rouse _).trans ?_⟩
    exact forall_update (P := fun _ thread => thread.parks account = false) (.running next) rule.2
      (fun u _ => quiet.unparked u) u
  | roused place => exact quiet.put (.waking _) rfl quiet.positive served
  | expired place => exact quiet.put (.waking _) rfl quiet.positive served

theorem Settled.step (balanced : p.Balanced holds Inv asserts account) (lasts : p.Lasts account.supply)
    (kept : s.Kept holds Inv asserts) (settled : s.Settled account) (stepped : Stepped p s s') : s'.Settled account := by
  refine ⟨settled.quiet.step balanced lasts kept stepped, ?_⟩
  have never : ∀ {u next late}, s.threads u ≠ .asleep next late := by
    intro u next late sleeper
    have awake := settled.awake u
    rw [sleeper] at awake
    cases awake
  have stays : ∀ (t : Fin m) (now : Thread κ), now.isAsleep = false →
      ∀ u, (Function.update s.threads t now u).isAsleep = false := fun t now awake =>
    forall_update (P := fun _ thread => thread.isAsleep = false) now awake (fun u _ => settled.awake u)
  cases stepped with
  | @slept t here next late place code mine =>
    have rule := balanced.rule code
    have unparked := settled.quiet.unparked t
    rw [place] at unparked
    cases unparked.symm.trans rule.1
  | signalled place code sleeper => exact absurd sleeper never
  | broadcast place code => exact fun u => Thread.isAsleep_rouse _
  | roused place => exact absurd place never
  | expired place => exact absurd place never
  | called | acted | failed | locked | relocked | unlocked | unheard => exact stays _ _ rfl

theorem Settled.run (verified : p.Verified holds Inv asserts) (balanced : p.Balanced holds Inv asserts account)
    (lasts : p.Lasts account.supply) (kept : s.Kept holds Inv asserts) (settled : s.Settled account)
    {moves : List (Move m κ)} (ran : s.run p moves = some s') : s'.Settled account :=
  (run_keeps (P := fun s => s.Kept holds Inv asserts ∧ s.Settled account)
    (fun _ _ stepped before => ⟨before.1.step verified stepped, before.2.step balanced lasts before.1 stepped⟩) ran
    ⟨kept, settled⟩).2

theorem Settled.never_waits (settled : s.Settled account) (u : Fin m) :
    (s.threads u).isAsleep = false ∧ ∀ here, account.parks here = true → s.threads u ≠ .running here := by
  refine ⟨settled.awake u, fun here parking place => ?_⟩
  have unparked := settled.quiet.unparked u
  rw [place] at unparked
  cases unparked.symm.trans parking

/-! A call that ends in a `notify_all`. -/

/-- At which places of a call it is certain that nobody is going to sleep any more, and at which that nobody sleeps. -/
structure Notice (κ : Type) where
  heard : κ → Bool
  told : κ → Bool

/-- The first is certain from the moment on at which somebody who has the mutex sees the unit, the second after the
`notify_all` that follows. -/
def Instr.Announces (holds : κ → Bool) (Inv : σ → Prop) (asserts : κ → σ → Prop) (account : Account σ κ)
    (notice : Notice κ) (here : κ) : Instr σ κ → Prop
  | .idle => True
  | .act run => ∀ shared, Inv shared → asserts here shared →
      (notice.told (run shared).2 = true → notice.told here = true) ∧
      (notice.heard (run shared).2 = true → notice.heard here = true ∨
        holds here = true ∧ 0 < account.supply (run shared).1 ∧ account.parks (run shared).2 = false)
  | .lock next => (notice.told next = true → notice.told here = true) ∧
      (notice.heard next = true → ∀ shared, Inv shared → asserts here shared → 0 < account.supply shared)
  | .unlock next => (notice.told next = true → notice.told here = true) ∧
      (notice.heard next = true → notice.heard here = true)
  | .wait next late => notice.heard next = false ∧ ∀ place ∈ late, notice.heard place = false
  | .notifyOne next => notice.heard next = false
  | .notifyAll next => notice.heard next = true → notice.heard here = true

structure Program.Announces (p : Program σ κ) (holds : κ → Bool) (Inv : σ → Prop) (asserts : κ → σ → Prop)
    (account : Account σ κ) (notice : Notice κ) : Prop where
  code : ∀ here, (p.code here).Announces holds Inv asserts account notice here
  entry : ∀ here, p.entry here = true → notice.heard here = false
  weak : ∀ here next, p.weak here = some next → notice.heard next = false
  heard : ∀ here, notice.told here = true → notice.heard here = true

namespace Thread

/-- The thread is at a marked place, or will be when it goes on. -/
def knows (known : κ → Bool) : Thread κ → Bool
  | .running here => known here
  | .asleep next late => known next || late.any known
  | .waking next => known next

theorem knows_rouse {known : κ → Bool} {thread : Thread κ} (later : thread.rouse.knows known = true) :
    thread.knows known = true := by
  cases thread with
  | running here => exact later
  | asleep next late => exact Bool.or_eq_true_iff.mpr (Or.inl later)
  | waking next => exact later

theorem knows_widen {known wider : κ → Bool} (widens : ∀ here, known here = true → wider here = true)
    {thread : Thread κ} (knows : thread.knows known = true) : thread.knows wider = true := by
  cases thread with
  | running here => exact widens here knows
  | asleep next late =>
    rcases Bool.or_eq_true_iff.mp knows with first | second
    · exact Bool.or_eq_true_iff.mpr (Or.inl (widens next first))
    · cases late with
      | none => cases second
      | some late => exact Bool.or_eq_true_iff.mpr (Or.inr (widens late second))
  | waking next => exact widens next knows

end Thread

structure Announced (account : Account σ κ) (notice : Notice κ) (s : Monitor m σ κ) : Prop where
  heard : ∀ u, (s.threads u).knows notice.heard = true → s.Quiet account
  told : ∀ u, (s.threads u).knows notice.told = true → s.Settled account

variable {notice : Notice κ}

theorem Program.Announces.rule (announces : p.Announces holds Inv asserts account notice) {here : κ}
    {instr : Instr σ κ} (code : p.code here = instr) : instr.Announces holds Inv asserts account notice here := by
  rw [← code]
  exact announces.code here

theorem Announced.start (m : Nat) (shared : σ) (idle : κ) (unheard : notice.heard idle = false)
    (untold : notice.told idle = false) : (Monitor.start m shared idle).Announced account notice :=
  ⟨fun _ known => absurd (unheard.symm.trans known) Bool.false_ne_true,
    fun _ known => absurd (untold.symm.trans known) Bool.false_ne_true⟩

/-- Only the thread that moves can come to a marked place. -/
theorem Announced.put (announced : s.Announced account notice) {now : Thread κ} {shared : σ} {owner : Option (Fin m)}
    (quiet : s.Quiet account → Quiet account ⟨shared, owner, Function.update s.threads t now⟩)
    (settled : s.Settled account → Settled account ⟨shared, owner, Function.update s.threads t now⟩)
    (heard : now.knows notice.heard = true → Quiet account ⟨shared, owner, Function.update s.threads t now⟩)
    (told : now.knows notice.told = true → Settled account ⟨shared, owner, Function.update s.threads t now⟩) :
    Announced account notice ⟨shared, owner, Function.update s.threads t now⟩ where
  heard := forall_update (P := fun _ thread => thread.knows notice.heard = true → _) now heard
    (fun u _ known => quiet (announced.heard u known))
  told := forall_update (P := fun _ thread => thread.knows notice.told = true → _) now told
    (fun u _ known => settled (announced.told u known))

/-- The thread that moves does not come to a marked place. -/
theorem Announced.unmarked (announced : s.Announced account notice)
    (marks : ∀ here, notice.told here = true → notice.heard here = true) {now : Thread κ} {shared : σ}
    {owner : Option (Fin m)}
    (quiet : s.Quiet account → Quiet account ⟨shared, owner, Function.update s.threads t now⟩)
    (settled : s.Settled account → Settled account ⟨shared, owner, Function.update s.threads t now⟩)
    (unheard : now.knows notice.heard = false) :
    Announced account notice ⟨shared, owner, Function.update s.threads t now⟩ :=
  announced.put quiet settled (fun known => nomatch unheard.symm.trans known)
    (fun known => nomatch unheard.symm.trans (Thread.knows_widen marks known))

/-- The thread that moves comes to a marked place only from another one. -/
theorem Announced.went (announced : s.Announced account notice) {now : Thread κ} {shared : σ} {owner : Option (Fin m)}
    (quiet : s.Quiet account → Quiet account ⟨shared, owner, Function.update s.threads t now⟩)
    (settled : s.Settled account → Settled account ⟨shared, owner, Function.update s.threads t now⟩)
    (heard : now.knows notice.heard = true → (s.threads t).knows notice.heard = true)
    (told : now.knows notice.told = true → (s.threads t).knows notice.told = true) :
    Announced account notice ⟨shared, owner, Function.update s.threads t now⟩ :=
  announced.put quiet settled (fun known => quiet (announced.heard t (heard known)))
    (fun known => settled (announced.told t (told known)))

/-- Who signals is not at a marked place afterwards. -/
theorem Announced.signal (announced : s.Announced account notice)
    (marks : ∀ here, notice.told here = true → notice.heard here = true) {u : Fin m} {next wakes : κ} {late : Option κ}
    (quiet : s.Quiet account → ((s.goto u (.waking wakes)).goto t (.running next)).Quiet account)
    (settled : s.Settled account → ((s.goto u (.waking wakes)).goto t (.running next)).Settled account)
    (sleeper : s.threads u = .asleep wakes late) (unheard : notice.heard next = false) :
    ((s.goto u (.waking wakes)).goto t (.running next)).Announced account notice := by
  have woken : ∀ known : κ → Bool, known wakes = true → (s.threads u).knows known = true := by
    intro known marked
    rw [sleeper]
    exact Bool.or_eq_true_iff.mpr (Or.inl marked)
  constructor
  · exact forall_update (P := fun _ thread => thread.knows notice.heard = true → _) (.running next)
      (fun known => nomatch unheard.symm.trans known) (fun v _ =>
        forall_update (P := fun _ thread => thread.knows notice.heard = true → _) (.waking wakes)
          (fun known => quiet (announced.heard u (woken _ known))) (fun w _ known => quiet (announced.heard w known)) v)
  · exact forall_update (P := fun _ thread => thread.knows notice.told = true → _) (.running next)
      (fun known => nomatch unheard.symm.trans (marks next known)) (fun v _ =>
        forall_update (P := fun _ thread => thread.knows notice.told = true → _) (.waking wakes)
          (fun known => settled (announced.told u (woken _ known))) (fun w _ known => settled (announced.told w known)) v)

/-- After a `notify_all` nobody sleeps. -/
theorem Announced.all (announced : s.Announced account notice)
    (marks : ∀ here, notice.told here = true → notice.heard here = true) {next : κ}
    (quiet : s.Quiet account →
      Quiet account { s with threads := fun u => (Function.update s.threads t (.running next) u).rouse })
    (settled : s.Settled account →
      Settled account { s with threads := fun u => (Function.update s.threads t (.running next) u).rouse })
    (heard : notice.heard next = true → s.Quiet account) :
    Announced account notice { s with threads := fun u => (Function.update s.threads t (.running next) u).rouse } := by
  constructor
  · intro u known
    have before := Thread.knows_rouse known
    revert before
    exact forall_update (P := fun _ thread => thread.knows notice.heard = true → _) (.running next)
      (fun known => quiet (heard known)) (fun v _ known => quiet (announced.heard v known)) u
  · intro u known
    have before := Thread.knows_rouse known
    revert before
    exact forall_update (P := fun _ thread => thread.knows notice.told = true → _) (.running next)
      (fun known => ⟨quiet (heard (marks next known)), fun v => Thread.isAsleep_rouse _⟩)
      (fun v _ known => settled (announced.told v known)) u

theorem Announced.step (announces : p.Announces holds Inv asserts account notice)
    (balanced : p.Balanced holds Inv asserts account) (lasts : p.Lasts account.supply) (kept : s.Kept holds Inv asserts)
    (served : s.Served account) (announced : s.Announced account notice) (stepped : Stepped p s s') :
    s'.Announced account notice := by
  have served' := served.step balanced kept stepped
  have quiet : s.Quiet account → s'.Quiet account := fun before => before.step balanced lasts kept stepped
  have settled : s.Settled account → s'.Settled account := fun before => before.step balanced lasts kept stepped
  cases stepped with
  | called place code allowed => exact announced.unmarked announces.heard quiet settled (announces.entry _ allowed)
  | @acted t here run place code =>
    obtain ⟨told, heard⟩ := announces.rule code s.shared kept.annotated.inv (kept.annotated.running place)
    refine announced.put quiet settled (fun known => ?_) (fun known => settled (announced.told t ?_))
    · rcases heard known with before | ⟨held, positive, unparked⟩
      · exact quiet (announced.heard t (by rw [place]; exact before))
      · have others := kept.exclusive.parks_other balanced (t := t) (by rw [place]; exact held)
        exact ⟨served', positive, forall_update (P := fun _ thread => thread.parks account = false) _ unparked others⟩
    · rw [place]
      exact told known
  | failed place code => exact announced.unmarked announces.heard quiet settled (announces.weak _ _ code)
  | @locked t here next place code free =>
    have rule := announces.rule code
    have unparked := (balanced.rule code).2
    refine announced.put quiet settled (fun known => ?_) (fun known => settled (announced.told t ?_))
    · refine ⟨served', rule.2 known s.shared kept.annotated.inv (kept.annotated.running place), ?_⟩
      exact forall_update (P := fun _ thread => thread.parks account = false) _ unparked
        (fun u _ => kept.exclusive.parks_free balanced free u)
    · rw [place]
      exact rule.1 known
  | @relocked t next place free =>
    refine announced.went quiet settled ?_ ?_ <;> rw [place] <;> exact id
  | @unlocked t here next place code mine =>
    have rule := announces.rule code
    refine announced.went quiet settled ?_ ?_ <;> rw [place]
    · exact rule.2
    · exact rule.1
  | @slept t here next late place code mine =>
    have rule := announces.rule code
    refine announced.unmarked announces.heard quiet settled (Bool.or_eq_false_iff.mpr ⟨rule.1, ?_⟩)
    cases late with
    | none => rfl
    | some late => exact rule.2 late rfl
  | unheard place code nobody => exact announced.unmarked announces.heard quiet settled (announces.rule code)
  | signalled place code sleeper => exact announced.signal announces.heard quiet settled sleeper (announces.rule code)
  | @broadcast t here next place code =>
    refine announced.all announces.heard quiet settled (fun known => announced.heard t ?_)
    rw [place]
    exact announces.rule code known
  | @roused t next late place =>
    refine announced.went quiet settled ?_ ?_ <;> rw [place]
    · exact fun known => Bool.or_eq_true_iff.mpr (Or.inl known)
    · exact fun known => Bool.or_eq_true_iff.mpr (Or.inl known)
  | @expired t next late place =>
    refine announced.went quiet settled ?_ ?_ <;> rw [place]
    · exact fun known => Bool.or_eq_true_iff.mpr (Or.inr known)
    · exact fun known => Bool.or_eq_true_iff.mpr (Or.inr known)

theorem Announced.run (verified : p.Verified holds Inv asserts) (announces : p.Announces holds Inv asserts account notice)
    (balanced : p.Balanced holds Inv asserts account) (lasts : p.Lasts account.supply) (kept : s.Kept holds Inv asserts)
    (served : s.Served account) (announced : s.Announced account notice) {moves : List (Move m κ)}
    (ran : s.run p moves = some s') : s'.Announced account notice :=
  (run_keeps (P := fun s => s.Kept holds Inv asserts ∧ s.Served account ∧ s.Announced account notice)
    (fun _ _ stepped before => ⟨before.1.step verified stepped, before.2.1.step balanced before.1 stepped,
      before.2.2.step announces balanced lasts before.1 before.2.1 stepped⟩) ran ⟨kept, served, announced⟩).2.2

end Signals

/-! Deadlocks. -/

section Deadlocks

/-- No thread can go on by itself: calls may begin and sleeps may end without a reason, but nothing else. -/
def Stuck (p : Program σ κ) (s : Monitor m σ κ) : Prop :=
  ∀ t, s.step p (.next t) = none ∧ ∀ u, s.step p (.signal t u) = none

def Thread.Rests (p : Program σ κ) : Thread κ → Prop
  | .running here => p.code here = .idle
  | .asleep _ _ => True
  | .waking _ => False

variable {holds : κ → Bool} {Inv : σ → Prop} {asserts : κ → σ → Prop} {account : Account σ κ}

/-- A thread at an instruction can go on, but perhaps if it has to take the mutex or to give it back. -/
theorem Stuck.code {here : κ} (stuck : s.Stuck p) (place : s.threads t = .running here) :
    p.code here = .idle ∨ (∃ next, p.code here = .lock next ∧ s.owner ≠ none) ∨
      (∃ next, p.code here = .unlock next ∧ s.owner ≠ some t) ∨
        ∃ next late, p.code here = .wait next late ∧ s.owner ≠ some t := by
  have still : s.exec t (p.code here) = none := by
    have next := (stuck t).1
    rw [step, place] at next
    exact next
  cases code : p.code here with
  | idle => exact Or.inl rfl
  | act run =>
    rw [code] at still
    cases still
  | lock next =>
    rw [code, exec] at still
    refine Or.inr (Or.inl ⟨next, rfl, fun free => ?_⟩)
    rw [if_pos free] at still
    cases still
  | unlock next =>
    rw [code, exec] at still
    refine Or.inr (Or.inr (Or.inl ⟨next, rfl, fun mine => ?_⟩))
    rw [if_pos mine] at still
    cases still
  | wait next late =>
    rw [code, exec] at still
    refine Or.inr (Or.inr (Or.inr ⟨next, late, rfl, fun mine => ?_⟩))
    rw [if_pos mine] at still
    cases still
  | notifyOne next =>
    rw [code, exec] at still
    by_cases sleeping : s.sleeps = true
    · obtain ⟨u, asleep⟩ := of_decide_eq_true sleeping
      obtain ⟨wakes, late, sleeper⟩ := Thread.isAsleep_iff.mp asleep
      have signal := (stuck t).2 u
      rw [step, place, sleeper] at signal
      dsimp only at signal
      rw [code] at signal
      cases signal
    · rw [if_neg sleeping] at still
      cases still
  | notifyAll next =>
    rw [code] at still
    cases still

/-- The owner of the mutex can always go on, so that only sleepers are ever stuck. -/
theorem Stuck.rests (disciplined : p.Disciplined holds) (exclusive : s.Exclusive holds) (stuck : s.Stuck p) (t : Fin m) :
    (s.threads t).Rests p := by
  have free : s.owner = none := by
    cases mine : s.owner with
    | none => rfl
    | some t =>
      have held := (exclusive.owner t).mpr mine
      cases place : s.threads t with
      | running here =>
        rw [place] at held
        have kept := disciplined.code here
        rw [show holds here = true from held] at kept
        rcases stuck.code place with code | ⟨next, code, _⟩ | ⟨next, _, other⟩ | ⟨next, late, _, other⟩
        · rw [code] at kept
          cases kept
        · rw [code] at kept
          cases kept.1
        · exact absurd mine other
        · exact absurd mine other
      | asleep next late =>
        rw [place] at held
        cases held
      | waking next =>
        rw [place] at held
        cases held
  cases place : s.threads t with
  | running here =>
    have kept := disciplined.code here
    have owner := exclusive.owner t
    rw [place, free] at owner
    rcases stuck.code place with code | ⟨next, _, taken⟩ | ⟨next, code, _⟩ | ⟨next, late, code, _⟩
    · exact code
    · exact absurd free taken
    · rw [code] at kept
      cases owner.mp kept.1
    · rw [code] at kept
      cases owner.mp kept.1
  | asleep next late => trivial
  | waking next =>
    have still := (stuck t).1
    rw [step, place] at still
    dsimp only at still
    rw [if_pos free] at still
    cases still

/-- When nobody can go on, who sleeps has a reason to. -/
theorem Served.stuck (disciplined : p.Disciplined holds) (balanced : p.Balanced holds Inv asserts account)
    (exclusive : s.Exclusive holds) (served : s.Served account) (stuck : s.Stuck p) {u : Fin m}
    (sleeping : (s.threads u).isAsleep = true) : account.supply s.shared = 0 := by
  by_contra nonzero
  obtain ⟨v, some⟩ := served.shared (Nat.pos_of_ne_zero nonzero) (Or.inl sleeping)
  have rests := stuck.rests disciplined exclusive v
  cases place : s.threads v with
  | running here =>
    have kept := balanced.code here
    rw [place] at rests some
    rw [show p.code here = .idle from rests] at kept
    exact absurd (show account.share here = 0 from kept) (Nat.ne_of_gt some)
  | asleep next late =>
    rw [place] at some
    cases some
  | waking next =>
    rw [place] at rests
    exact rests

end Deadlocks

end Monitor

end ChronoBook.Library
