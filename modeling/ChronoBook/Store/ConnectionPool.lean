import ChronoBook.Infra.FutexSemaphore
import ChronoBook.Journal.FillJournal
import ChronoBook.Library.Tally

/-! The pool of connections with its clients. A call of `acquire` takes a permit of the
semaphore and then, under the lock, a connection; a lease that is given back pushes
its connection and then posts the permit. Each of these is a step of its own. -/

namespace ChronoBook
open Library

/-- The semaphore's count is an `int`; the connections are numbered. -/
structure ConnectionPool where
  available : List Nat
  count : Int

def ConnectionPool.create (size : Nat) : Except Failure ConnectionPool :=
  if size = 0 then .error (.thrown "connection pool size must be > 0")
  else .ok ⟨List.range size, toInt32 size⟩

/-- A variable for a lease: not constructed, empty, with a connection, or inside of a call that constructs or resets it,
during which only this call may use it. -/
inductive LeaseVar where
  | absent
  | empty
  | holding (conn : Nat)
  | busy
  deriving DecidableEq, Repr

/-- What a call goes on with when the connection was given back. -/
inductive AfterReset (k : Nat) where
  | done
  | destroyed
  | assigned (source : Fin k)
  deriving DecidableEq, Repr

/-- Where a client is; `releasing` has the connection that is about to be pushed. -/
inductive PoolClient (k : Nat) where
  | idle
  | waiting (timed failed : Bool) (into : Fin k)
  | permitted (into : Fin k)
  | releasing (lease : Fin k) (conn : Nat) (after : AfterReset k)
  | posting (lease : Fin k) (after : AfterReset k)
  | crashed
  deriving DecidableEq, Repr

/-- Any number of clients and of variables for leases. -/
structure PoolSystem (m k : Nat) where
  pool : ConnectionPool
  clients : Fin m → PoolClient k
  leases : Fin k → LeaseVar

/-- `semaphore` and `post` are the steps on the count, `queue` and `push` those under the lock. -/
inductive PoolMove (m k : Nat) where
  | acquire (client : Fin m) (into : Fin k)
  | tryAcquireFor (client : Fin m) (into : Fin k)
  | semaphore (client : Fin m)
  | timeout (client : Fin m)
  | queue (client : Fin m)
  | moveConstruct (client : Fin m) (into source : Fin k)
  | moveAssign (client : Fin m) (target source : Fin k)
  | reset (client : Fin m) (lease : Fin k)
  | destroy (client : Fin m) (lease : Fin k)
  | push (client : Fin m)
  | post (client : Fin m)
  deriving DecidableEq, Repr

/-- The call has this connection in hand. -/
def PoolClient.carries {k : Nat} (conn : Nat) : PoolClient k → Bool
  | .releasing _ held _ => held = conn
  | _ => false

/-- The call has a permit and no connection yet. -/
def PoolClient.permit {k : Nat} : PoolClient k → Bool
  | .permitted _ => true
  | _ => false

/-- The call has pushed its connection and not posted the permit. -/
def PoolClient.owes {k : Nat} : PoolClient k → Bool
  | .posting _ _ => true
  | _ => false

def PoolClient.on {k : Nat} (lease : Fin k) : PoolClient k → Bool
  | .waiting _ _ into => into = lease
  | .permitted into => into = lease
  | .releasing held _ _ => held = lease
  | .posting held _ => held = lease
  | _ => false

def LeaseVar.isBusy : LeaseVar → Bool
  | .busy => true
  | _ => false

def LeaseVar.holds (conn : Nat) (var : LeaseVar) : Bool := var = .holding conn

namespace PoolSystem

variable {m k : Nat}

def create (pool : ConnectionPool) (m k : Nat) : PoolSystem m k := ⟨pool, fun _ => .idle, fun _ => .absent⟩

/-- A client with the variable that it works on. -/
def put (s : PoolSystem m k) (client : Fin m) (now : PoolClient k) (lease : Fin k) (var : LeaseVar) : PoolSystem m k :=
  { s with clients := Function.update s.clients client now, leases := Function.update s.leases lease var }

/-- An empty variable takes over what another one has, and this one is blanked. -/
def transfer (s : PoolSystem m k) (target source : Fin k) : PoolSystem m k :=
  match s.leases source with
  | .holding conn =>
      { s with leases := Function.update (Function.update s.leases source .empty) target (.holding conn) }
  | _ => s

def begin (s : PoolSystem m k) (client : Fin m) (timed : Bool) (into : Fin k) : Option (PoolSystem m k) :=
  match s.clients client, s.leases into with
  | .idle, .absent => some (s.put client (.waiting timed false into) into .busy)
  | _, _ => none

/-- One `tryAcquire`; a call that was refused once may run into its timeout. -/
def semaphore (s : PoolSystem m k) (client : Fin m) : Option (PoolSystem m k) :=
  match s.clients client with
  | .waiting timed _ into =>
      if 0 < s.pool.count then
        some { (s.put client (.permitted into) into .busy) with pool := { s.pool with count := s.pool.count - 1 } }
      else some (s.put client (.waiting timed true into) into .busy)
  | _ => none

def timeout (s : PoolSystem m k) (client : Fin m) : Option (PoolSystem m k) :=
  match s.clients client with
  | .waiting true true into => some (s.put client .idle into .empty)
  | _ => none

/-- The locked part of `acquire`; taking the front of an empty queue has no meaning. -/
def queue (s : PoolSystem m k) (client : Fin m) : Option (PoolSystem m k) :=
  match s.clients client with
  | .permitted into =>
      match s.pool.available with
      | [] => some (s.put client .crashed into .busy)
      | conn :: rest =>
          some { (s.put client .idle into (.holding conn)) with pool := { s.pool with available := rest } }
  | _ => none

def moveConstruct (s : PoolSystem m k) (client : Fin m) (into source : Fin k) : Option (PoolSystem m k) :=
  match s.clients client, s.leases into, s.leases source with
  | .idle, .absent, .empty => some (s.put client .idle into .empty)
  | .idle, .absent, .holding _ => some ((s.put client .idle into .empty).transfer into source)
  | _, _, _ => none

/-- `reset` on a variable; `after` says in which call. -/
def giveBack (s : PoolSystem m k) (client : Fin m) (lease : Fin k) (after : AfterReset k) (var : LeaseVar) :
    Option (PoolSystem m k) :=
  match s.clients client, s.leases lease with
  | .idle, .empty => some (s.put client .idle lease var)
  | .idle, .holding conn => some (s.put client (.releasing lease conn after) lease .busy)
  | _, _ => none

/-- An assignment of a variable to itself does nothing. -/
def moveAssign (s : PoolSystem m k) (client : Fin m) (target source : Fin k) : Option (PoolSystem m k) :=
  if s.leases source = .absent ∨ s.leases source = .busy then none
  else if target = source then
    match s.clients client with
    | .idle => some s
    | _ => none
  else
    match s.leases target with
    | .empty => (s.giveBack client target .done .empty).map (fun s => s.transfer target source)
    | _ => s.giveBack client target (.assigned source) .empty

def push (s : PoolSystem m k) (client : Fin m) : Option (PoolSystem m k) :=
  match s.clients client with
  | .releasing lease conn after =>
      some { (s.put client (.posting lease after) lease .busy) with
        pool := { s.pool with available := s.pool.available ++ [conn] } }
  | _ => none

def post (s : PoolSystem m k) (client : Fin m) : Option (PoolSystem m k) :=
  match s.clients client with
  | .posting lease after =>
      let pool := { s.pool with count := toInt32 (s.pool.count + 1) }
      match after with
      | .done => some { (s.put client .idle lease .empty) with pool := pool }
      | .destroyed => some { (s.put client .idle lease .absent) with pool := pool }
      | .assigned source => some (({ (s.put client .idle lease .empty) with pool := pool } : PoolSystem m k).transfer
          lease source)
  | _ => none

def step (s : PoolSystem m k) : PoolMove m k → Option (PoolSystem m k)
  | .acquire client into => s.begin client false into
  | .tryAcquireFor client into => s.begin client true into
  | .semaphore client => s.semaphore client
  | .timeout client => s.timeout client
  | .queue client => s.queue client
  | .moveConstruct client into source => s.moveConstruct client into source
  | .moveAssign client target source => s.moveAssign client target source
  | .reset client lease => s.giveBack client lease .done .empty
  | .destroy client lease => s.giveBack client lease .destroyed .absent
  | .push client => s.push client
  | .post client => s.post client

def run (s : PoolSystem m k) : List (PoolMove m k) → Option (PoolSystem m k)
  | [] => some s
  | move :: later => (s.step move).bind (fun s => s.run later)

/-- In how many places a connection is: in the queue, in leases, in calls. -/
def places (s : PoolSystem m k) (conn : Nat) : Nat :=
  s.pool.available.count conn + tally (LeaseVar.holds conn) s.leases + tally (PoolClient.carries conn) s.clients

/-- Every connection is in one place, every permit is accounted for, and every variable in a call is in one. -/
structure Invariant (n : Nat) (s : PoolSystem m k) : Prop where
  placed : ∀ conn, s.places conn = if conn < n then 1 else 0
  permits : (s.pool.available.length : Int) + toInt32 n =
    s.pool.count + tally PoolClient.permit s.clients + tally PoolClient.owes s.clients + n
  least : min 0 (toInt32 n) ≤ s.pool.count
  owned : ∀ lease, tally (PoolClient.on lease) s.clients = (s.leases lease).isBusy.toNat
  running : ∀ client, s.clients client ≠ .crashed

variable {n : Nat} {s s' : PoolSystem m k}

/-- One client, the variable it works on and the pool change, and the accounts still agree. -/
theorem Invariant.put (inv : s.Invariant n) {client : Fin m} {before now : PoolClient k} {lease : Fin k}
    {old var : LeaseVar} {pool : ConnectionPool} (here : s.clients client = before) (had : s.leases lease = old)
    (moves : ∀ conn, pool.available.count conn + (var.holds conn).toNat + (now.carries conn).toNat =
      s.pool.available.count conn + (old.holds conn).toNat + (before.carries conn).toNat)
    (permits : (pool.available.length : Int) + s.pool.count + before.permit.toNat + before.owes.toNat =
      s.pool.available.length + pool.count + now.permit.toNat + now.owes.toNat)
    (least : min 0 (toInt32 n) ≤ pool.count)
    (aside : ∀ other, other ≠ lease → now.on other = before.on other)
    (works : (now.on lease).toNat + old.isBusy.toNat =
      (before.on lease).toNat + var.isBusy.toNat)
    (running : now ≠ .crashed) :
    Invariant n { (s.put client now lease var) with pool := pool } := by
  subst here had
  refine ⟨?_, ?_, least, ?_, ?_⟩
  · intro conn
    have total := inv.placed conn
    have held := tally_update (LeaseVar.holds conn) s.leases lease var
    have carried := tally_update (PoolClient.carries conn) s.clients client now
    have here := moves conn
    unfold places at total ⊢
    dsimp only [PoolSystem.put]
    omega
  · have total := inv.permits
    have permitted := tally_update PoolClient.permit s.clients client now
    have owed := tally_update PoolClient.owes s.clients client now
    dsimp only [PoolSystem.put]
    generalize toInt32 n = initial at total ⊢
    omega
  · intro other
    have total := inv.owned other
    have changed := tally_update (PoolClient.on other) s.clients client now
    dsimp only [PoolSystem.put]
    by_cases same : other = lease
    · subst same
      rw [Function.update_self]
      omega
    · rw [Function.update_of_ne same]
      rw [aside other same] at changed
      omega
  · intro other
    dsimp only [PoolSystem.put]
    by_cases same : other = client
    · subst same
      rw [Function.update_self]
      exact running
    · rw [Function.update_of_ne same]
      exact inv.running other

theorem Invariant.transfer (inv : s.Invariant n) {target source : Fin k} (empty : s.leases target = .empty) :
    (s.transfer target source).Invariant n := by
  unfold PoolSystem.transfer
  split
  next conn holding =>
    have different : target ≠ source := by
      intro same
      rw [same, holding] at empty
      cases empty
    refine ⟨?_, inv.permits, inv.least, ?_, inv.running⟩
    · intro other
      have total := inv.placed other
      have blanked := tally_update (LeaseVar.holds other) s.leases source .empty
      have taken := tally_update (LeaseVar.holds other) (Function.update s.leases source .empty) target (.holding conn)
      rw [Function.update_of_ne different, empty] at taken
      rw [holding] at blanked
      have nothing : (LeaseVar.empty.holds other).toNat = 0 := rfl
      unfold places at total ⊢
      dsimp only
      omega
    · intro lease
      have total := inv.owned lease
      dsimp only
      rw [total]
      by_cases first : lease = target
      · subst first
        rw [Function.update_self, empty]
        rfl
      · rw [Function.update_of_ne first]
        by_cases second : lease = source
        · subst second
          rw [Function.update_self, holding]
          rfl
        · rw [Function.update_of_ne second]
  · exact inv

/-- The calls for which a variable is not busy do not count it as theirs. -/
theorem on_other {lease other : Fin k} (different : other ≠ lease) : decide (lease = other) = false :=
  decide_eq_false (fun same => different same.symm)

theorem Invariant.begin (inv : s.Invariant n) {client : Fin m} {timed : Bool} {into : Fin k}
    (moved : s.begin client timed into = some s') : s'.Invariant n := by
  unfold PoolSystem.begin at moved
  split at moved
  next idle absent =>
    cases moved
    exact inv.put idle absent (fun _ => rfl) rfl inv.least (fun _ different => on_other different)
      (by simp [PoolClient.on, LeaseVar.isBusy]) nofun
  · cases moved

theorem Invariant.busy (inv : s.Invariant n) {client : Fin m} {lease : Fin k} (on : (s.clients client).on lease = true) :
    s.leases lease = .busy := by
  have some := le_tally (PoolClient.on lease) s.clients client
  rw [on, inv.owned lease] at some
  cases here : s.leases lease with
  | busy => rfl
  | _ =>
    rw [here] at some
    exact absurd some (Nat.not_succ_le_zero 0)

theorem Invariant.semaphore (inv : s.Invariant n) {client : Fin m} (moved : s.semaphore client = some s') :
    s'.Invariant n := by
  unfold PoolSystem.semaphore at moved
  split at moved
  next timed failed into waits =>
    have busy : s.leases into = .busy := inv.busy (by rw [waits]; exact decide_eq_true rfl)
    have least := inv.least
    split at moved
    next some =>
      cases moved
      refine inv.put waits busy (fun _ => rfl) ?_ ?_ (fun _ _ => rfl) rfl nofun
      · simp only [PoolClient.permit, PoolClient.owes, Bool.toNat_true, Bool.toNat_false]
        omega
      · dsimp only
        generalize toInt32 n = initial at least ⊢
        omega
    · cases moved
      exact inv.put waits busy (fun _ => rfl) rfl least (fun _ _ => rfl) rfl nofun
  · cases moved

theorem Invariant.timeout (inv : s.Invariant n) {client : Fin m} (moved : s.timeout client = some s') :
    s'.Invariant n := by
  unfold PoolSystem.timeout at moved
  split at moved
  next into waits =>
    have busy : s.leases into = .busy := inv.busy (by rw [waits]; exact decide_eq_true rfl)
    cases moved
    exact inv.put waits busy (fun _ => rfl) rfl inv.least (fun _ different => (on_other different).symm)
      (by simp [PoolClient.on, LeaseVar.isBusy]) nofun
  · cases moved

/-- Behind a permit there is a connection. -/
theorem Invariant.stocked (inv : s.Invariant n) {client : Fin m} (permitted : (s.clients client).permit = true) :
    s.pool.available ≠ [] := by
  intro empty
  have some := le_tally PoolClient.permit s.clients client
  have total := inv.permits
  have least := inv.least
  have cast := toInt32_le n
  rw [permitted] at some
  rw [empty, List.length_nil] at total
  generalize toInt32 n = initial at total least cast
  change 1 ≤ _ at some
  omega

theorem Invariant.queue (inv : s.Invariant n) {client : Fin m} (moved : s.queue client = some s') : s'.Invariant n := by
  unfold PoolSystem.queue at moved
  split at moved
  next into permitted =>
    have busy : s.leases into = .busy := inv.busy (by rw [permitted]; exact decide_eq_true rfl)
    split at moved
    next empty => exact absurd empty (inv.stocked (by rw [permitted]; rfl))
    next conn rest stock =>
      cases moved
      refine inv.put permitted busy ?_ ?_ inv.least (fun _ different => (on_other different).symm)
        (by simp [PoolClient.on, LeaseVar.isBusy]) nofun
      · intro other
        dsimp only
        rw [stock, List.count_cons]
        by_cases same : conn = other
        · simp [same, LeaseVar.holds, PoolClient.carries]
        · simp [same, LeaseVar.holds, PoolClient.carries]
      · simp only [PoolClient.permit, PoolClient.owes, Bool.toNat_true, Bool.toNat_false]
        rw [stock, List.length_cons]
        omega
  · cases moved

theorem Invariant.moveConstruct (inv : s.Invariant n) {client : Fin m} {into source : Fin k}
    (moved : s.moveConstruct client into source = some s') : s'.Invariant n := by
  unfold PoolSystem.moveConstruct at moved
  split at moved
  next idle absent _ =>
    cases moved
    exact inv.put idle absent (fun _ => rfl) rfl inv.least (fun _ _ => rfl) rfl nofun
  next idle absent _ =>
    cases moved
    have made : (s.put client .idle into .empty).Invariant n :=
      inv.put idle absent (fun _ => rfl) rfl inv.least (fun _ _ => rfl) rfl nofun
    exact made.transfer (Function.update_self ..)
  · cases moved

theorem Invariant.giveBack (inv : s.Invariant n) {client : Fin m} {lease : Fin k} {after : AfterReset k} {var : LeaseVar}
    (blank : ∀ conn, var.holds conn = false) (quiet : var.isBusy = false)
    (moved : s.giveBack client lease after var = some s') : s'.Invariant n := by
  unfold PoolSystem.giveBack at moved
  split at moved
  next idle empty =>
    cases moved
    refine inv.put idle empty (fun conn => ?_) rfl inv.least (fun _ _ => rfl) ?_ nofun
    · rw [blank conn]
      rfl
    · rw [quiet]
      rfl
  next conn idle holding =>
    cases moved
    refine inv.put idle holding (fun other => ?_) rfl inv.least (fun _ different => on_other different)
      (by simp [PoolClient.on, LeaseVar.isBusy]) nofun
    by_cases same : conn = other
    · simp [same, LeaseVar.holds, PoolClient.carries]
    · simp [same, LeaseVar.holds, PoolClient.carries]
  · cases moved

theorem Invariant.moveAssign (inv : s.Invariant n) {client : Fin m} {target source : Fin k}
    (moved : s.moveAssign client target source = some s') : s'.Invariant n := by
  unfold PoolSystem.moveAssign at moved
  split at moved
  · cases moved
  split at moved
  · split at moved <;> cases moved
    exact inv
  split at moved
  next empty =>
    obtain ⟨reset, given, same⟩ := Option.map_eq_some_iff.mp moved
    subst same
    apply (inv.giveBack (fun _ => rfl) rfl given).transfer
    unfold PoolSystem.giveBack at given
    rw [empty] at given
    split at given <;> cases given
    · exact Function.update_self ..
    next _ holding => cases holding
  · exact inv.giveBack (fun _ => rfl) rfl moved

theorem Invariant.push (inv : s.Invariant n) {client : Fin m} (moved : s.push client = some s') : s'.Invariant n := by
  unfold PoolSystem.push at moved
  split at moved
  next lease conn after releasing =>
    have busy : s.leases lease = .busy := inv.busy (by rw [releasing]; exact decide_eq_true rfl)
    cases moved
    refine inv.put releasing busy (fun other => ?_) ?_ inv.least (fun _ _ => rfl) rfl nofun
    · dsimp only
      rw [List.count_append, List.count_singleton]
      by_cases same : conn = other
      · simp [same, LeaseVar.holds, PoolClient.carries]
      · simp [same, LeaseVar.holds, PoolClient.carries]
    · dsimp only
      rw [List.length_append, List.length_singleton]
      simp only [PoolClient.permit, PoolClient.owes, Bool.toNat_true, Bool.toNat_false]
      omega
  · cases moved

theorem Invariant.distinct (inv : s.Invariant n) : s.pool.available.Nodup ∧ s.pool.available ⊆ List.range n := by
  constructor
  · rw [List.nodup_iff_count_le_one]
    intro conn
    have total := inv.placed conn
    unfold places at total
    split at total <;> omega
  · intro conn inside
    have some := List.count_pos_iff.mpr inside
    have total := inv.placed conn
    unfold places at total
    rw [List.mem_range]
    split at total <;> omega

/-- The count does not overflow: there are no more permits than at first. -/
theorem Invariant.bounded (inv : s.Invariant n) {client : Fin m} (owes : (s.clients client).owes = true) :
    toInt32 (s.pool.count + 1) = s.pool.count + 1 := by
  have some := le_tally PoolClient.owes s.clients client
  have total := inv.permits
  have least := inv.least
  have high := toInt32_lt n
  have low := le_toInt32 n
  have few := (List.subperm_of_subset inv.distinct.1 inv.distinct.2).length_le
  rw [owes] at some
  rw [List.length_range] at few
  change 1 ≤ _ at some
  generalize toInt32 n = initial at total least high low
  apply toInt32_of_bounds
  · omega
  · omega

theorem Invariant.post (inv : s.Invariant n) {client : Fin m} (moved : s.post client = some s') : s'.Invariant n := by
  unfold PoolSystem.post at moved
  split at moved
  next lease after posting =>
    have busy : s.leases lease = .busy := inv.busy (by rw [posting]; exact decide_eq_true rfl)
    have owes : (s.clients client).owes = true := by
      rw [posting]
      rfl
    have counted := inv.bounded owes
    have least := inv.least
    have ends : ∀ var : LeaseVar, (∀ conn, var.holds conn = false) → var.isBusy = false →
        Invariant n { (s.put client .idle lease var) with pool := { s.pool with count := toInt32 (s.pool.count + 1) } } := by
      intro var blank quiet
      refine inv.put posting busy (fun conn => ?_) ?_ ?_ (fun _ different => (on_other different).symm) ?_ nofun
      · rw [blank conn]
        rfl
      · rw [counted]
        simp only [PoolClient.permit, PoolClient.owes, Bool.toNat_true, Bool.toNat_false]
        omega
      · rw [counted]
        dsimp only
        generalize toInt32 n = initial at least ⊢
        omega
      · rw [quiet]
        simp [PoolClient.on, LeaseVar.isBusy]
    cases after with
    | done =>
      cases moved
      exact ends .empty (fun _ => rfl) rfl
    | destroyed =>
      cases moved
      exact ends .absent (fun _ => rfl) rfl
    | assigned source =>
      cases moved
      exact (ends .empty (fun _ => rfl) rfl).transfer (Function.update_self ..)
  · cases moved

theorem Invariant.step (inv : s.Invariant n) {move : PoolMove m k} (moved : s.step move = some s') : s'.Invariant n := by
  cases move with
  | acquire client into => exact inv.begin moved
  | tryAcquireFor client into => exact inv.begin moved
  | semaphore client => exact inv.semaphore moved
  | timeout client => exact inv.timeout moved
  | queue client => exact inv.queue moved
  | moveConstruct client into source => exact inv.moveConstruct moved
  | moveAssign client target source => exact inv.moveAssign moved
  | reset client lease => exact inv.giveBack (fun _ => rfl) rfl moved
  | destroy client lease => exact inv.giveBack (fun _ => rfl) rfl moved
  | push client => exact inv.push moved
  | post client => exact inv.post moved

theorem run_eq (s : PoolSystem m k) (schedule : List (PoolMove m k)) : s.run schedule = runFrom step s schedule :=
  eq_runFrom (fun _ => rfl) (fun _ _ _ => rfl) s schedule

theorem Invariant.run {schedule : List (PoolMove m k)} (inv : s.Invariant n) (ran : s.run schedule = some s') :
    s'.Invariant n := by
  rw [run_eq] at ran
  exact runFrom_keeps (fun _ _ _ _ moved before => before.step moved) ran inv

theorem Invariant.create {pool : ConnectionPool} (made : ConnectionPool.create n = .ok pool) (m k : Nat) :
    (PoolSystem.create pool m k).Invariant n := by
  unfold ConnectionPool.create at made
  split at made <;> cases made
  refine ⟨?_, ?_, ?_, ?_, nofun⟩
  · intro conn
    unfold places PoolSystem.create
    dsimp only
    rw [tally_zero (fun _ => rfl), tally_zero (fun _ => rfl), List.nodup_range.count]
    simp
  · unfold PoolSystem.create
    dsimp only
    rw [tally_zero (fun _ => rfl), tally_zero (fun _ => rfl), List.length_range]
    omega
  · unfold PoolSystem.create
    dsimp only
    generalize toInt32 n = initial
    omega
  · intro lease
    exact tally_zero (fun _ => rfl)

/-- With nothing leased the queue has all the connections again. -/
theorem Invariant.complete (inv : s.Invariant n)
    (gone : ∀ lease, s.leases lease = .absent ∨ s.leases lease = .empty) : s.pool.available.Perm (List.range n) := by
  have unheld : ∀ conn, tally (LeaseVar.holds conn) s.leases = 0 := by
    intro conn
    apply tally_zero
    intro lease
    rcases gone lease with here | here <;> rw [here] <;> rfl
  have uncarried : ∀ conn, tally (PoolClient.carries conn) s.clients = 0 := by
    intro conn
    apply tally_zero
    intro client
    cases here : s.clients client with
    | releasing lease held after =>
      have busy : s.leases lease = .busy := inv.busy (by rw [here]; exact decide_eq_true rfl)
      rcases gone lease with none | none <;> rw [busy] at none <;> cases none
    | _ => rfl
  rw [List.perm_iff_count]
  intro conn
  have total := inv.placed conn
  unfold places at total
  rw [unheld, uncarried] at total
  rw [List.nodup_range.count]
  simpa using total

end PoolSystem

/-- In every state that the clients' calls can reach, step by step: every connection is in the queue once, or in one lease,
or in the hands of one call; a call that is about to take the front finds one, and no call took it from an empty queue;
the count of the semaphore is at most the length of the queue; and with no lease left the queue has exactly the
connections it was made with. -/
theorem connection_leases_exclusive (n m k : Nat) (pool : ConnectionPool) (made : ConnectionPool.create n = .ok pool)
    (schedule : List (PoolMove m k)) (s : PoolSystem m k)
    (ran : (PoolSystem.create pool m k).run schedule = some s) :
    (∀ conn, s.places conn = if conn < n then 1 else 0) ∧
      (∀ client into, s.clients client = .permitted into → s.pool.available ≠ []) ∧
      (∀ client, s.clients client ≠ .crashed) ∧
      s.pool.count ≤ s.pool.available.length ∧
      ((∀ lease, s.leases lease = .absent ∨ s.leases lease = .empty) → s.pool.available.Perm (List.range n)) := by
  have inv := (PoolSystem.Invariant.create made m k).run ran
  refine ⟨inv.placed, ?_, inv.running, ?_, inv.complete⟩
  · intro client into permitted
    exact inv.stocked (by rw [permitted]; rfl)
  · have total := inv.permits
    have cast := toInt32_le n
    generalize toInt32 n = initial at total cast
    omega

/-- One client takes the only connection, another one runs into its timeout; the lease is moved, reset and destroyed. -/
theorem connection_leases_exclusive_sample :
    ∃ s, (PoolSystem.create ⟨[0], 1⟩ 2 3).run
        [.acquire 0 0, .semaphore 0, .tryAcquireFor 1 1, .semaphore 1, .queue 0, .timeout 1, .moveConstruct 0 2 0,
          .moveAssign 0 2 2, .destroy 0 0, .moveAssign 1 1 2, .reset 1 1, .push 1, .post 1, .destroy 1 1, .destroy 0 2] =
        some s ∧ s.pool.available.Perm (List.range 1) := by
  have facts : ((PoolSystem.create ⟨[0], 1⟩ 2 3).run
      [.acquire 0 0, .semaphore 0, .tryAcquireFor 1 1, .semaphore 1, .queue 0, .timeout 1, .moveConstruct 0 2 0,
        .moveAssign 0 2 2, .destroy 0 0, .moveAssign 1 1 2, .reset 1 1, .push 1, .post 1, .destroy 1 1, .destroy 0 2]).any
      (fun s => ∀ lease, s.leases lease = .absent ∨ s.leases lease = .empty) = true := by decide
  obtain ⟨s, ran, gone⟩ := (Option.any_eq_true _ _).mp facts
  exact ⟨s, ran, (connection_leases_exclusive 1 2 3 ⟨[0], 1⟩ rfl _ s ran).2.2.2.2 (of_decide_eq_true gone)⟩

end ChronoBook
