import ChronoBook.Journal.PipelineRuns

/-! A worker with a configuration that it can serve. It meets no exception from absent
files as long as the journal has room, and each of its steps brings it nearer to its
end or to an empty ring, so that a full ring gets room and `stop` returns. -/

namespace ChronoBook
open FillJournal

/-- To a journal that was opened as a new one nothing but these fills was added. -/
theorem FillJournal.Keeps.holds {journal : FillJournal} {fills : List Fill} (keeps : journal.Keeps [] fills)
    (live : ∃ held, journal.Holds held) : journal.Holds fills := by
  rcases keeps with ⟨base, none, holds⟩ | ⟨_, none, listed⟩
  · rwa [List.map_eq_nil_iff.mp none] at holds
  · obtain ⟨held, holds⟩ := live
    have empty := (holds.records "").symm.trans (listed "")
    rw [List.map_eq_nil_iff.mp empty] at holds
    rwa [none]

/-- The sizes do not wrap, and the journal has room for `total` fills. -/
structure PipelineConfig.Sane (config : PipelineConfig) (total : Nat) : Prop where
  positive : 1 ≤ config.journalCapacity.toNat
  fits : 24 + 40 * config.journalCapacity.toNat < 2 ^ 63
  room : total ≤ config.journalCapacity.toNat
  batch : config.batchSize.toNat ≤ maxSize

theorem PipelineConfig.Sane.small {config : PipelineConfig} {total : Nat} (sane : config.Sane total) :
    total ≤ maxSize := by
  have fits := sane.fits
  have room := sane.room
  unfold maxSize maxSizeOf
  omega

def FlushPc.rank (batch : Nat) : FlushPc → Nat
  | .record done => 12 + 2 * (batch - done)
  | .counter done _ => 11 + 2 * (batch - done)
  | .sync => 11
  | .insert => 10
  | .count => 9
  | .clear => 8

/-- How far the worker is from an empty ring and an empty batch. A fill in the ring counts for more than all the steps
that take it to the store. -/
def LoopPc.rank (batch queue : Nat) : LoopPc → Nat
  | .flag => 40 * queue + 12 * batch + 7
  | .inbox => 40 * queue + 12 * batch + 6
  | .pop => if queue + batch = 0 then 8 else 40 * queue + 12 * batch + 5
  | .read => 40 * queue + 12 * batch + 4
  | .release _ => 40 * queue + 12 * batch + 3
  | .final => 40 * queue + 12 * batch + 5
  | .flush _ pc => 40 * queue + pc.rank batch
  | .lastSync => 40 * queue + 1

section Rank

variable {batch queue : Nat}

theorem LoopPc.rank_pop (busy : queue ≠ 0 ∨ batch ≠ 0) :
    LoopPc.pop.rank batch queue = 40 * queue + 12 * batch + 5 := by
  have some : ¬queue + batch = 0 := by omega
  exact if_neg some

theorem LoopPc.pop_lt_inbox (busy : queue ≠ 0) : LoopPc.pop.rank batch queue < LoopPc.inbox.rank batch queue := by
  rw [rank_pop (.inl busy)]
  exact Nat.lt_succ_self _

theorem LoopPc.inbox_lt_flag : LoopPc.inbox.rank batch queue < LoopPc.flag.rank batch queue := Nat.lt_succ_self _

/-- With nothing at hand the worker looks at the flag again. -/
theorem LoopPc.flag_lt_pop : LoopPc.flag.rank 0 0 < LoopPc.pop.rank 0 0 := by decide

theorem LoopPc.read_lt_pop (busy : queue ≠ 0) : LoopPc.read.rank batch queue < LoopPc.pop.rank batch queue := by
  rw [rank_pop (.inl busy)]
  exact Nat.lt_succ_self _

/-- Each fill of a batch pays for its own record and counter. -/
theorem LoopPc.flush_lt_final (last : Bool) (some : batch ≠ 0) :
    (LoopPc.flush last (.record 0)).rank batch queue < LoopPc.final.rank batch queue := by
  change 40 * queue + (12 + 2 * (batch - 0)) < 40 * queue + 12 * batch + 5
  omega

theorem LoopPc.flush_lt_pop (last : Bool) (some : batch ≠ 0) :
    (LoopPc.flush last (.record 0)).rank batch queue < LoopPc.pop.rank batch queue := by
  rw [rank_pop (.inr some)]
  exact flush_lt_final last some

/-- A fill that moves from the ring to the batch pays for the next turn of the loop. -/
theorem LoopPc.flag_lt_release {fill : Fill} :
    LoopPc.flag.rank (batch + 1) queue < (LoopPc.release fill).rank batch (queue + 1) := by
  change 40 * queue + 12 * (batch + 1) + 7 < 40 * (queue + 1) + 12 * batch + 3
  omega

theorem LoopPc.flush_lt_release (last : Bool) {fill : Fill} :
    (LoopPc.flush last (.record 0)).rank (batch + 1) queue < (LoopPc.release fill).rank batch (queue + 1) := by
  change 40 * queue + (12 + 2 * (batch + 1 - 0)) < 40 * (queue + 1) + 12 * batch + 3
  omega

theorem LoopPc.lastSync_lt_final : LoopPc.lastSync.rank batch queue < LoopPc.final.rank batch queue := by
  change 40 * queue + 1 < 40 * queue + 12 * batch + 5
  omega

end Rank

namespace DurabilityPipeline

variable {s s' : DurabilityPipeline} {accepted taken queued : List Fill} {frame : Frame} {total : Nat}

/-- There was no exception; the files are absent until they are opened, and then the journal is a good one. -/
def Healthy (s : DurabilityPipeline) : Prop :=
  s.error = "" ∧
    match s.worker with
    | none | some .openJournal => s.journalFile = none ∧ s.storeFile = none
    | some (.openStore journal) => (∃ held, journal.Holds held) ∧ s.storeFile = none
    | some (.reserve journal _) => ∃ held, journal.Holds held
    | some (.loop frame _) => ∃ held, frame.journal.Holds held
    | some .finished => ∃ (journal : FillJournal) (held : List Fill), journal.Holds held ∧ s.journalFile = some journal.file
    | _ => False

def rank (s : DurabilityPipeline) (queue : Nat) : Nat :=
  match s.worker with
  | some .openJournal => 40 * queue + 10
  | some (.openStore _) => 40 * queue + 9
  | some (.reserve _ _) => 40 * queue + 8
  | some (.loop frame pc) => pc.rank frame.batch.length queue
  | _ => 0

theorem rank_loop {pc : LoopPc} (here : s.worker = some (.loop frame pc)) (queue : Nat) :
    s.rank queue = pc.rank frame.batch.length queue := by
  unfold rank
  rw [here]

theorem rank_enter (pc : LoopPc) (queue : Nat) : (s.enter frame pc).rank queue = pc.rank frame.batch.length queue := rfl

theorem Healthy.enter (quiet : s.error = "") (live : ∃ held, frame.journal.Holds held) (pc : LoopPc) :
    (s.enter frame pc).Healthy := ⟨quiet, live⟩

theorem Tracks.flush_advances {last : Bool} {pc : FlushPc} (tracks : s.Tracks [] [] accepted taken queued)
    (here : s.worker = some (.loop frame (.flush last pc))) (live : ∃ held, frame.journal.Holds held)
    (sane : s.config.Sane total) (few : accepted.length ≤ total) :
    (s.flushStep frame last .ok pc).Healthy ∧
      (s.flushStep frame last .ok pc).rank queued.length < 40 * queued.length + pc.rank frame.batch.length := by
  have flow := tracks.flow
  unfold Flow at flow
  rw [here] at flow
  obtain ⟨opened, _, _, quiet, flow⟩ := flow
  have split := congrArg List.length tracks.split
  rw [List.length_append] at split
  cases pc with
  | record done =>
    obtain ⟨new, all, _, books⟩ := flow
    unfold flushStep
    dsimp only
    cases next : frame.batch[done]? with
    | none => exact ⟨.enter quiet live _, by change 40 * queued.length + 11 < 40 * queued.length + (12 + _); omega⟩
    | some fill =>
      have inside : done < frame.batch.length := (List.getElem?_eq_some_iff.mp next).1
      have count : (new ++ frame.batch.take done).length = new.length + done := by
        rw [List.length_append, List.length_take]
        omega
      have popped : taken.length = new.length + frame.batch.length := by rw [all, List.length_append]
      have bytes := bytes_of_fits sane.fits
      have room := sane.room
      have record := (books.journal.holds live).storeRecord fill
      rw [count, opened.capacity, opened.size, bytes, if_neg (by omega), if_neg (by omega)] at record
      obtain ⟨file, result, stored⟩ := record
      dsimp only
      rw [result]
      refine ⟨.enter quiet ⟨_, stored.toHolds⟩ _, ?_⟩
      change 40 * queued.length + (11 + 2 * (frame.batch.length - done)) <
        40 * queued.length + (12 + 2 * (frame.batch.length - done))
      omega
  | counter done idx =>
    obtain ⟨new, _, _, _, fill, base, next, _, stored, index⟩ := flow
    obtain ⟨bytes, result, holds⟩ := stored.storeCount
    have inside : done < frame.batch.length := (List.getElem?_eq_some_iff.mp next).1
    unfold flushStep
    dsimp only
    rw [index, result]
    refine ⟨.enter quiet ⟨_, holds⟩ _, ?_⟩
    change 40 * queued.length + (12 + 2 * (frame.batch.length - (done + 1))) <
      40 * queued.length + (11 + 2 * (frame.batch.length - done))
    omega
  | sync => exact ⟨.enter quiet live _, Nat.lt_succ_self _⟩
  | insert =>
    obtain ⟨new, all, _, books⟩ := flow
    have popped : taken.length = new.length + frame.batch.length := by rw [all, List.length_append]
    have small : frame.store.trades.length + frame.batch.length ≤ maxSize := by
      have limit := sane.small
      rw [books.trades, List.nil_append]
      omega
    unfold flushStep
    dsimp only [Io.outcome]
    rw [TradeStore.insertBatch_done frame.store small]
    exact ⟨⟨quiet, live⟩, Nat.lt_succ_self _⟩
  | count => exact ⟨⟨quiet, live⟩, Nat.lt_succ_self _⟩
  | clear =>
    unfold flushStep
    cases last with
    | true => exact ⟨⟨quiet, live⟩, by change 40 * queued.length + 1 < 40 * queued.length + 8; omega⟩
    | false => exact ⟨⟨quiet, live⟩, Nat.lt_succ_self _⟩

/-- A turn of the loop brings the worker nearer to its end, unless it has nothing to do and was not told to stop. -/
theorem Tracks.loop_advances {pc : LoopPc} (tracks : s.Tracks [] [] accepted taken queued)
    (here : s.worker = some (.loop frame pc)) (live : ∃ held, frame.journal.Holds held)
    (sane : s.config.Sane total) (few : accepted.length ≤ total) :
    (s.loopStep frame .ok pc).Healthy ∧
      (s.stop = true ∨ queued ≠ [] → (s.loopStep frame .ok pc).rank (pc.remaining queued).length <
        pc.rank frame.batch.length queued.length) := by
  have flow := tracks.flow
  have aware := tracks.aware
  unfold Flow at flow
  unfold Aware at aware
  rw [here] at flow aware
  obtain ⟨_, file, _, quiet, _⟩ := flow
  have empty := tracks.ring.empty_iff
  have length : queued.length ≠ 0 ↔ queued ≠ [] := List.length_eq_zero_iff.not
  cases pc with
  | flag =>
    refine ⟨.enter quiet live _, fun busy => ?_⟩
    unfold loopStep
    dsimp only
    by_cases stop : s.stop = true
    · rw [if_pos stop]
      exact LoopPc.inbox_lt_flag
    · rw [if_neg stop]
      have some := length.mpr (busy.resolve_left stop)
      exact (LoopPc.pop_lt_inbox some).trans LoopPc.inbox_lt_flag
  | inbox =>
    refine ⟨.enter quiet live _, fun _ => ?_⟩
    unfold loopStep
    dsimp only
    by_cases none : s.ring.empty = true
    · rw [if_pos none]
      exact Nat.lt_succ_self _
    · rw [if_neg none]
      exact LoopPc.pop_lt_inbox (length.mpr fun nothing => none (empty.mpr nothing))
  | pop =>
    refine ⟨?_, fun _ => ?_⟩
    · unfold loopStep
      dsimp only
      split <;> exact .enter quiet live _
    unfold loopStep
    dsimp only
    by_cases none : s.ring.empty = true
    · rw [if_pos none]
      by_cases taken : frame.batch.isEmpty = true
      · rw [if_pos taken, rank_enter, List.isEmpty_iff.mp taken, empty.mp none]
        exact LoopPc.flag_lt_pop
      · rw [if_neg taken]
        exact LoopPc.flush_lt_pop false fun short => taken (List.isEmpty_iff.mpr (List.length_eq_zero_iff.mp short))
    · rw [if_neg none]
      exact LoopPc.read_lt_pop (length.mpr fun nothing => none (empty.mpr nothing))
  | read =>
    obtain ⟨fill, rest, same⟩ := List.exists_cons_of_ne_nil aware.1
    have loaded : s.ring.load = some fill := by
      have ring := tracks.ring.queued aware.1
      rw [same] at ring
      exact ring.load
    unfold loopStep
    dsimp only
    rw [loaded]
    exact ⟨.enter quiet live _, fun _ => Nat.lt_succ_self _⟩
  | release fill =>
    unfold loopStep
    dsimp only
    refine ⟨⟨quiet, live⟩, fun _ => ?_⟩
    have grown : (frame.batch ++ [fill]).length = frame.batch.length + 1 := List.length_append
    cases queued with
    | nil => cases aware.1
    | cons first rest =>
      rw [rank_enter, grown]
      split
      · exact LoopPc.flush_lt_release false
      · exact LoopPc.flag_lt_release
  | flush last pc =>
    obtain ⟨healthy, nearer⟩ := tracks.flush_advances here live sane few
    exact ⟨healthy, fun _ => nearer⟩
  | final =>
    unfold loopStep
    dsimp only
    refine ⟨.enter quiet live _, fun _ => ?_⟩
    by_cases none : frame.batch.isEmpty = true
    · rw [if_pos none]
      exact LoopPc.lastSync_lt_final
    · rw [if_neg none]
      exact LoopPc.flush_lt_final true fun short => none (List.isEmpty_iff.mpr (List.length_eq_zero_iff.mp short))
  | lastSync =>
    obtain ⟨held, holds⟩ := live
    exact ⟨⟨quiet, frame.journal, held, holds, file⟩, fun _ => Nat.succ_pos _⟩

theorem Tracks.advances (tracks : s.Tracks [] [] accepted taken queued) (healthy : s.Healthy)
    (sane : s.config.Sane total) (few : accepted.length ≤ total) (started : s.worker ≠ none)
    (running : s.worker ≠ some .finished) :
    ∃ s', s.work .ok = some s' ∧ s'.Healthy ∧
      (s.stop = true ∨ queued ≠ [] → s'.rank (s.remaining queued).length < s.rank queued.length) := by
  have flow := tracks.flow
  obtain ⟨quiet, healthy⟩ := healthy
  unfold Flow at flow
  unfold DurabilityPipeline.work remaining
  cases here : s.worker with
  | none => exact absurd here started
  | some worker =>
    rw [here] at flow healthy
    cases worker with
    | openJournal =>
      obtain ⟨absent, empty⟩ := healthy
      have bytes : s.journalFile.getD [] = [] := by
        rw [absent]
        rfl
      obtain ⟨journal, created, holds, _⟩ :=
        create_mappable (mappable_of_fits sane.positive sane.fits) s.config.journalPath bytes
      dsimp only
      rw [created]
      refine ⟨_, rfl, ⟨quiet, ⟨_, holds⟩, empty⟩, fun _ => ?_⟩
      unfold rank
      rw [here]
      exact Nat.lt_succ_self _
    | openStore journal =>
      obtain ⟨live, empty⟩ := healthy
      dsimp only
      rw [empty]
      refine ⟨_, rfl, ⟨quiet, live⟩, fun _ => ?_⟩
      unfold rank
      rw [here]
      exact Nat.lt_succ_self _
    | reserve journal store =>
      dsimp only
      rw [if_neg (Nat.not_lt_of_le sane.batch)]
      refine ⟨_, rfl, ⟨quiet, healthy⟩, fun _ => ?_⟩
      unfold rank
      rw [here]
      exact Nat.lt_succ_self _
    | loop frame pc =>
      obtain ⟨after, nearer⟩ := tracks.loop_advances here healthy sane few
      refine ⟨_, rfl, after, ?_⟩
      rw [rank_loop here]
      exact nearer
    | raise what => cases healthy
    | halt => cases healthy
    | finished => exact absurd here running
    | crashed => cases healthy

theorem Healthy.aside (healthy : s.Healthy) (aside : PipelineSystem.Aside s s') : s'.Healthy := by
  obtain ⟨quiet, healthy⟩ := healthy
  refine ⟨aside.error.trans quiet, ?_⟩
  rw [aside.frozen.journalFile, aside.frozen.storeFile]
  rcases aside.worker with same | ⟨none, spawned⟩
  · rw [same]
    exact healthy
  · rw [none] at healthy
    rw [spawned]
    exact healthy

end DurabilityPipeline

end ChronoBook
