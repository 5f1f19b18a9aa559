import ChronoBook.Journal.DurabilityPipeline

/-! The fills on their way through the pipeline. At every step of the worker the
accepted fills are, in order, those that are new in the store, those of the current
batch and those in the ring, and the journal got the new ones and a part of the batch. -/

namespace ChronoBook
open FillJournal

theorem unsynced_named : (Failure.thrown "failed to flush fill journal mapping").Named := by
  change "failed to flush fill journal mapping" ≠ ""
  decide

/-- The journal and the store were opened as the configuration says. -/
structure Frame.Opened (frame : Frame) (config : PipelineConfig) : Prop where
  path : frame.journal.path = config.journalPath
  capacity : frame.journal.capacity = config.journalCapacity
  size : frame.journal.fileBytes = 24 + config.journalCapacity * 40
  store : frame.store.path = config.storePath

/-- Behind what the store and the journal had at first, the store has got `new`, and the journal `new` and a part of the
batch. -/
structure Frame.Books (older : List FillRecord) (kept : List Fill) (frame : Frame) (new part : List Fill) : Prop where
  trades : frame.store.trades = kept ++ new
  journal : frame.journal.Keeps older (new ++ part)

/-- The books while a batch is flushed; `taken` are the fills popped so far. -/
def FlushPc.Flow (older : List FillRecord) (kept : List Fill) (frame : Frame) (taken : List Fill) (persisted : Nat) :
    FlushPc → Prop
  | .record done => ∃ new, taken = new ++ frame.batch ∧ persisted = new.length ∧
      frame.Books older kept new (frame.batch.take done)
  | .counter done idx => ∃ new, taken = new ++ frame.batch ∧ persisted = new.length ∧ frame.store.trades = kept ++ new ∧
      ∃ fill base, frame.batch[done]? = some fill ∧ base.map Fill.record = older ∧
        frame.journal.Stored (base ++ (new ++ frame.batch.take done)) fill ∧
        idx = UInt64.ofNat (base ++ (new ++ frame.batch.take done)).length
  | .sync | .insert => ∃ new, taken = new ++ frame.batch ∧ persisted = new.length ∧
      frame.Books older kept new frame.batch
  | .count => persisted + frame.batch.length = taken.length ∧ frame.Books older kept taken []
  | .clear => persisted = taken.length ∧ frame.Books older kept taken []

/-- Outside of a flush the journal and the store have got the same. -/
def LoopPc.Flow (older : List FillRecord) (kept : List Fill) (frame : Frame) (taken : List Fill) (persisted : Nat) :
    LoopPc → Prop
  | .flush _ pc => pc.Flow older kept frame taken persisted
  | .lastSync => persisted = taken.length ∧ frame.Books older kept taken []
  | _ => ∃ new, taken = new ++ frame.batch ∧ persisted = new.length ∧ frame.Books older kept new []

/-- What the worker has seen of its inbox and relies on. -/
def LoopPc.Aware (queued : List Fill) : LoopPc → Prop
  | .read => queued ≠ []
  | .release fill => queued.head? = some fill
  | _ => True

/-- Whether the worker has seen the stop flag set since it last looked into the ring. -/
def LoopPc.told : LoopPc → Bool
  | .inbox | .final | .flush true _ | .lastSync => true
  | _ => false

/-- What a step leaves in the ring. -/
def LoopPc.remaining : LoopPc → List Fill → List Fill
  | .release _, queued => queued.tail
  | _, queued => queued

namespace DurabilityPipeline

/-- The worker is over: the store got a part of what the journal got, and the journal a part of what was popped. -/
def Ended (older : List FillRecord) (kept : List Fill) (s : DurabilityPipeline) (taken : List Fill) : Prop :=
  ∃ journaled new, records s.config.journalPath s.journalFile = older ++ journaled.map Fill.record ∧
    new <+: journaled ∧ journaled <+: taken ∧ s.persisted = new.length ∧
    (s.committed = kept ++ new ∨ s.committed = [] ∧ new = [])

def Synced (s : DurabilityPipeline) : Prop :=
  TradeStore.load s.config.storePath s.storeFile = .ok (TradeStore.rebuildIndex s.config.storePath s.committed)

/-- Nothing has been taken from the ring or read from the store. -/
def Fresh (kept : List Fill) (s : DurabilityPipeline) (taken : List Fill) : Prop :=
  taken = [] ∧ s.committed = [] ∧ s.persisted = 0 ∧ s.error = "" ∧
    ∀ store, TradeStore.load s.config.storePath s.storeFile = .ok store → store.trades = kept

/-- The books of the worker, wherever it is. The older records are those that opening the journal leaves in its file. -/
def Flow (older : List FillRecord) (kept : List Fill) (s : DurabilityPipeline) (taken : List Fill) : Prop :=
  match s.worker with
  | none | some .openJournal => s.Fresh kept taken ∧ records s.config.journalPath
      (FillJournal.create s.config.journalPath s.config.journalCapacity s.journalFile).1 = older
  | some (.openStore journal) => s.Fresh kept taken ∧ journal.Keeps older [] ∧ s.journalFile = some journal.file ∧
      journal.path = s.config.journalPath ∧ journal.capacity = s.config.journalCapacity ∧
      journal.fileBytes = 24 + s.config.journalCapacity * 40
  | some (.reserve journal store) => taken = [] ∧ s.committed = store.trades ∧ s.persisted = 0 ∧ s.error = "" ∧
      s.journalFile = some journal.file ∧ Frame.Opened ⟨journal, store, []⟩ s.config ∧
      Frame.Books older kept ⟨journal, store, []⟩ [] []
  | some (.loop frame pc) => frame.Opened s.config ∧ s.journalFile = some frame.journal.file ∧
      s.committed = frame.store.trades ∧ s.error = "" ∧ pc.Flow older kept frame taken s.persisted
  | some (.raise what) => s.Ended older kept taken ∧ s.error = "" ∧ what ≠ ""
  | some .halt => s.Ended older kept taken ∧ s.error ≠ ""
  | some .finished => s.Ended older kept taken ∧ (s.error = "" →
      records s.config.journalPath s.journalFile = older ++ taken.map Fill.record ∧ s.committed = kept ++ taken ∧
      s.persisted = taken.length)
  | some .crashed => s.Ended older kept taken

def remaining (s : DurabilityPipeline) (queued : List Fill) : List Fill :=
  match s.worker with
  | some (.loop _ pc) => pc.remaining queued
  | _ => queued

def Aware (s : DurabilityPipeline) (queued : List Fill) : Prop :=
  match s.worker with
  | some (.loop _ pc) => pc.Aware queued ∧ (pc.told = true → s.stop = true)
  | _ => True

/-- The accepted fills, shared out between those taken by the worker and those in the ring. -/
structure Tracks (older : List FillRecord) (kept : List Fill) (s : DurabilityPipeline)
    (accepted taken queued : List Fill) : Prop where
  split : accepted = taken ++ queued
  ring : s.ring.Carries queued
  flow : s.Flow older kept taken
  aware : s.Aware queued

variable {older : List FillRecord} {kept : List Fill} {s s' : DurabilityPipeline} {accepted taken queued : List Fill}
  {frame : Frame} {pc : LoopPc} {io : Io}

theorem Tracks.enter (split : accepted = taken ++ queued) (ring : s.ring.Carries queued) (opened : frame.Opened s.config)
    (quiet : s.error = "") (flow : pc.Flow older kept frame taken s.persisted) (aware : pc.Aware queued)
    (told : pc.told = true → s.stop = true) : (s.enter frame pc).Tracks older kept accepted taken queued :=
  ⟨split, ring, ⟨opened, rfl, rfl, quiet, flow⟩, aware, told⟩

theorem Tracks.fails {failure : Failure} (split : accepted = taken ++ queued) (ring : s.ring.Carries queued)
    (ended : s.Ended older kept taken) (quiet : s.error = "") (named : failure.Named) :
    (s.fails failure).Tracks older kept accepted taken queued := by
  cases failure with
  | thrown what => exact ⟨split, ring, ⟨ended, quiet, named⟩, trivial⟩
  | fault => exact ⟨split, ring, ended, trivial⟩

theorem ended_of_books {new part : List Fill} (books : frame.Books older kept new part)
    (file : s.journalFile = some frame.journal.file) (committed : s.committed = frame.store.trades)
    (counted : s.persisted = new.length) (ahead : new ++ part <+: taken) : s.Ended older kept taken := by
  refine ⟨new ++ part, new, ?_, List.prefix_append _ _, ahead, counted, Or.inl (committed.trans books.trades)⟩
  rw [file]
  exact books.journal.records _

/-- A flush keeps the books: the journal is ahead of the store by a part of the batch, and then the store follows. -/
theorem Tracks.flush {last : Bool} {pc : FlushPc} (tracks : s.Tracks older kept accepted taken queued)
    (here : s.worker = some (.loop frame (.flush last pc))) :
    (s.flushStep frame last io pc).Tracks older kept accepted taken queued := by
  have flow := tracks.flow
  have aware := tracks.aware
  unfold Flow at flow
  unfold Aware at aware
  rw [here] at flow aware
  obtain ⟨opened, file, committed, quiet, flow⟩ := flow
  obtain ⟨_, told⟩ := aware
  have stays : ∀ pc' : FlushPc, (LoopPc.flush last pc').told = true → s.stop = true := by
    intro pc'
    cases last with
    | true => exact told
    | false => intro never; cases never
  cases pc with
  | record done =>
    obtain ⟨new, all, counted, books⟩ := flow
    unfold flushStep
    dsimp only
    cases next : frame.batch[done]? with
    | none =>
      rw [List.take_of_length_le (List.getElem?_eq_none_iff.mp next)] at books
      exact Tracks.enter tracks.split tracks.ring opened quiet ⟨new, all, counted, books⟩ trivial (stays _)
    | some fill =>
      dsimp only
      rcases books.journal.storeRecord fill with ⟨failure, named, result⟩ | ⟨bytes, base, same, result, stored⟩
      · have behind : new ++ frame.batch.take done <+: taken := by
          rw [all]
          exact (List.prefix_append_right_inj _).mpr (List.take_prefix _ _)
        rw [result]
        exact Tracks.fails tracks.split tracks.ring (ended_of_books books file committed counted behind) quiet named
      · rw [result]
        exact Tracks.enter tracks.split tracks.ring ⟨opened.path, opened.capacity, opened.size, opened.store⟩ quiet
          ⟨new, all, counted, books.trades, fill, base, next, same, stored, rfl⟩ trivial (stays _)
  | counter done idx =>
    obtain ⟨new, all, counted, trades, fill, base, next, same, stored, index⟩ := flow
    obtain ⟨bytes, result, holds⟩ := stored.storeCount
    unfold flushStep
    dsimp only
    rw [index, result]
    refine Tracks.enter tracks.split tracks.ring ⟨opened.path, opened.capacity, opened.size, opened.store⟩ quiet
      ⟨new, all, counted, trades, Or.inl ⟨base, same, ?_⟩⟩ trivial (stays _)
    rw [List.take_add_one, next, Option.toList_some, ← List.append_assoc new, ← List.append_assoc base]
    exact holds
  | sync =>
    obtain ⟨new, all, counted, books⟩ := flow
    unfold flushStep
    dsimp only
    split
    · have stopped : s.Ended older kept taken := ended_of_books books file committed counted (by rw [all])
      exact Tracks.fails tracks.split tracks.ring stopped quiet unsynced_named
    · exact Tracks.enter tracks.split tracks.ring opened quiet ⟨new, all, counted, books⟩ trivial (stays _)
  | insert =>
    obtain ⟨new, all, counted, books⟩ := flow
    unfold flushStep
    dsimp only
    rcases frame.store.insertBatch_object frame.batch io.outcome s.storeFile with
      ⟨bytes, failure, result⟩ | ⟨bytes, result⟩
    · have stopped : s.Ended older kept taken := ended_of_books books file committed counted (by rw [all])
      rw [result]
      exact Tracks.fails (s := { s with storeFile := bytes }) tracks.split tracks.ring stopped quiet
        (TradeStore.insertBatch_named result)
    · rw [result]
      refine Tracks.enter tracks.split tracks.ring ⟨opened.path, opened.capacity, opened.size, opened.store⟩ quiet
        ⟨?_, ?_, ?_⟩ trivial (stays _)
      · change s.persisted + frame.batch.length = taken.length
        rw [counted, all, List.length_append]
      · change frame.store.trades ++ frame.batch = kept ++ taken
        rw [books.trades, all, List.append_assoc]
      · rw [all, List.append_nil]
        exact books.journal
  | count =>
    obtain ⟨counted, books⟩ := flow
    exact Tracks.enter tracks.split tracks.ring opened quiet ⟨counted, books⟩ trivial (stays _)
  | clear =>
    obtain ⟨counted, trades, journal⟩ := flow
    unfold flushStep
    cases last with
    | true =>
      exact Tracks.enter tracks.split tracks.ring ⟨opened.path, opened.capacity, opened.size, opened.store⟩ quiet
        ⟨counted, trades, journal⟩ trivial told
    | false =>
      exact Tracks.enter tracks.split tracks.ring ⟨opened.path, opened.capacity, opened.size, opened.store⟩ quiet
        ⟨taken, (List.append_nil _).symm, counted, trades, journal⟩ trivial (fun never => by cases never)

/-- One turn of the loop: a fill leaves the ring for the batch, or nothing is taken. -/
theorem Tracks.loop (tracks : s.Tracks older kept accepted taken queued) (here : s.worker = some (.loop frame pc)) :
    ∃ taken', (s.loopStep frame io pc).Tracks older kept accepted taken' (pc.remaining queued) := by
  have flow := tracks.flow
  have aware := tracks.aware
  unfold Flow at flow
  unfold Aware at aware
  rw [here] at flow aware
  obtain ⟨opened, file, committed, quiet, flow⟩ := flow
  obtain ⟨aware, told⟩ := aware
  cases pc with
  | flag =>
    refine ⟨taken, ?_⟩
    unfold loopStep
    dsimp only
    by_cases stop : s.stop = true
    · rw [if_pos stop]
      exact Tracks.enter tracks.split tracks.ring opened quiet flow trivial (fun _ => stop)
    · rw [if_neg stop]
      exact Tracks.enter tracks.split tracks.ring opened quiet flow trivial (fun never => by cases never)
  | inbox =>
    refine ⟨taken, ?_⟩
    unfold loopStep
    dsimp only
    by_cases empty : s.ring.empty = true
    · rw [if_pos empty]
      exact Tracks.enter tracks.split tracks.ring opened quiet flow trivial told
    · rw [if_neg empty]
      exact Tracks.enter tracks.split tracks.ring opened quiet flow trivial (fun never => by cases never)
  | pop =>
    refine ⟨taken, ?_⟩
    unfold loopStep
    dsimp only
    by_cases empty : s.ring.empty = true
    · rw [if_pos empty]
      by_cases none : frame.batch.isEmpty = true
      · rw [if_pos none]
        exact Tracks.enter tracks.split tracks.ring opened quiet flow trivial (fun never => by cases never)
      · rw [if_neg none]
        exact Tracks.enter tracks.split tracks.ring opened quiet flow trivial (fun never => by cases never)
    · rw [if_neg empty]
      have some : queued ≠ [] := fun none => empty (tracks.ring.empty_iff.mpr none)
      exact Tracks.enter tracks.split tracks.ring opened quiet flow some (fun never => by cases never)
  | read =>
    obtain ⟨fill, rest, same⟩ := List.exists_cons_of_ne_nil aware
    subst same
    have loaded := (tracks.ring.queued aware).load
    refine ⟨taken, ?_⟩
    unfold loopStep
    dsimp only
    rw [loaded]
    exact Tracks.enter tracks.split tracks.ring opened quiet flow rfl (fun never => by cases never)
  | release fill =>
    cases queued with
    | nil => cases aware
    | cons first rest =>
      cases aware
      obtain ⟨new, all, counted, trades, journal⟩ := flow
      have queue := (tracks.ring.queued (List.cons_ne_nil _ _)).release
      have split := tracks.split
      have longer : taken ++ [fill] = new ++ (frame.batch ++ [fill]) := by rw [all, List.append_assoc]
      refine ⟨taken ++ [fill], ?_⟩
      rw [← List.singleton_append, ← List.append_assoc] at split
      unfold loopStep
      dsimp only
      split
      · exact Tracks.enter split (Or.inl queue) ⟨opened.path, opened.capacity, opened.size, opened.store⟩ quiet
          ⟨new, longer, counted, trades, journal⟩ trivial (fun never => by cases never)
      · exact Tracks.enter split (Or.inl queue) ⟨opened.path, opened.capacity, opened.size, opened.store⟩ quiet
          ⟨new, longer, counted, trades, journal⟩ trivial (fun never => by cases never)
  | flush last pc => exact ⟨taken, tracks.flush here⟩
  | final =>
    refine ⟨taken, ?_⟩
    unfold loopStep
    dsimp only
    by_cases none : frame.batch.isEmpty = true
    · obtain ⟨new, all, counted, books⟩ := flow
      rw [if_pos none]
      rw [List.isEmpty_iff.mp none, List.append_nil] at all
      subst all
      exact Tracks.enter tracks.split tracks.ring opened quiet ⟨counted, books⟩ trivial told
    · rw [if_neg none]
      exact Tracks.enter tracks.split tracks.ring opened quiet flow trivial told
  | lastSync =>
    obtain ⟨counted, books⟩ := flow
    have listed : records s.config.journalPath s.journalFile = older ++ taken.map Fill.record := by
      have keeps := books.journal.records s.config.journalPath
      rw [List.append_nil] at keeps
      rw [file, keeps]
    have stopped : s.Ended older kept taken := ended_of_books books file committed counted (by rw [List.append_nil])
    refine ⟨taken, ?_⟩
    unfold loopStep
    dsimp only
    split
    · exact Tracks.fails tracks.split tracks.ring stopped quiet unsynced_named
    · exact ⟨tracks.split, tracks.ring, ⟨stopped, fun _ => ⟨listed, committed.trans books.trades, counted⟩⟩, trivial⟩

theorem Tracks.work (tracks : s.Tracks older kept accepted taken queued) (moved : s.work io = some s') :
    ∃ taken', s'.Tracks older kept accepted taken' (s.remaining queued) := by
  have flow := tracks.flow
  unfold Flow at flow
  unfold remaining
  unfold DurabilityPipeline.work at moved
  cases here : s.worker with
  | none =>
    rw [here] at moved
    cases moved
  | some worker =>
    rw [here] at moved flow
    cases worker with
    | openJournal =>
      obtain ⟨fresh, left⟩ := flow
      refine ⟨taken, ?_⟩
      dsimp only at moved
      rcases created : FillJournal.create s.config.journalPath s.config.journalCapacity s.journalFile with
        ⟨file, failure | journal⟩
      · obtain ⟨_, committed, persisted, quiet, _⟩ := fresh
        rw [created] at moved left
        cases moved
        refine Tracks.fails (s := { s with journalFile := file }) tracks.split tracks.ring ?_ quiet (create_named created)
        refine ⟨[], [], ?_, List.prefix_refl _, List.nil_prefix, persisted, Or.inr ⟨committed, rfl⟩⟩
        rw [List.map_nil, List.append_nil]
        exact left
      · rw [created] at moved left
        cases moved
        obtain ⟨same, path, capacity, size, keeps⟩ := create_ok created
        change records s.config.journalPath file = older at left
        rw [left] at keeps
        exact ⟨tracks.split, tracks.ring, ⟨fresh, keeps, same, path, capacity, size⟩, trivial⟩
    | openStore journal =>
      obtain ⟨⟨none, committed, persisted, quiet, shown⟩, keeps, file, path, capacity, size⟩ := flow
      refine ⟨taken, ?_⟩
      dsimp only at moved
      split at moved
      next store loads =>
        cases moved
        obtain ⟨trades, shape⟩ := TradeStore.load_shape loads
        have location : store.path = s.config.storePath := by
          rw [shape]
          rfl
        exact ⟨tracks.split, tracks.ring, ⟨none, rfl, persisted, quiet, file, ⟨path, capacity, size, location⟩,
          (shown store loads).trans (List.append_nil _).symm, keeps⟩, trivial⟩
      next failure refused =>
        cases moved
        refine Tracks.fails tracks.split tracks.ring ?_ quiet (TradeStore.load_named refused)
        refine ⟨[], [], ?_, List.prefix_refl _, List.nil_prefix, persisted, Or.inr ⟨committed, rfl⟩⟩
        rw [file]
        exact keeps.records _
    | reserve journal store =>
      obtain ⟨none, committed, persisted, quiet, file, opened, books⟩ := flow
      refine ⟨taken, ?_⟩
      dsimp only at moved
      by_cases large : maxSize < s.config.batchSize.toNat
      · rw [if_pos large] at moved
        cases moved
        have stopped : s.Ended older kept taken := ended_of_books books file committed persisted List.nil_prefix
        refine Tracks.fails tracks.split tracks.ring stopped quiet ?_
        change lengthError ≠ ""
        decide
      · rw [if_neg large] at moved
        cases moved
        exact Tracks.enter tracks.split tracks.ring opened quiet ⟨[], none, persisted, books⟩ trivial
          (fun never => by cases never)
    | loop frame pc =>
      cases moved
      exact tracks.loop here
    | raise what =>
      cases moved
      exact ⟨taken, tracks.split, tracks.ring, ⟨flow.1, flow.2.2⟩, trivial⟩
    | halt =>
      cases moved
      exact ⟨taken, tracks.split, tracks.ring, ⟨flow.1, fun silent => absurd silent flow.2⟩, trivial⟩
    | finished => cases moved
    | crashed => cases moved

@[simp] theorem fails_config (s : DurabilityPipeline) (failure : Failure) : (s.fails failure).config = s.config := by
  cases failure <;> rfl

@[simp] theorem fails_journalFile (s : DurabilityPipeline) (failure : Failure) :
    (s.fails failure).journalFile = s.journalFile := by
  cases failure <;> rfl

@[simp] theorem fails_storeFile (s : DurabilityPipeline) (failure : Failure) :
    (s.fails failure).storeFile = s.storeFile := by
  cases failure <;> rfl

@[simp] theorem fails_committed (s : DurabilityPipeline) (failure : Failure) :
    (s.fails failure).committed = s.committed := by
  cases failure <;> rfl

def Unopened (s : DurabilityPipeline) : Prop :=
  match s.worker with
  | none | some .openJournal => True
  | _ => False

/-- What the other threads see of a step of the worker. -/
structure Worked (s s' : DurabilityPipeline) : Prop where
  config : s'.config = s.config
  ring : s'.ring = s.ring ∨ (∃ frame fill, s.worker = some (.loop frame (.release fill))) ∧ s'.ring = s.ring.release
  stop : s'.stop = s.stop ∨ s.worker = some .halt ∧ s'.stop = true
  error : s'.error = s.error ∨ ∃ what, s.worker = some (.raise what) ∧ s'.error = what
  opened : ¬s'.Unopened

theorem worked_enter (s : DurabilityPipeline) (persisted : Nat) (storeFile : Option (List UInt8)) (frame : Frame)
    (pc : LoopPc) :
    Worked s (({ s with persisted := persisted, storeFile := storeFile } : DurabilityPipeline).enter frame pc) :=
  ⟨rfl, Or.inl rfl, Or.inl rfl, Or.inl rfl, fun never => never⟩

theorem worked_fails (s : DurabilityPipeline) (journalFile storeFile : Option (List UInt8)) (failure : Failure) :
    Worked s (({ s with journalFile := journalFile, storeFile := storeFile } : DurabilityPipeline).fails failure) := by
  cases failure <;> exact ⟨rfl, Or.inl rfl, Or.inl rfl, Or.inl rfl, fun never => never⟩

theorem flushStep_worked (s : DurabilityPipeline) (frame : Frame) (last : Bool) (io : Io) (pc : FlushPc) :
    Worked s (s.flushStep frame last io pc) := by
  unfold flushStep
  split
  · split
    · exact worked_enter s _ _ _ _
    split
    · exact worked_enter s _ _ _ _
    · exact worked_fails s _ _ _
  · split
    · exact worked_enter s _ _ _ _
    · exact worked_fails s _ _ _
  · split
    · exact worked_fails s _ _ _
    · exact worked_enter s _ _ _ _
  · split
    · exact worked_enter s _ _ _ _
    · exact worked_fails s _ _ _
  · exact worked_enter s _ _ _ _
  · exact worked_enter s _ _ _ _

theorem loopStep_worked (here : s.worker = some (.loop frame pc)) : Worked s (s.loopStep frame io pc) := by
  cases pc with
  | flag => exact worked_enter s _ _ _ _
  | inbox => exact worked_enter s _ _ _ _
  | pop =>
    unfold loopStep
    dsimp only
    split <;> exact worked_enter s _ _ _ _
  | read =>
    unfold loopStep
    dsimp only
    split
    · exact worked_fails s _ _ _
    · exact worked_enter s _ _ _ _
  | release fill => exact ⟨rfl, Or.inr ⟨⟨frame, fill, here⟩, rfl⟩, Or.inl rfl, Or.inl rfl, fun never => never⟩
  | flush last pc => exact flushStep_worked s frame last io pc
  | final => exact worked_enter s _ _ _ _
  | lastSync =>
    unfold loopStep
    dsimp only
    split
    · exact worked_fails s _ _ _
    · exact ⟨rfl, Or.inl rfl, Or.inl rfl, Or.inl rfl, fun never => never⟩

theorem work_worked (moved : s.work io = some s') : Worked s s' := by
  unfold DurabilityPipeline.work at moved
  split at moved
  · cases moved
  · split at moved <;> cases moved
    · exact ⟨rfl, Or.inl rfl, Or.inl rfl, Or.inl rfl, fun never => never⟩
    · exact worked_fails s _ _ _
  · split at moved <;> cases moved
    · exact ⟨rfl, Or.inl rfl, Or.inl rfl, Or.inl rfl, fun never => never⟩
    · exact worked_fails s _ _ _
  · split at moved <;> cases moved
    · exact worked_fails s _ _ _
    · exact worked_enter s _ _ _ _
  next frame pc here =>
    cases moved
    exact loopStep_worked here
  next what here =>
    cases moved
    exact ⟨rfl, Or.inl rfl, Or.inl rfl, Or.inr ⟨what, here, rfl⟩, fun never => never⟩
  next here =>
    cases moved
    exact ⟨rfl, Or.inl rfl, Or.inr ⟨here, rfl⟩, Or.inl rfl, fun never => never⟩
  · cases moved
  · cases moved

end DurabilityPipeline

end ChronoBook
