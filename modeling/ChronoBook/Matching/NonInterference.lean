import ChronoBook.Matching.Conservation

/-! Priority as non-interference. Two books that differ by one order, standing
behind a given one on its side, cannot be told apart while the given one rests:
whatever reaches the later order has first gone through the earlier one. -/

namespace ChronoBook
open Library Priority

section Sweep
variable {accepts : UInt32 → Bool} {fillOf : Resting → UInt32 → Fill}

/-- A sweep reaches the second part of a list only if it uses up the first. -/
theorem sweep_append (left : UInt32) (front back : List Resting) :
    sweep accepts fillOf left (front ++ back) =
      if (sweep accepts fillOf left front).rest = [] then
        ⟨(sweep accepts fillOf left front).fills ++
            (sweep accepts fillOf (sweep accepts fillOf left front).left back).fills,
          (sweep accepts fillOf (sweep accepts fillOf left front).left back).left,
          (sweep accepts fillOf (sweep accepts fillOf left front).left back).rest⟩
      else
        ⟨(sweep accepts fillOf left front).fills, (sweep accepts fillOf left front).left,
          (sweep accepts fillOf left front).rest ++ back⟩ := by
  induction front generalizing left with
  | nil => rfl
  | cons maker makers ih =>
    rw [List.cons_append, sweep, sweep]
    by_cases stop : left = 0 ∨ accepts maker.price = false
    · rw [if_pos stop, if_pos stop, if_neg (List.cons_ne_nil _ _)]
      rfl
    · rw [if_neg stop, if_neg stop]
      by_cases covered : maker.remainingQty ≤ left
      · rw [if_pos covered, if_pos covered]
        dsimp only
        rw [ih]
        split <;> rfl
      · rw [if_neg covered, if_neg covered, if_neg (List.cons_ne_nil _ _)]
        rfl

theorem sweep_silent {left : UInt32} {makers : List Resting} (silent : (sweep accepts fillOf left makers).fills = []) :
    sweep accepts fillOf left makers = ⟨[], left, makers⟩ := by
  cases makers with
  | nil => rfl
  | cons maker makers =>
    unfold sweep at silent ⊢
    split at silent
    next stop => exact if_pos stop
    · split at silent <;> cases silent

theorem sweep_rest_ids {left : UInt32} {makers : List Resting} {id : UInt64}
    (absent : ∀ maker ∈ makers, maker.orderId ≠ id) :
    ∀ maker ∈ (sweep accepts fillOf left makers).rest, maker.orderId ≠ id := by
  intro maker inside
  have subset := (sweep_rest_sublist Resting.orderId (fun _ _ => rfl) left makers).subset
    (List.mem_map_of_mem (f := Resting.orderId) inside)
  obtain ⟨old, there, same⟩ := List.mem_map.mp subset
  rw [← same]
  exact absent old there

end Sweep

theorem sweep_names_none {accepts : UInt32 → Bool} {taker : Resting} {seq : UInt64} {left : UInt32}
    {makers : List Resting} {id : UInt64} (other : taker.orderId ≠ id) (absent : ∀ maker ∈ makers, maker.orderId ≠ id) :
    (sweep accepts (fun maker => maker.fillBy taker seq) left makers).fills.filter (fun fill => fill.names id) = [] := by
  rw [List.filter_eq_nil_iff]
  intro fill inside named
  obtain ⟨maker, there, qty, same⟩ := sweep_fill_of fill inside
  rw [Fill.names_iff fill taker.side] at named
  rcases named with took | made
  · rw [same, maker.fillBy_takerOf] at took
    exact other took
  · rw [same, maker.fillBy_makerOf] at made
    exact absent maker there made

/-- The first book holds one order more, behind the order with the id `ahead` on its side. -/
structure Behind (ahead : UInt64) (late : Resting) (side : Side) (crowded plain : Ladder) : Prop where
  opposite : crowded side.opposite = plain side.opposite
  placed : ∃ front back, plain side = front ++ back ∧ crowded side = front ++ late :: back ∧
    ∃ order ∈ front, order.orderId = ahead

namespace Behind

variable {ahead : UInt64} {late : Resting} {side : Side} {crowded plain : Ladder}

theorem ahead_rests (behind : Behind ahead late side crowded plain) :
    crowded.find? ahead ≠ none ∧ plain.find? ahead ≠ none := by
  obtain ⟨front, back, plainSide, crowdedSide, order, inside, named⟩ := behind.placed
  constructor
  · intro absent
    refine Ladder.find?_eq_none.mp absent side order ?_ named
    rw [crowdedSide]
    exact List.mem_append_left _ inside
  · intro absent
    refine Ladder.find?_eq_none.mp absent side order ?_ named
    rw [plainSide]
    exact List.mem_append_left _ inside

theorem find?_eq (behind : Behind ahead late side crowded plain) {id : UInt64} (other : late.orderId ≠ id) :
    crowded.find? id = plain.find? id := by
  obtain ⟨front, back, plainSide, crowdedSide, _⟩ := behind.placed
  have own : (crowded side).find? (fun order => order.orderId = id) =
      (plain side).find? (fun order => order.orderId = id) := by
    rw [plainSide, crowdedSide, List.find?_append, List.find?_append, List.find?_cons_of_neg (by simpa using other)]
  unfold Ladder.find? Ladder.orders
  rw [List.find?_append, List.find?_append]
  cases side with
  | BUY => rw [own, show crowded .SELL = plain .SELL from behind.opposite]
  | SELL => rw [own, show crowded .BUY = plain .BUY from behind.opposite]

theorem remove (behind : Behind ahead late side crowded plain) {id : UInt64} (notAhead : ahead ≠ id)
    (notLate : late.orderId ≠ id) : Behind ahead late side (crowded.remove id) (plain.remove id) := by
  obtain ⟨front, back, plainSide, crowdedSide, order, inside, named⟩ := behind.placed
  refine ⟨?_, front.filter (fun order => order.orderId ≠ id), back.filter (fun order => order.orderId ≠ id),
    ?_, ?_, order, ?_, named⟩
  · unfold Ladder.remove
    rw [behind.opposite]
  · unfold Ladder.remove
    rw [plainSide, List.filter_append]
  · unfold Ladder.remove
    rw [crowdedSide, List.filter_append, List.filter_cons_of_pos (by simpa using notLate)]
  · rw [List.mem_filter, decide_eq_true_eq, named]
    exact ⟨inside, notAhead⟩

theorem cleared (behind : Behind ahead late side crowded plain) {m : FeedMessage}
    (kept : m.msgType = MsgType.ADD.byte ∨ ahead ≠ m.orderId) (notLate : late.orderId ≠ m.orderId) :
    Behind ahead late side (crowded.cleared m) (plain.cleared m) := by
  by_cases kind : m.msgType = MsgType.ADD.byte
  · rw [Ladder.cleared_add kind, Ladder.cleared_add kind]
    exact behind
  · rw [Ladder.cleared_of_ne kind, Ladder.cleared_of_ne kind]
    exact behind.remove (kept.resolve_left kind) notLate

theorem incoming_eq (behind : Behind ahead late side crowded plain) {m : FeedMessage}
    (notLate : late.orderId ≠ m.orderId) : crowded.incoming m = plain.incoming m := by
  unfold Ladder.incoming
  rw [behind.find?_eq notLate]

end Behind

/-- What can be seen of the earlier order is the same, and as long as it rests everything is. -/
structure Agree (ahead : UInt64) (late : Resting) (side : Side) (crowded plain : List Fill × Ladder) : Prop where
  named : crowded.1.filter (fun fill => fill.names ahead) = plain.1.filter (fun fill => fill.names ahead)
  rests : crowded.2.find? ahead = none ↔ plain.2.find? ahead = none
  alike : plain.2.find? ahead ≠ none → crowded.1 = plain.1 ∧ Behind ahead late side crowded.2 plain.2

section Enter
variable {ahead : UInt64} {late : Resting} {side : Side} {crowded plain : Ladder} {fills : List Fill}

theorem Agree.still (behind : Behind ahead late side crowded plain) :
    Agree ahead late side (fills, crowded) (fills, plain) where
  named := rfl
  rests := ⟨fun gone => absurd gone behind.ahead_rests.1, fun gone => absurd gone behind.ahead_rests.2⟩
  alike := fun _ => ⟨rfl, behind⟩

theorem Agree.gone {fills' : List Fill}
    (named : fills.filter (fun fill => fill.names ahead) = fills'.filter (fun fill => fill.names ahead))
    (fromCrowded : crowded.find? ahead = none) (fromPlain : plain.find? ahead = none) :
    Agree ahead late side (fills, crowded) (fills', plain) where
  named := named
  rests := ⟨fun _ => fromPlain, fun _ => fromCrowded⟩
  alike := fun rests => absurd fromPlain rests

variable {taker : Resting} (type : OrderType) (seq : UInt64)

/-- A taker on the side of the two orders trades with the other side, and may rest among them. -/
theorem Behind.enter_own (behind : Behind ahead late side crowded plain) (wellFormed : crowded.WellFormed)
    (own : taker.side = side) :
    Agree ahead late side ((crowded.swept taker type seq).fills, crowded.enter taker type seq)
      ((plain.swept taker type seq).fills, plain.enter taker type seq) := by
  subst own
  obtain ⟨front, back, plainSide, crowdedSide, order, inside, named⟩ := behind.placed
  have same : crowded.swept taker type seq = plain.swept taker type seq := by
    unfold Ladder.swept
    rw [behind.opposite]
  have residual : crowded.residual taker type seq = plain.residual taker type seq := by
    unfold Ladder.residual
    rw [same]
  rw [same]
  apply Agree.still
  have opposite : crowded.enter taker type seq taker.side.opposite = plain.enter taker type seq taker.side.opposite := by
    rw [Ladder.enter_opposite, Ladder.enter_opposite, same]
  by_cases stays : (plain.swept taker type seq).left ≠ 0 ∧ type = .LIMIT
  · have ordered := wellFormed.ordered taker.side
    rw [crowdedSide] at ordered
    obtain ⟨front', back', joined, joinedLate, kept⟩ := enqueue_past ordered (plain.residual taker type seq)
    refine ⟨opposite, front', back', ?_, ?_, order, kept order inside, named⟩
    · rw [Ladder.enter_own, if_pos stays, plainSide, joined]
    · rw [Ladder.enter_own, same, residual, if_pos stays, crowdedSide, joinedLate]
  · refine ⟨opposite, front, back, ?_, ?_, order, inside, named⟩
    · rw [Ladder.enter_own, if_neg stays, plainSide]
    · rw [Ladder.enter_own, same, if_neg stays, crowdedSide]

theorem Ladder.find?_enter_none {ladder : Ladder} (other : taker.orderId ≠ ahead)
    (hit : ∀ order ∈ (ladder.swept taker type seq).rest, order.orderId ≠ ahead)
    (own : ∀ order ∈ ladder taker.side, order.orderId ≠ ahead) : (ladder.enter taker type seq).find? ahead = none := by
  rw [Ladder.find?_eq_none]
  intro place order inside
  rcases Ladder.mem_enter inside with kept | old | joined
  · exact hit order kept
  · exact own order old
  · rw [joined]
    exact other

theorem Ladder.swept_through {ladder : Ladder} {front back : List Resting}
    (split : ladder taker.side.opposite = front ++ back)
    (through : (Ladder.swept (fun _ => front) taker type seq).rest = []) :
    ladder.swept taker type seq =
      let later := sweep (Ladder.accepts taker type) (fun maker => maker.fillBy taker seq)
        (Ladder.swept (fun _ => front) taker type seq).left back
      ⟨(Ladder.swept (fun _ => front) taker type seq).fills ++ later.fills, later.left, later.rest⟩ := by
  unfold Ladder.swept at through ⊢
  rw [split, sweep_append, if_pos through]

theorem Ladder.swept_within {ladder : Ladder} {front back : List Resting}
    (split : ladder taker.side.opposite = front ++ back)
    (within : (Ladder.swept (fun _ => front) taker type seq).rest ≠ []) :
    ladder.swept taker type seq = ⟨(Ladder.swept (fun _ => front) taker type seq).fills,
      (Ladder.swept (fun _ => front) taker type seq).left,
      (Ladder.swept (fun _ => front) taker type seq).rest ++ back⟩ := by
  unfold Ladder.swept at within ⊢
  rw [split, sweep_append, if_neg within]

/-- A taker from the other side reaches the later order only through the earlier one. -/
theorem Behind.enter_opposite (behind : Behind ahead late side crowded plain) (wellFormed : crowded.WellFormed)
    (across : taker.side.opposite = side) (other : taker.orderId ≠ ahead) :
    Agree ahead late side ((crowded.swept taker type seq).fills, crowded.enter taker type seq)
      ((plain.swept taker type seq).fills, plain.enter taker type seq) := by
  subst across
  obtain ⟨front, back, plainSide, crowdedSide, order, inside, named⟩ := behind.placed
  have ownSide : crowded taker.side = plain taker.side := by
    have same := behind.opposite
    rwa [Side.opposite_opposite] at same
  have distinct := wellFormed.distinct taker.side.opposite
  rw [crowdedSide, List.map_append, List.nodup_append] at distinct
  have later : ∀ maker ∈ late :: back, maker.orderId ≠ ahead := by
    intro maker there same
    exact distinct.2.2 _ (List.mem_map_of_mem inside) _ (List.mem_map_of_mem there) (named.trans same.symm)
  have ownAbsent : ∀ maker ∈ crowded taker.side, maker.orderId ≠ ahead := by
    intro maker there same
    have apart := wellFormed.apart taker.side maker there order (by
      rw [crowdedSide]
      exact List.mem_append_left _ inside)
    exact apart (same.trans named.symm)
  have plainLater : ∀ maker ∈ back, maker.orderId ≠ ahead :=
    fun maker there => later maker (List.mem_cons_of_mem _ there)
  have plainAbsent : ∀ maker ∈ plain taker.side, maker.orderId ≠ ahead := ownSide ▸ ownAbsent
  by_cases through : (Ladder.swept (fun _ => front) taker type seq).rest = []
  · have crowdedSwept := Ladder.swept_through type seq crowdedSide through
    have plainSwept := Ladder.swept_through type seq plainSide through
    apply Agree.gone
    · rw [crowdedSwept, plainSwept, List.filter_append, List.filter_append, sweep_names_none other later,
        sweep_names_none other plainLater]
    · apply Ladder.find?_enter_none type seq other _ ownAbsent
      rw [crowdedSwept]
      exact sweep_rest_ids later
    · apply Ladder.find?_enter_none type seq other _ plainAbsent
      rw [plainSwept]
      exact sweep_rest_ids plainLater
  · have crowdedSwept := Ladder.swept_within type seq crowdedSide through
    have plainSwept := Ladder.swept_within type seq plainSide through
    have sameFills : (crowded.swept taker type seq).fills = (plain.swept taker type seq).fills := by
      rw [crowdedSwept, plainSwept]
    rw [sameFills]
    by_cases remains : ∃ kept ∈ (Ladder.swept (fun _ => front) taker type seq).rest, kept.orderId = ahead
    · obtain ⟨kept, there, keptId⟩ := remains
      apply Agree.still
      have sameLeft : (crowded.swept taker type seq).left = (plain.swept taker type seq).left := by
        rw [crowdedSwept, plainSwept]
      have residual : crowded.residual taker type seq = plain.residual taker type seq := by
        unfold Ladder.residual
        rw [sameLeft]
      refine ⟨?_, (Ladder.swept (fun _ => front) taker type seq).rest, back, ?_, ?_, kept, there, keptId⟩
      · rw [Side.opposite_opposite, Ladder.enter_own, Ladder.enter_own, sameLeft, residual, ownSide]
      · rw [Ladder.enter_opposite, plainSwept]
      · rw [Ladder.enter_opposite, crowdedSwept]
    · have absent : ∀ maker ∈ (Ladder.swept (fun _ => front) taker type seq).rest, maker.orderId ≠ ahead :=
        fun maker there same => remains ⟨maker, there, same⟩
      apply Agree.gone rfl
      · apply Ladder.find?_enter_none type seq other _ ownAbsent
        rw [crowdedSwept]
        intro maker there
        exact (List.mem_append.mp there).elim (absent maker) (later maker)
      · apply Ladder.find?_enter_none type seq other _ plainAbsent
        rw [plainSwept]
        intro maker there
        exact (List.mem_append.mp there).elim (absent maker) (plainLater maker)

end Enter

theorem Behind.apply {ahead : UInt64} {late : Resting} {side : Side} {crowded plain : Ladder}
    (behind : Behind ahead late side crowded plain) (wellFormed : crowded.WellFormed) {m : FeedMessage}
    (valid : isValidFeedMessage m = true) (notLate : late.orderId ≠ m.orderId)
    (noModify : ¬(m.msgType = MsgType.MODIFY.byte ∧ m.orderId = ahead)) :
    Agree ahead late side (crowded.apply m) (plain.apply m) := by
  have sameIncoming := behind.incoming_eq notLate
  by_cases kept : m.msgType = MsgType.ADD.byte ∨ ahead ≠ m.orderId
  · have cleared := behind.cleared kept notLate
    cases brings : plain.incoming m with
    | none =>
      rw [Ladder.apply_none brings, Ladder.apply_none (sameIncoming.trans brings)]
      exact Agree.still cleared
    | some order =>
      obtain ⟨taker, type⟩ := order
      have crowdedBrings := sameIncoming.trans brings
      rw [Ladder.apply_some brings, Ladder.apply_some crowdedBrings]
      rcases Side.eq_or_opposite side taker.side with own | across
      · exact cleared.enter_own type m.sequence (wellFormed.cleared m) own
      · obtain ⟨_, _, _, _, _, _, absent⟩ := Ladder.incoming_spec valid crowdedBrings
        have other : taker.orderId ≠ ahead := by
          intro same
          exact cleared.ahead_rests.1 (Ladder.find?_eq_none.mpr (same ▸ absent))
        apply cleared.enter_opposite type m.sequence (wellFormed.cleared m) _ other
        rw [across, Side.opposite_opposite]
  · -- the message cancels the earlier order
    obtain ⟨notAdd, target⟩ := not_or.mp kept
    have target := (not_not.mp target).symm
    have cancels : m.msgType = MsgType.CANCEL.byte := by
      cases accepted_of_valid valid with
      | add kind => exact absurd kind notAdd
      | cancel kind => exact kind
      | modify kind => exact absurd ⟨kind, target⟩ noModify
    have gone : ∀ ladder : Ladder, (ladder.apply m) = ([], ladder.remove m.orderId) ∧
        (ladder.remove m.orderId).find? ahead = none := by
      intro ladder
      constructor
      · rw [Ladder.apply_none (Ladder.incoming_cancel cancels), Ladder.cleared_of_ne notAdd]
      · rw [Ladder.find?_eq_none, ← target]
        intro place order inside
        exact (Ladder.mem_remove.mp inside).2
    rw [(gone crowded).1, (gone plain).1]
    exact Agree.gone rfl (gone crowded).2 (gone plain).2

/-- The ADD of the later order, if it trades nothing. -/
theorem Behind.of_add {ladder : Ladder} (wellFormed : ladder.WellFormed) {ahead : Resting} {m : FeedMessage}
    (rests : ladder.find? ahead.orderId = some ahead) (valid : isValidFeedMessage m = true)
    (kind : m.msgType = MsgType.ADD.byte) (limit : OrderType.ofByte m.orderType = .LIMIT)
    (fresh : ladder.find? m.orderId = none) (sameSide : Side.ofByte m.side = ahead.side)
    (noBetter : ¬ahead.side.Ahead m.price ahead.price) (silent : (ladder.apply m).1 = []) :
    Behind ahead.orderId m.taker ahead.side (ladder.apply m).2 ladder := by
  have brings := Ladder.incoming_add kind fresh
  rw [limit] at brings
  rw [Ladder.apply_some brings, Ladder.cleared_add kind] at silent ⊢
  have stopped : ladder.swept m.taker .LIMIT m.sequence = ⟨[], m.taker.remainingQty, ladder m.taker.side.opposite⟩ :=
    sweep_silent silent
  have whole : m.taker.remainingQty = m.qty := by
    rw [← UInt32.toNat_inj, Resting.remainingQty_toNat]
    exact Nat.sub_zero _
  have units : m.taker.remainingQty ≠ 0 := by
    rw [whole]
    obtain ⟨_, _, _, positive, _⟩ := Ladder.incoming_spec valid brings
    exact positive
  have residual : ladder.residual m.taker .LIMIT m.sequence = m.taker := by
    unfold Ladder.residual
    rw [stopped]
    dsimp only
    rw [whole]
    change ({ m.taker with filledQty := m.qty - m.qty } : Resting) = m.taker
    rw [UInt32.sub_self]
    rfl
  obtain ⟨⟨place, inside⟩, _⟩ := Ladder.mem_of_find? rests
  have home := wellFormed.sided place ahead inside
  rw [← home, ← sameSide] at inside
  obtain ⟨front, back, split, joined, _, behind⟩ := enqueue_split (wellFormed.ordered (Side.ofByte m.side)) m.taker
  have inFront : ahead ∈ front := by
    rw [split] at inside
    exact (List.mem_append.mp inside).resolve_right (fun inBack => noBetter (sameSide ▸ behind ahead inBack))
  rw [← sameSide] at noBetter ⊢
  refine ⟨?_, front, back, split, ?_, ahead, inFront, rfl⟩
  · exact (Ladder.enter_opposite ladder m.taker .LIMIT m.sequence).trans (congrArg Sweep.rest stopped)
  · refine (Ladder.enter_own ladder m.taker .LIMIT m.sequence).trans ?_
    rw [residual, stopped, if_pos ⟨units, rfl⟩]
    exact joined

/-- Two runs of the same messages: as long as an order rests the fills of every message are the same, and up to the
message at which it leaves the fills that name it are. -/
def Alike (ahead : UInt64) : List Delivery → List Delivery → Prop
  | [], [] => True
  | first :: rest, second :: others =>
      first.message = second.message ∧
      first.fills.filter (fun fill => fill.names ahead) = second.fills.filter (fun fill => fill.names ahead) ∧
      first.after.holds ahead = second.after.holds ahead ∧
      (second.after.holds ahead = true → first.fills = second.fills ∧ Alike ahead rest others)
  | _, _ => False

namespace MatchingEngine

theorem Sound.holds_iff {engine : MatchingEngine} {queues : Queues} {free others : List Slot}
    (sound : engine.Sound queues free others) (id : UInt64) :
    engine.holds id = true ↔ (engine.ladder queues).find? id ≠ none := by
  unfold holds
  rw [sound.listing_ladder, Option.isSome_iff_ne_none]

theorem alike_runs {ahead : UInt64} {late : Resting} {side : Side} {others others' : List Slot}
    (messages : List FeedMessage) :
    ∀ {crowded plain : MatchingEngine} {queues queues' : Queues} {free free' : List Slot},
      crowded.Idle queues free others → plain.Idle queues' free' others' →
      Behind ahead late side (crowded.ladder queues) (plain.ladder queues') →
      (∀ m ∈ messages, isValidFeedMessage m = true ∧ late.orderId ≠ m.orderId ∧
        ¬(m.msgType = MsgType.MODIFY.byte ∧ m.orderId = ahead)) →
      crowded.PoolSuffices messages → plain.PoolSuffices messages →
      ∃ first second, crowded.deliveries messages = some first ∧ plain.deliveries messages = some second ∧
        Alike ahead first second := by
  induction messages with
  | nil =>
    intro crowded plain queues queues' free free' _ _ _ _ _ _
    exact ⟨[], [], rfl, rfl, trivial⟩
  | cons m later ih =>
    intro crowded plain queues queues' free free' idle idle' behind allowed room room'
    obtain ⟨valid, notLate, noModify⟩ := allowed m List.mem_cons_self
    have agree := behind.apply idle.steady.wellFormed valid notLate noModify
    rcases idle.deliver m with ⟨ignored, _⟩ | ⟨_, _, crowded₁, queues₁, free₁, result, delivered⟩
    · exact absurd ignored (idle.taken valid (room.head valid))
    rcases idle'.deliver m with ⟨ignored, _⟩ | ⟨_, _, plain₁, queues₁', free₁', result', delivered'⟩
    · exact absurd ignored (idle'.taken valid (room'.head valid))
    have rests := agree.rests
    have alike := agree.alike
    rw [← delivered.ladder, ← delivered'.ladder] at rests alike
    have sameHolds : crowded₁.holds ahead = plain₁.holds ahead := by
      rw [Bool.eq_iff_iff, delivered.idle.steady.sound.holds_iff, delivered'.idle.steady.sound.holds_iff]
      exact not_congr rests
    by_cases still : plain₁.holds ahead = true
    · obtain ⟨sameFills, behind'⟩ := alike ((delivered'.idle.steady.sound.holds_iff ahead).mp still)
      obtain ⟨first, second, ran, ran', rest⟩ := ih delivered.idle delivered'.idle behind'
        (fun n inside => allowed n (List.mem_cons_of_mem _ inside)) (room.tail result) (room'.tail result')
      exact ⟨_, _, deliveries_cons result ran, deliveries_cons result' ran', rfl, agree.named, sameHolds,
        fun _ => ⟨sameFills, rest⟩⟩
    · obtain ⟨first, _, ran, _⟩ := Idle.kept later delivered.idle
      obtain ⟨second, _, ran', _⟩ := Idle.kept later delivered'.idle
      exact ⟨_, _, deliveries_cons result ran, deliveries_cons result' ran', rfl, agree.named, sameHolds,
        fun rests' => absurd rests' still⟩

end MatchingEngine

open MatchingEngine in
/-- An order that joins behind another one, and trades nothing when it arrives, changes nothing for the other one and
nothing at all as long as the other one rests. -/
theorem priority_noninterference (capacity : Nat) (history : List FeedMessage) (emitted : List Fill)
    (engine : MatchingEngine) (reached : (MatchingEngine.create capacity).feed history = some (emitted, engine))
    (ahead : Resting) (rests : Ladder.find? engine.listing ahead.orderId = some ahead) (late : FeedMessage)
    (valid : isValidFeedMessage late = true) (kind : late.msgType = MsgType.ADD.byte)
    (limit : OrderType.ofByte late.orderType = .LIMIT) (fresh : Ladder.find? engine.listing late.orderId = none)
    (sameSide : Side.ofByte late.side = ahead.side) (noBetter : ¬ahead.side.Ahead late.price ahead.price)
    (crowded : MatchingEngine) (silent : engine.deliver late = some ([], crowded)) (messages : List FeedMessage)
    (allowed : ∀ m ∈ messages, isValidFeedMessage m = true ∧ m.orderId ≠ late.orderId ∧
      ¬(m.msgType = MsgType.MODIFY.byte ∧ m.orderId = ahead.orderId))
    (room : engine.PoolSuffices (late :: messages)) (roomWithout : engine.PoolSuffices messages) :
    ∃ first second, crowded.deliveries messages = some first ∧ engine.deliveries messages = some second ∧
      Alike ahead.orderId first second := by
  obtain ⟨_, reached', queues, free, ran, idle, _⟩ := Idle.feed history (Idle.create capacity)
  rw [reached] at ran
  cases ran
  rw [idle.steady.sound.listing_ladder] at rests fresh
  rcases idle.deliver late with ⟨ignored, _⟩ | ⟨_, _, crowded', queues', free', result, delivered⟩
  · exact absurd ignored (idle.taken valid (room.head valid))
  rw [silent] at result
  obtain ⟨nothing, same⟩ := Prod.mk.inj (Option.some.inj result)
  subst same
  have behind := Behind.of_add idle.steady.wellFormed rests valid kind limit fresh sameSide noBetter nothing.symm
  rw [← delivered.ladder] at behind
  apply alike_runs messages delivered.idle idle behind _ (room.tail silent) roomWithout
  intro m inside
  obtain ⟨accepted, other, noModify⟩ := allowed m inside
  exact ⟨accepted, Ne.symm other, noModify⟩

open MatchingEngine in
theorem priority_noninterference_sample : ∃ engine crowded first second,
    (MatchingEngine.create 3).feed [makeAdd 1 1 .SELL .LIMIT 100 5 7] = some ([], engine) ∧
      engine.deliver (makeAdd 2 2 .SELL .LIMIT 100 5 7) = some ([], crowded) ∧
      crowded.deliveries [makeAdd 3 3 .BUY .LIMIT 101 8 7] = some first ∧
      engine.deliveries [makeAdd 3 3 .BUY .LIMIT 101 8 7] = some second ∧ Alike 1 first second := by
  obtain ⟨engine, reached⟩ : ∃ engine, (MatchingEngine.create 3).feed [makeAdd 1 1 .SELL .LIMIT 100 5 7] =
    some ([], engine) := ⟨_, rfl⟩
  obtain ⟨crowded, silent⟩ : ∃ crowded, engine.deliver (makeAdd 2 2 .SELL .LIMIT 100 5 7) = some ([], crowded) := by
    cases reached
    exact ⟨_, rfl⟩
  have room : engine.PoolSuffices [makeAdd 2 2 .SELL .LIMIT 100 5 7, makeAdd 3 3 .BUY .LIMIT 101 8 7] := by
    intro earlier m later split _ _ fills last ran
    cases reached
    rcases earlier with _ | ⟨one, _ | ⟨two, rest⟩⟩
    · obtain ⟨rfl, _⟩ : _ = m ∧ _ := by simpa using split
      cases ran
      decide
    · obtain ⟨rfl, rfl, _⟩ : _ = one ∧ _ = m ∧ _ := by simpa using split
      cases ran
      decide
    · simp at split
  have roomWithout : engine.PoolSuffices [makeAdd 3 3 .BUY .LIMIT 101 8 7] := by
    intro earlier m later split _ _ fills last ran
    cases reached
    rcases earlier with _ | ⟨one, rest⟩
    · obtain ⟨rfl, _⟩ : _ = m ∧ _ := by simpa using split
      cases ran
      decide
    · simp at split
  obtain ⟨first, second, ran, ran', alike⟩ := priority_noninterference 3 _ _ engine reached
    ⟨1, 7, 100, 5, 0, .SELL⟩ (by cases reached; decide) (makeAdd 2 2 .SELL .LIMIT 100 5 7) (by decide) (by decide)
    (by decide) (by cases reached; decide) (by decide) (by decide) crowded silent
    [makeAdd 3 3 .BUY .LIMIT 101 8 7] (by decide) room roomWithout
  exact ⟨engine, crowded, first, second, reached, silent, ran, ran', alike⟩

end ChronoBook
