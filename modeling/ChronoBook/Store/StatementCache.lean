import ChronoBook.Journal.FillJournal
import ChronoBook.Library.Keyed
import ChronoBook.Library.Recency
import Mathlib.Logic.Function.Basic

/-! The cache of prepared statements. Both forms of the store have one of their own;
they differ in the statements they hold and in what a hit does to one. A node of the
list has an address, and the index holds addresses, as iterators do: nothing in the
data makes an address point at the right node, or at any. -/

namespace ChronoBook
open Library

/-- What a cache needs of its statements: the constructor, which may report an error, and what is
done to a statement that is found again. -/
class Statement (S : Type) where
  prepare : String → Option String → Except Failure S
  found : S → S
  sql : S → String
  sql_prepare : ∀ text error s, prepare text error = .ok s → sql s = text
  sql_found : ∀ s, sql (found s) = sql s

namespace FlatFile

structure PreparedStatement where
  sql : String
  deriving DecidableEq, Repr

namespace PreparedStatement

/-- Only the copy of the text can fail. -/
def create (sql : String) : Option String → Except Failure PreparedStatement
  | some error => .error (.thrown error)
  | none => .ok ⟨sql⟩

instance : Statement PreparedStatement where
  prepare := create
  found s := s
  sql := PreparedStatement.sql
  sql_prepare text error s made := by
    cases error with
    | none => cases made; rfl
    | some error => cases made
  sql_found _ := rfl

end PreparedStatement

end FlatFile

namespace SQLite

/-- A statement with what its user has done to it: the bound parameters, and whether it was stepped. -/
structure PreparedStatement where
  sql : String
  bindings : List (Int × Int64) := []
  stepped : Bool := false
  deriving DecidableEq, Repr

namespace PreparedStatement

/-- The error is what the connection reports when `prepare_v2` fails. -/
def create (sql : String) : Option String → Except Failure PreparedStatement
  | some error => .error (.thrown ("prepare failed: " ++ error))
  | none => .ok { sql := sql }

def reset (s : PreparedStatement) : PreparedStatement := { s with bindings := [], stepped := false }

instance : Statement PreparedStatement where
  prepare := create
  found := reset
  sql := PreparedStatement.sql
  sql_prepare text error s made := by
    cases error with
    | none => cases made; rfl
    | some error => cases made
  sql_found _ := rfl

end PreparedStatement

end SQLite

/-- A node of the list, with its address. -/
structure CacheEntry (S : Type) where
  node : Nat
  sql : String
  stmt : S
  deriving DecidableEq, Repr

structure StatementCache (S : Type) where
  capacity : UInt64 := 16
  lru : List (CacheEntry S) := []
  index : String → Option Nat := fun _ => none
  /-- Addresses of new nodes start here. -/
  nextNode : Nat := 0

namespace StatementCache

variable {S : Type}

def size (cache : StatementCache S) : Nat := cache.lru.length

/-- `m_index.erase(m_lru.back().sql)` and `m_lru.pop_back()`. -/
def evict (cache : StatementCache S) : StatementCache S :=
  match cache.lru.getLast? with
  | none => cache
  | some last => { cache with lru := cache.lru.dropLast, index := Function.update cache.index last.sql none }

variable [Statement S]

def get (cache : StatementCache S) (sql : String) (error : Option String) : StatementCache S × Except Failure S :=
  match cache.index sql with
  | some node =>
      match cache.lru.find? (fun entry => entry.node = node) with
      | none => (cache, .error .fault)
      | some entry =>
          let entry := { entry with stmt := Statement.found entry.stmt }
          ({ cache with lru := entry :: cache.lru.eraseP (fun other => other.node = node) }, .ok entry.stmt)
  | none =>
      let cache := if cache.lru.length = cache.capacity.toNat then cache.evict else cache
      -- the statement is prepared behind the eviction and before the insertion
      match Statement.prepare sql error with
      | .error failure => (cache, .error failure)
      | .ok stmt =>
          ({ cache with
             lru := ⟨cache.nextNode, sql, stmt⟩ :: cache.lru
             index := Function.update cache.index sql (some cache.nextNode)
             nextNode := cache.nextNode + 1 }, .ok stmt)

/-- The user of a statement binds parameters and steps it; its text stays. -/
def use (cache : StatementCache S) (sql : String) (change : S → S) : StatementCache S :=
  { cache with
    lru := cache.lru.map (fun entry => if entry.sql = sql then { entry with stmt := change entry.stmt } else entry) }

end StatementCache

/-- What is done with a cache: a request, with the error that preparing the statement would report, and
any use of a statement that is in the cache. -/
inductive CacheCall (S : Type) [Statement S] where
  | get (sql : String) (error : Option String)
  | use (sql : String) (change : S → S) (keeps : ∀ s, Statement.sql (change s) = Statement.sql s)

namespace StatementCache

variable {S : Type} [Statement S]

/-- A call, with the answers to the requests so far. -/
def call (state : StatementCache S × List (String × Except Failure S)) :
    CacheCall S → StatementCache S × List (String × Except Failure S)
  | .get sql error =>
      let (cache, answer) := state.1.get sql error
      (cache, state.2 ++ [(sql, answer)])
  | .use sql change _ => (state.1.use sql change, state.2)

def run (capacity : UInt64) (calls : List (CacheCall S)) : StatementCache S × List (String × Except Failure S) :=
  calls.foldl call ({ capacity := capacity }, [])

def places (lru : List (CacheEntry S)) : List (String × Nat) := lru.map (fun entry => (entry.sql, entry.node))

/-- The index finds each text at its node, and nothing else. -/
structure Consistent (places : List (String × Nat)) (index : String → Option Nat) (next : Nat) : Prop where
  sqls : (places.map Prod.fst).Nodup
  nodes : (places.map Prod.snd).Nodup
  below : ∀ place ∈ places, place.2 < next
  points : ∀ sql node, index sql = some node ↔ (sql, node) ∈ places

namespace Consistent

variable {places places' : List (String × Nat)} {index : String → Option Nat} {next : Nat}

theorem perm (consistent : Consistent places index next) (moved : places.Perm places') : Consistent places' index next where
  sqls := (moved.map _).nodup_iff.mp consistent.sqls
  nodes := (moved.map _).nodup_iff.mp consistent.nodes
  below place inside := consistent.below place (moved.mem_iff.mpr inside)
  points sql node := (consistent.points sql node).trans moved.mem_iff

theorem absent_iff (consistent : Consistent places index next) {sql : String} :
    index sql = none ↔ sql ∉ places.map Prod.fst := by
  constructor
  · intro missing listed
    obtain ⟨place, inside, rfl⟩ := List.mem_map.mp listed
    have found := (consistent.points place.1 place.2).mpr inside
    rw [missing] at found
    cases found
  · intro unlisted
    cases found : index sql with
    | none => rfl
    | some node => exact absurd (List.mem_map_of_mem ((consistent.points sql node).mp found)) unlisted

theorem push (consistent : Consistent places index next) {sql : String} (missing : index sql = none) :
    Consistent ((sql, next) :: places) (Function.update index sql (some next)) (next + 1) where
  sqls := List.nodup_cons.mpr ⟨consistent.absent_iff.mp missing, consistent.sqls⟩
  nodes := by
    rw [List.map_cons, List.nodup_cons]
    refine ⟨?_, consistent.nodes⟩
    intro listed
    obtain ⟨place, inside, same⟩ := List.mem_map.mp listed
    have below := consistent.below place inside
    omega
  below := by
    intro place inside
    rcases List.mem_cons.mp inside with rfl | before
    · exact Nat.lt_succ_self next
    · exact Nat.lt_succ_of_lt (consistent.below place before)
  points := by
    intro other node
    by_cases same : other = sql
    · subst same
      have unlisted : (other, node) ∉ places := fun inside =>
        consistent.absent_iff.mp missing (List.mem_map_of_mem inside)
      rw [Function.update_self, List.mem_cons, or_iff_left unlisted]
      simp only [Option.some.injEq, Prod.mk.injEq, true_and]
      exact eq_comm
    · rw [Function.update_of_ne same, consistent.points, List.mem_cons]
      simp only [Prod.mk.injEq, same, false_and, false_or]

theorem pop {last : String × Nat} (consistent : Consistent (places ++ [last]) index next) :
    Consistent places (Function.update index last.1 none) next := by
  have before := consistent.perm (List.perm_append_singleton last places)
  have distinct := List.nodup_cons.mp before.sqls
  exact {
    sqls := distinct.2
    nodes := (List.nodup_cons.mp before.nodes).2
    below := fun place inside => consistent.below place (List.mem_append_left _ inside)
    points := by
      intro other node
      by_cases same : other = last.1
      · subst same
        have unlisted : (last.1, node) ∉ places := by
          intro inside
          exact distinct.1 (List.mem_map.mpr ⟨_, inside, rfl⟩)
        simp only [Function.update_self, unlisted, reduceCtorEq]
      · rw [Function.update_of_ne same, before.points, List.mem_cons]
        have different : (other, node) ≠ last := fun equal => same (by rw [← equal])
        simp only [different, false_or] }

end Consistent

/-- What holds of a cache between two calls. -/
structure Sound (cache : StatementCache S) : Prop where
  consistent : Consistent (places cache.lru) cache.index cache.nextNode
  bounded : cache.lru.length ≤ cache.capacity.toNat
  prepared : ∀ entry ∈ cache.lru, Statement.sql entry.stmt = entry.sql

variable {cache : StatementCache S} {sql : String}

omit [Statement S] in
theorem map_places_fst (lru : List (CacheEntry S)) : (places lru).map Prod.fst = lru.map CacheEntry.sql := by
  rw [places, List.map_map]
  rfl

omit [Statement S] in
theorem map_places_snd (lru : List (CacheEntry S)) : (places lru).map Prod.snd = lru.map CacheEntry.node := by
  rw [places, List.map_map]
  rfl

theorem Sound.create (capacity : UInt64) : Sound ({ capacity := capacity } : StatementCache S) where
  consistent := {
    sqls := List.nodup_nil
    nodes := List.nodup_nil
    below := by simp [places]
    points := by simp [places] }
  bounded := Nat.zero_le _
  prepared := by simp

/-- A hit finds the node of the text and moves it to the front. -/
theorem Sound.get_hit (sound : Sound cache) {node : Nat} (hit : cache.index sql = some node) (error : Option String) :
    ∃ entry ∈ cache.lru, entry.sql = sql ∧ cache.get sql error =
      ({ cache with
         lru := { entry with stmt := Statement.found entry.stmt } ::
           cache.lru.filter (fun other => other.node ≠ entry.node) }, .ok (Statement.found entry.stmt)) := by
  obtain ⟨entry, inside, place⟩ := List.mem_map.mp ((sound.consistent.points sql node).mp hit)
  obtain ⟨rfl, rfl⟩ := Prod.mk.inj place
  have nodes : (cache.lru.map CacheEntry.node).Nodup := by
    rw [← map_places_snd]
    exact sound.consistent.nodes
  have found := Keyed.find?_of_mem nodes inside
  refine ⟨entry, inside, rfl, ?_⟩
  simp only [get, hit, found, Keyed.eraseP_eq_filter nodes]

/-- Moving the entry of a text to the front, with another state of its statement, keeps the cache sound. -/
theorem Sound.to_front (sound : Sound cache) {entry : CacheEntry S} (inside : entry ∈ cache.lru) {stmt : S}
    (same : Statement.sql stmt = entry.sql) :
    Sound { cache with
      lru := { entry with stmt := stmt } :: cache.lru.filter (fun other => other.node ≠ entry.node) } := by
  have nodes : (cache.lru.map CacheEntry.node).Nodup := by
    rw [← map_places_snd]
    exact sound.consistent.nodes
  have moved := Keyed.perm_cons_filter nodes inside
  exact {
    consistent := sound.consistent.perm (moved.map (fun other : CacheEntry S => (other.sql, other.node)))
    bounded := by
      have length := moved.length_eq
      have bounded := sound.bounded
      simp only [List.length_cons] at length ⊢
      omega
    prepared := by
      intro other listed
      rcases List.mem_cons.mp listed with rfl | kept
      · exact same
      · exact sound.prepared other (List.mem_of_mem_filter kept) }

/-- In the order of the texts a hit moves one text to the front. -/
theorem Sound.filter_sqls (sound : Sound cache) {entry : CacheEntry S} (inside : entry ∈ cache.lru) :
    (cache.lru.filter (fun other => other.node ≠ entry.node)).map CacheEntry.sql =
      (cache.lru.map CacheEntry.sql).filter (fun other => other ≠ entry.sql) := by
  have nodes := sound.consistent.nodes
  have sqls := sound.consistent.sqls
  rw [map_places_snd] at nodes
  rw [map_places_fst] at sqls
  rw [List.filter_map]
  congr 1
  apply List.filter_congr
  intro other listed
  have together : other.node = entry.node ↔ other.sql = entry.sql := by
    constructor
    · intro same
      rw [List.inj_on_of_nodup_map nodes listed inside same]
    · intro same
      rw [List.inj_on_of_nodup_map sqls listed inside same]
  simp only [Function.comp_apply, ne_eq, together]

/-- The cache in which there is room for one more statement. -/
def room (cache : StatementCache S) : StatementCache S :=
  if cache.lru.length = cache.capacity.toNat then cache.evict else cache

theorem Sound.evict (sound : Sound cache) {before : List (CacheEntry S)} {last : CacheEntry S}
    (shape : cache.lru = before ++ [last]) :
    cache.evict = { cache with lru := before, index := Function.update cache.index last.sql none } ∧
      Sound cache.evict := by
  have result : cache.evict = { cache with lru := before, index := Function.update cache.index last.sql none } := by
    simp only [StatementCache.evict, shape, List.getLast?_concat, List.dropLast_concat]
  have bounded := sound.bounded
  have consistent := sound.consistent
  rw [shape, List.length_append] at bounded
  rw [shape, places, List.map_append] at consistent
  rw [result]
  refine ⟨rfl, consistent.pop, Nat.le_trans (Nat.le_add_right _ _) bounded, ?_⟩
  intro entry inside
  apply sound.prepared entry
  rw [shape]
  exact List.mem_append_left _ inside

/-- Making room keeps the cache sound and drops at most the last text. -/
theorem Sound.room (sound : Sound cache) (positive : 1 ≤ cache.capacity.toNat) :
    Sound cache.room ∧ cache.room.lru.length < cache.capacity.toNat ∧ cache.room.capacity = cache.capacity ∧
      cache.room.lru.map CacheEntry.sql = makeRoom cache.capacity.toNat (cache.lru.map CacheEntry.sql) ∧
      ∀ sql, cache.index sql = none → cache.room.index sql = none := by
  have bounded := sound.bounded
  unfold StatementCache.room makeRoom
  rw [List.length_map]
  split
  next full =>
    have nonempty : cache.lru ≠ [] := by
      rw [← List.length_pos_iff]
      omega
    have shape := (List.dropLast_concat_getLast nonempty).symm
    generalize cache.lru.dropLast = before, cache.lru.getLast nonempty = last at shape
    obtain ⟨result, kept⟩ := sound.evict shape
    refine ⟨kept, ?_, by rw [result], ?_, ?_⟩
    · rw [result, ← full, shape, List.length_append]
      exact Nat.lt_succ_self _
    · rw [result, shape, List.map_append, List.map_singleton, List.dropLast_concat]
    · intro sql missing
      rw [result]
      show Function.update cache.index last.sql none sql = none
      by_cases same : sql = last.sql
      · rw [same, Function.update_self]
      · rw [Function.update_of_ne same, missing]
  next => exact ⟨sound, by omega, rfl, rfl, fun _ missing => missing⟩

theorem get_miss (missing : cache.index sql = none) (error : Option String) :
    cache.get sql error =
      match Statement.prepare sql error with
      | .error failure => (cache.room, .error failure)
      | .ok stmt =>
          ({ cache.room with
             lru := ⟨cache.room.nextNode, sql, stmt⟩ :: cache.room.lru
             index := Function.update cache.room.index sql (some cache.room.nextNode)
             nextNode := cache.room.nextNode + 1 }, .ok stmt) := by
  simp only [get, missing]
  rfl

theorem Sound.insert (sound : Sound cache) (missing : cache.index sql = none) {stmt : S} (same : Statement.sql stmt = sql)
    (free : cache.lru.length < cache.capacity.toNat) :
    Sound { cache with
      lru := ⟨cache.nextNode, sql, stmt⟩ :: cache.lru
      index := Function.update cache.index sql (some cache.nextNode)
      nextNode := cache.nextNode + 1 } where
  consistent := sound.consistent.push missing
  bounded := free
  prepared := by
    intro entry inside
    rcases List.mem_cons.mp inside with rfl | before
    · exact same
    · exact sound.prepared entry before

/-- What a request may be answered with: the statement for the text, which then stands in front, or the
failure of preparing a statement that was not there. -/
def Answered (cache : StatementCache S) (sql : String) (error : Option String) : Prop :=
  match cache.get sql error with
  | (cache', .ok s) => Statement.sql s = sql ∧ ∃ entry, cache'.lru.head? = some entry ∧ entry.sql = sql ∧ entry.stmt = s
  | (_, .error failure) =>
      cache.index sql = none ∧ (Statement.prepare sql error : Except Failure S) = .error failure

/-- What one request does to a sound cache. -/
structure Served (cache : StatementCache S) (sql : String) (error : Option String) : Prop where
  sound : Sound (cache.get sql error).1
  unchanged : (cache.get sql error).1.capacity = cache.capacity
  answered : Answered cache sql error
  recent : ∀ requests s, cache.lru.map CacheEntry.sql = (recency requests).take cache.capacity.toNat →
    (cache.get sql error).2 = .ok s →
      (cache.get sql error).1.lru.map CacheEntry.sql = (recency (requests ++ [sql])).take cache.capacity.toNat

theorem Sound.served (sound : Sound cache) (positive : 1 ≤ cache.capacity.toNat) (sql : String) (error : Option String) :
    Served cache sql error := by
  cases hit : cache.index sql with
  | some node =>
    obtain ⟨entry, inside, rfl, result⟩ := sound.get_hit hit error
    have same : Statement.sql (Statement.found entry.stmt) = entry.sql := by
      rw [Statement.sql_found]
      exact sound.prepared entry inside
    refine ⟨?_, ?_, ?_, ?_⟩
    · rw [result]
      exact sound.to_front inside same
    · rw [result]
    · rw [Answered, result]
      exact ⟨same, _, rfl, rfl, rfl⟩
    · intro requests s kept _
      have held : entry.sql ∈ (recency requests).take cache.capacity.toNat := by
        rw [← kept]
        exact List.mem_map_of_mem inside
      rw [result, recent_hit held, ← kept, List.map_cons, sound.filter_sqls inside]
  | none =>
    obtain ⟨kept, free, capacity, sqls, unlisted⟩ := sound.room positive
    cases prepared : (Statement.prepare sql error : Except Failure S) with
    | error failure =>
      have result : cache.get sql error = (cache.room, .error failure) := by rw [get_miss hit, prepared]
      refine ⟨?_, ?_, ?_, ?_⟩
      · rw [result]
        exact kept
      · rw [result, capacity]
      · rw [Answered, result]
        exact ⟨hit, prepared⟩
      · intro requests s _ returned
        rw [result] at returned
        cases returned
    | ok stmt =>
      have same : Statement.sql stmt = sql := Statement.sql_prepare sql error stmt prepared
      have result : cache.get sql error = _ := get_miss hit error
      rw [prepared] at result
      refine ⟨?_, ?_, ?_, ?_⟩
      · rw [result]
        exact kept.insert (unlisted sql hit) same (by rw [capacity]; exact free)
      · rw [result, capacity]
      · rw [Answered, result]
        exact ⟨same, _, rfl, rfl, rfl⟩
      · intro requests s before _
        have absent : sql ∉ (recency requests).take cache.capacity.toNat := by
          rw [← before, ← map_places_fst]
          exact sound.consistent.absent_iff.mp hit
        rw [result, recent_miss positive absent, ← before, List.map_cons, sqls]

theorem Sound.use (sound : Sound cache) (sql : String) {change : S → S}
    (keeps : ∀ s, Statement.sql (change s) = Statement.sql s) :
    Sound (cache.use sql change) ∧ (cache.use sql change).lru.map CacheEntry.sql = cache.lru.map CacheEntry.sql := by
  have same : places (cache.use sql change).lru = places cache.lru := by
    rw [places, places, StatementCache.use, List.map_map]
    apply List.map_congr_left
    intro entry _
    rw [Function.comp_apply]
    split <;> rfl
  refine ⟨⟨?_, ?_, ?_⟩, ?_⟩
  · rw [same]
    exact sound.consistent
  · rw [StatementCache.use, List.length_map]
    exact sound.bounded
  · intro entry inside
    obtain ⟨old, there, rfl⟩ := List.mem_map.mp inside
    split
    · rw [keeps]
      exact sound.prepared old there
    · exact sound.prepared old there
  · rw [← map_places_fst, same, map_places_fst]

/-- What holds of a cache and its answers after any calls. -/
structure Kept (capacity : UInt64) (state : StatementCache S × List (String × Except Failure S)) : Prop where
  sound : Sound state.1
  unchanged : state.1.capacity = capacity
  recent : (∀ answer ∈ state.2, ∃ s, answer.2 = .ok s) →
    state.1.lru.map CacheEntry.sql = (recency (state.2.map Prod.fst)).take capacity.toNat

theorem Kept.call {capacity : UInt64} {state : StatementCache S × List (String × Except Failure S)}
    (kept : Kept capacity state) (positive : 1 ≤ capacity.toNat) (next : CacheCall S) :
    Kept capacity (StatementCache.call state next) := by
  have size := kept.unchanged
  cases next with
  | get sql error =>
    have served := kept.sound.served (by rw [size]; exact positive) sql error
    refine ⟨served.sound, served.unchanged.trans size, ?_⟩
    intro returned
    have before : ∀ answer ∈ state.2, ∃ s, answer.2 = .ok s := fun answer earlier =>
      returned answer (List.mem_append_left _ earlier)
    obtain ⟨s, now⟩ := returned (sql, (state.1.get sql error).2) (List.mem_append_right _ (List.mem_singleton_self _))
    have recent := served.recent (state.2.map Prod.fst) s (by rw [size]; exact kept.recent before) now
    rw [size] at recent
    exact recent.trans (by rw [StatementCache.call, List.map_append]; rfl)
  | use sql change keeps =>
    obtain ⟨sound, same⟩ := kept.sound.use sql keeps
    exact ⟨sound, size, fun returned => same.trans (kept.recent returned)⟩

theorem kept_run {capacity : UInt64} (positive : 1 ≤ capacity.toNat) (calls : List (CacheCall S)) :
    Kept capacity (run capacity calls) := by
  induction calls using List.reverseRecOn with
  | nil => exact ⟨Sound.create capacity, rfl, fun _ => List.take_nil.symm⟩
  | append_singleton calls next ih =>
    rw [run, List.foldl_append]
    exact ih.call positive next

/-- After any calls the index and the list agree, the list is not longer than the capacity, the next request is
answered by the statement for its text or by the failure of preparing it, and while no request has failed the list
holds the texts requested last, the last one first. -/
theorem consistent_lru (capacity : UInt64) (positive : 1 ≤ capacity) (calls : List (CacheCall S)) :
    let cache := (run capacity calls).1
    let answers := (run capacity calls).2
    (cache.lru.map CacheEntry.sql).Nodup ∧
      (∀ sql, cache.index sql ≠ none ↔ sql ∈ cache.lru.map CacheEntry.sql) ∧
      (∀ sql node, cache.index sql = some node →
        ∃ entry, cache.lru.find? (fun other => other.node = node) = some entry ∧ entry.sql = sql) ∧
      cache.size ≤ capacity.toNat ∧
      (∀ sql error, Answered cache sql error) ∧
      ((∀ answer ∈ answers, ∃ s, answer.2 = .ok s) →
        cache.lru.map CacheEntry.sql = (recency (answers.map Prod.fst)).take capacity.toNat) := by
  intro cache answers
  have least : 1 ≤ capacity.toNat := UInt64.le_iff_toNat_le.mp positive
  have kept := kept_run least calls
  have consistent := kept.sound.consistent
  have bounded := kept.sound.bounded
  have sqls := consistent.sqls
  have nodes := consistent.nodes
  rw [map_places_fst] at sqls
  rw [map_places_snd] at nodes
  rw [kept.unchanged] at bounded
  refine ⟨sqls, ?_, ?_, bounded, ?_, kept.recent⟩
  · intro sql
    rw [← map_places_fst, ← not_iff_not, not_not]
    exact consistent.absent_iff
  · intro sql node found
    obtain ⟨entry, inside, place⟩ := List.mem_map.mp ((consistent.points sql node).mp found)
    obtain ⟨rfl, rfl⟩ := Prod.mk.inj place
    exact ⟨entry, Keyed.find?_of_mem nodes inside, rfl⟩
  · intro sql error
    exact (kept.sound.served (by rw [kept.unchanged]; exact least) sql error).answered

/-- Four requests to a cache for two statements: the second text is given up for the last one. -/
def fourRequests : List (CacheCall SQLite.PreparedStatement) :=
  [.get "BEGIN" none, .get "COUNT" none, .use "COUNT" (fun s => { s with stepped := true }) (fun _ => rfl),
    .get "BEGIN" none, .get "INSERT" none]

theorem consistent_lru_four :
    (run 2 fourRequests).1.lru.map CacheEntry.sql = ["INSERT", "BEGIN"] ∧
      ∀ sql error, Answered (run 2 fourRequests).1 sql error := by
  obtain ⟨_, _, _, _, answered, recent⟩ := consistent_lru 2 (by decide) fourRequests
  refine ⟨?_, answered⟩
  rw [recent]
  · decide +kernel
  · intro answer listed
    have returned : ∀ answer ∈ (run 2 fourRequests).2, answer.2.isOk = true := by decide +kernel
    have ok := returned answer listed
    cases result : answer.2 with
    | ok s => exact ⟨s, rfl⟩
    | error failure =>
      rw [result] at ok
      cases ok

end StatementCache

end ChronoBook
