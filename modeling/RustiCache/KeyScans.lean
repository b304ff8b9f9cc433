import RustiCache.ConcurrentStoreInvariant
import RustiCache.RunMoments
import RustiCache.ShardedStoreScans

/-!
# Listing the keys next to other calls

`keys` reads the clock once and then visits the shards one after another, each
under its read lock, while other tasks run.  The list it returns need not be the
set of keys at any one moment.  It has no key twice, every key on it had a
binding at some moment of the scan, and a key that had one throughout is on it.
The visit of a shard goes row by row; it is the lock that keeps the rows in
place meanwhile.
-/

namespace RustiCache

/-- Where a call of `keys` stands.  Inside a shard it holds the shard's read
lock and has some rows left to look at. -/
inductive KeyScan where
  | idle
  | scanning (now : Instant) (idx : Nat) (allKeys : List String)
  | reading (now : Instant) (idx : Nat)
      (rows : List (Sigma fun _ : String => Entry)) (allKeys : List String)
  | done (allKeys : List String)
deriving DecidableEq

inductive ScanAction where
  | begin (now : Instant)
  | lockRead
  | visit
  | unlockRead
  | finish
deriving DecidableEq

namespace KeyScan

variable {hasher : String → UInt64}

/-- The shard whose read lock the scan holds. -/
def reads : KeyScan → Option Nat
  | reading _ idx _ _ => some idx
  | _ => none

/-- The keys after a look at one row. -/
def push (now : Instant) (row : Sigma fun _ : String => Entry)
    (allKeys : List String) : List String :=
  if row.2.expiresAt.all (now < ·) then allKeys ++ [row.1] else allKeys

/-- The code of `keys`, lock availability aside. -/
def advance (db : Db hasher) : KeyScan → ScanAction → Option KeyScan
  | idle, .begin now => some (scanning now 0 [])
  | scanning now idx allKeys, .lockRead =>
      if idx < db.shards.length then
        some (reading now idx (db.shard idx).entries allKeys)
      else
        none
  | reading now idx (row :: rows) allKeys, .visit =>
      some (reading now idx rows (push now row allKeys))
  | reading now idx [] allKeys, .unlockRead =>
      some (scanning now (idx + 1) allKeys)
  | scanning _ idx allKeys, .finish =>
      if idx = db.shards.length then some (done allKeys) else none
  | _, _ => none

end KeyScan

/-- A store with its tasks and a scan next to them. -/
structure ScannedStore (ι : Type) (hasher : String → UInt64) where
  store : StoreSystem ι hasher
  scan : KeyScan

namespace ScannedStore

variable {ι : Type} [Fintype ι] [DecidableEq ι] {hasher : String → UInt64}

/-- The scan's read lock keeps tasks from taking the write lock. -/
def admits (system : ScannedStore ι hasher) (task : ι) : TaskAction → Bool
  | .lockWrite =>
      match system.store.tasks task with
      | .waiting code =>
          decide (system.scan.reads ≠ some (code.shardIndex system.store.db))
      | _ => true
  | _ => true

/-- No task holds the write lock that the scan needs. -/
def readable (system : ScannedStore ι hasher) : ScanAction → Bool
  | .lockRead =>
      match system.scan with
      | .scanning _ idx _ =>
          decide (∀ task,
            (system.store.tasks task).writes system.store.db ≠ some idx)
      | _ => true
  | _ => true

def step (system : ScannedStore ι hasher) :
    (ι × TaskAction) ⊕ ScanAction → Option (ScannedStore ι hasher)
  | .inl (task, action) =>
      if system.admits task action then
        (system.store.step (task, action)).map fun store => { system with store }
      else
        none
  | .inr action =>
      if system.readable action then
        (system.scan.advance system.store.db action).map fun scan =>
          { system with scan }
      else
        none

end ScannedStore

namespace StoreSystem

variable {ι : Type} [Fintype ι] [DecidableEq ι] {hasher : String → UInt64}

theorem shardMask_step {system next : StoreSystem ι hasher}
    {action : ι × TaskAction} (taken : system.step action = some next) :
    next.db.shardMask = system.db.shardMask := by
  obtain ⟨task, action⟩ := action
  obtain ⟨-, moved, advances, -⟩ := step_advances taken
  generalize system.tasks task = before at advances
  generalize next.db = after at advances
  cases advances with
  | moves | locks => rfl
  | performs performed => exact performed.mask
  | @adjusts _ adjustment => cases adjustment <;> rfl

/-- A shard whose write lock nobody holds stays as it is. -/
theorem shard_step {system next : StoreSystem ι hasher}
    {action : ι × TaskAction} (taken : system.step action = some next) {idx : Nat}
    (unwritten : ∀ task, (system.tasks task).writes system.db ≠ some idx) :
    next.db.shard idx = system.db.shard idx := by
  obtain ⟨task, action⟩ := action
  obtain ⟨-, moved, advances, -⟩ := step_advances taken
  have mine := unwritten task
  generalize system.tasks task = before at advances mine
  generalize next.db = after at advances
  cases advances with
  | moves | locks => rfl
  | performs performed =>
      apply performed.elsewhere
      intro same
      exact mine (congrArg some same)
  | @adjusts _ adjustment => cases adjustment <;> rfl

/-- Nobody gets to hold a write lock but by taking it. -/
theorem writes_step {system next : StoreSystem ι hasher} {task : ι}
    {action : TaskAction} (taken : system.step (task, action) = some next)
    {idx : Nat}
    (unwritten : ∀ other, (system.tasks other).writes system.db ≠ some idx)
    (elsewhere : ∀ code, action = .lockWrite →
      system.tasks task = .waiting code → code.shardIndex system.db ≠ idx)
    (other : ι) : (next.tasks other).writes next.db ≠ some idx := by
  have mask := shardMask_step taken
  obtain ⟨-, moved, advances, tasks⟩ := step_advances taken
  rw [StoreTask.writes_congr mask, tasks]
  by_cases same : other = task
  · subst same
    rw [Function.update_self]
    have mine := unwritten other
    generalize position : system.tasks other = before at advances mine
    generalize next.db = after at advances
    cases advances with
    | moves _ outside =>
        rw [outside]
        exact nofun
    | @locks code =>
        intro holds
        exact elsewhere code rfl position (Option.some.inj holds)
    | performs => exact mine
    | adjusts => exact mine
  · rw [Function.update_of_ne same]
    exact unwritten other

end StoreSystem

namespace ScannedStore

variable {ι : Type} [Fintype ι] [DecidableEq ι] {hasher : String → UInt64}

/-- The key has a binding that is live at the time of the scan. -/
def Bound (now : Instant) (key : String) (system : ScannedStore ι hasher) :
    Prop :=
  (system.store.db.contents.get now key).isSome

/-- What the list of a scan has to do with the moments of the run so far, once
the shards before `idx` have been visited. -/
structure Collected (start : ScannedStore ι hasher) (now : Instant)
    (actions : List ((ι × TaskAction) ⊕ ScanAction)) (idx : Nat)
    (allKeys : List String) : Prop where
  nodup : allKeys.Nodup
  visited : ∀ key ∈ allKeys, start.store.db.shardIndex key < idx
  sound : ∀ key ∈ allKeys,
    Sometime step (fun _ _ => True) start actions (Bound now key)
  complete : ∀ key, start.store.db.shardIndex key < idx →
    Throughout step (fun _ _ => True) start actions (Bound now key) →
    key ∈ allKeys

theorem Collected.snoc {start : ScannedStore ι hasher} {now : Instant}
    {actions : List ((ι × TaskAction) ⊕ ScanAction)} {idx : Nat}
    {allKeys : List String} (collected : start.Collected now actions idx allKeys)
    (action : (ι × TaskAction) ⊕ ScanAction) :
    start.Collected now (actions ++ [action]) idx allKeys where
  nodup := collected.nodup
  visited := collected.visited
  sound := fun key member => (collected.sound key member).snoc action
  complete := fun key home along => collected.complete key home along.init

/-- The keys of a shard join the list at a moment when the shard is as it was
read. -/
theorem Collected.append {start system : ScannedStore ι hasher} {now : Instant}
    {actions : List ((ι × TaskAction) ⊕ ScanAction)} {idx : Nat}
    {allKeys : List String} (collected : start.Collected now actions idx allKeys)
    (reaches : Reaches step (fun _ _ => True) start actions system)
    (mask : system.store.db.shardMask = start.store.db.shardMask) :
    start.Collected now actions (idx + 1)
      (allKeys ++ Db.liveKeys now (system.store.db.shard idx)) := by
  have home : ∀ key, system.store.db.shardIndex key =
      start.store.db.shardIndex key := by
    intro key
    rw [Db.shardIndex, Db.shardIndex, mask]
  have listed : ∀ {key}, key ∈ Db.liveKeys now (system.store.db.shard idx) ↔
      start.store.db.shardIndex key = idx ∧ Bound now key system := by
    intro key
    rw [Db.mem_liveKeys, ← home, Bound]
    constructor
    · rintro ⟨entry, found, live⟩
      refine ⟨Db.shardIndex_of_lookup found, ?_⟩
      rw [TimedMap.get_of_binding (Db.contents_of_lookup found)]
      rw [if_pos live]
      rfl
    · rintro ⟨rfl, bound⟩
      rw [TimedMap.get, Db.contents, Db.find] at bound
      cases found : AList.lookup key
          (system.store.db.shard (system.store.db.shardIndex key)) with
      | none => simp [found] at bound
      | some entry =>
          refine ⟨entry, rfl, ?_⟩
          simpa [found, Entry.timed] using bound
  refine ⟨?_, ?_, ?_, ?_⟩
  · rw [List.nodup_append]
    refine ⟨collected.nodup, Db.nodup_liveKeys now _, ?_⟩
    intro key early other late same
    subst same
    have before := collected.visited key early
    have here := (listed.mp late).1
    omega
  · intro key member
    rcases List.mem_append.mp member with early | late
    · exact Nat.lt_succ_of_lt (collected.visited key early)
    · exact Nat.lt_succ_of_le (Nat.le_of_eq (listed.mp late).1)
  · intro key member
    rcases List.mem_append.mp member with early | late
    · exact collected.sound key early
    · exact reaches.sometime (listed.mp late).2
  · intro key within along
    rcases Nat.lt_or_eq_of_le (Nat.le_of_lt_succ within) with early | here
    · exact List.mem_append_left _ (collected.complete key early along)
    · exact List.mem_append_right _ (listed.mpr ⟨here, along.final reaches⟩)

/-- Where a scan stands in relation to the run so far.  Within a shard, the rows
looked at and those left make up the shard, and no task may write to it. -/
def Tracks (start : ScannedStore ι hasher) (now : Instant)
    (actions : List ((ι × TaskAction) ⊕ ScanAction))
    (system : ScannedStore ι hasher) : Prop :=
  match system.scan with
  | .idle => False
  | .scanning began idx allKeys =>
      began = now ∧ start.Collected now actions idx allKeys
  | .reading began idx rows allKeys =>
      began = now ∧
        (∀ task, (system.store.tasks task).writes system.store.db ≠ some idx) ∧
        ∃ earlier seen, start.Collected now actions idx earlier ∧
          (system.store.db.shard idx).entries = seen ++ rows ∧
          allKeys = earlier ++ seen.filterMap fun row =>
            if row.2.expiresAt.all (now < ·) then some row.1 else none
  | .done allKeys =>
      start.Collected now actions start.store.db.shards.length allKeys

theorem push_eq (now : Instant) (row : Sigma fun _ : String => Entry)
    (earlier : List String) (seen : List (Sigma fun _ : String => Entry)) :
    KeyScan.push now row (earlier ++ seen.filterMap fun row =>
        if row.2.expiresAt.all (now < ·) then some row.1 else none) =
      earlier ++ (seen ++ [row]).filterMap fun row =>
        if row.2.expiresAt.all (now < ·) then some row.1 else none := by
  rw [KeyScan.push]
  split
  next live => simp [live]
  next expired => simp [expired]

/-- Steps of the tasks do not disturb a scan. -/
theorem Tracks.task {start system : ScannedStore ι hasher} {now : Instant}
    {actions : List ((ι × TaskAction) ⊕ ScanAction)}
    (tracks : start.Tracks now actions system) {task : ι} {action : TaskAction}
    {store : StoreSystem ι hasher} (admits : system.admits task action)
    (taken : system.store.step (task, action) = some store) :
    start.Tracks now (actions ++ [.inl (task, action)])
      { system with store } := by
  obtain ⟨before, scan⟩ := system
  cases scan with
  | idle => exact tracks
  | scanning began idx allKeys => exact ⟨tracks.1, tracks.2.snoc _⟩
  | done allKeys => exact Collected.snoc tracks _
  | reading began idx rows allKeys =>
      obtain ⟨same, unwritten, earlier, seen, collected, split, listed⟩ := tracks
      refine ⟨same, ?_, earlier, seen, collected.snoc _, ?_, listed⟩
      · apply StoreSystem.writes_step taken unwritten
        rintro code rfl position here
        rw [ScannedStore.admits, position] at admits
        exact of_decide_eq_true admits (congrArg some here.symm)
      · change (store.db.shard idx).entries = _
        rw [StoreSystem.shard_step taken unwritten]
        exact split

/-- A step of the scan keeps track of the run. -/
theorem Tracks.scan {start system : ScannedStore ι hasher} {now : Instant}
    {actions : List ((ι × TaskAction) ⊕ ScanAction)}
    (tracks : start.Tracks now actions system)
    (reaches : Reaches step (fun _ _ => True) start actions system)
    (mask : system.store.db.shardMask = start.store.db.shardMask)
    {action : ScanAction} {scan : KeyScan} (readable : system.readable action)
    (taken : system.scan.advance system.store.db action = some scan) :
    start.Tracks now (actions ++ [.inr action]) { system with scan } := by
  have shards : system.store.db.shards.length = start.store.db.shards.length := by
    rw [Db.shards_length, Db.shards_length, mask]
  obtain ⟨store, position⟩ := system
  change position.advance store.db action = some scan at taken
  unfold KeyScan.advance at taken
  split at taken
  next => exact absurd tracks id
  next began idx allKeys =>
    split at taken
    next =>
      cases taken
      obtain ⟨same, collected⟩ := tracks
      refine ⟨same, ?_, allKeys, [], collected.snoc _, rfl, by simp⟩
      simpa [ScannedStore.readable] using readable
    next => cases taken
  next began idx row rows allKeys =>
    cases taken
    obtain ⟨rfl, unwritten, earlier, seen, collected, split, rfl⟩ := tracks
    refine ⟨rfl, unwritten, earlier, seen ++ [row], collected.snoc _, ?_,
      push_eq began row earlier seen⟩
    rw [List.append_assoc]
    exact split
  next began idx allKeys =>
    cases taken
    obtain ⟨rfl, unwritten, earlier, seen, collected, split, rfl⟩ := tracks
    refine ⟨rfl, ?_⟩
    rw [List.append_nil] at split
    rw [← split]
    exact (collected.append reaches mask).snoc _
  next began idx allKeys =>
    split at taken
    next last =>
      cases taken
      obtain ⟨-, collected⟩ := tracks
      rw [last] at collected
      change start.Collected _ _ _ _
      rw [← shards]
      exact collected.snoc _
    next => cases taken
  next => cases taken

/-- The list that `keys` returns has no key twice; every key on it had a live
binding at some moment of the scan; and a key that had one throughout the scan
is on it.  Liveness is by the clock reading at the beginning. -/
theorem keys_weakly_consistent (start final : ScannedStore ι hasher)
    (now : Instant) (actions : List ((ι × TaskAction) ⊕ ScanAction))
    (allKeys : List String) (begun : start.scan = .scanning now 0 [])
    (reaches : Reaches step (fun _ _ => True) start actions final)
    (finished : final.scan = .done allKeys) :
    allKeys.Nodup ∧
      (∀ key ∈ allKeys,
        Sometime step (fun _ _ => True) start actions (Bound now key)) ∧
      ∀ key, Throughout step (fun _ _ => True) start actions (Bound now key) →
        key ∈ allKeys := by
  suffices tracked : final.store.db.shardMask = start.store.db.shardMask ∧
      start.Tracks now actions final by
    have tracks := tracked.2
    rw [Tracks, finished] at tracks
    exact ⟨tracks.nodup, tracks.sound,
      fun key => tracks.complete key (start.store.db.shardIndex_lt key)⟩
  clear finished
  induction reaches with
  | refl =>
      refine ⟨rfl, ?_⟩
      rw [Tracks, begun]
      exact ⟨rfl, List.nodup_nil, by simp, by simp, by simp⟩
  | @snoc system next actions action before _ taken ih =>
      obtain ⟨mask, tracks⟩ := ih
      rw [step.eq_def] at taken
      split at taken
      next task action =>
        split at taken
        next admits =>
          obtain ⟨store, stepped, rfl⟩ := Option.map_eq_some_iff.mp taken
          exact ⟨(StoreSystem.shardMask_step stepped).trans mask,
            tracks.task admits stepped⟩
        next => cases taken
      next action =>
        split at taken
        next readable =>
          obtain ⟨scan, advanced, rfl⟩ := Option.map_eq_some_iff.mp taken
          exact ⟨mask, tracks.scan before mask readable advanced⟩
        next => cases taken

/-- A scan begins on an empty store of two shards. -/
def scanBegun : ScannedStore (Fin 1) fun key => UInt64.ofNat key.length :=
  ⟨StoreSystem.initial (Fin 1) _ 2 0, .scanning 2 0 []⟩

/-- A key of the second shard is bound after the scan has left the first. -/
def overtakenActions : List ((Fin 1 × TaskAction) ⊕ ScanAction) :=
  [.inr .lockRead, .inl (0, .set "a" [1] none), .inr .unlockRead,
    .inl (0, .prepare 3), .inl (0, .lockWrite), .inl (0, .perform 3 3 .front),
    .inl (0, .adjust), .inl (0, .unlock), .inr .lockRead, .inr .visit,
    .inr .unlockRead, .inr .finish]

theorem keys_weakly_consistent_overtakenActions :
    ∃ final, Reaches step (fun _ _ => True) scanBegun overtakenActions final ∧
      final.scan = .done ["a"] ∧
      Sometime step (fun _ _ => True) scanBegun overtakenActions
        (Bound 2 "a") := by
  have shown : (runActions step scanBegun overtakenActions).map
      ScannedStore.scan = some (.done ["a"]) := by
    decide +kernel
  obtain ⟨final, ran, finished⟩ := Option.map_eq_some_iff.mp shown
  have reaches := reaches_of_runActions ran
  exact ⟨final, reaches, finished,
    (keys_weakly_consistent scanBegun final 2 overtakenActions ["a"] rfl reaches
      finished).2.1 "a" (by simp)⟩

end ScannedStore

end RustiCache
