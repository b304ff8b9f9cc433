import RustiCache.ConcurrentStoreInvariant

/-!
# A task that runs alone

The steps of a task compute the sequential operations of the store when no
other task holds a lock meanwhile: there is a schedule of the task's own steps
that starts with the call, ends with the call's answer, and changes the store
as `get`, `set` or `del` does.
-/

namespace RustiCache

namespace StoreTask

variable {hasher : String → UInt64}

/-- A step of a task that nobody disturbs. -/
def soloStep (state : StoreTask × Db hasher) (action : TaskAction) :
    Option (StoreTask × Db hasher) :=
  state.1.advance state.2 action

/-- The task has a schedule of its own from one position to another. -/
def SoloReaches (start final : StoreTask × Db hasher) : Prop :=
  ∃ actions, runActions soloStep start actions = some final

theorem SoloReaches.refl (state : StoreTask × Db hasher) :
    SoloReaches state state :=
  ⟨[], rfl⟩

theorem SoloReaches.trans {first second third : StoreTask × Db hasher}
    (earlier : SoloReaches first second) (later : SoloReaches second third) :
    SoloReaches first third := by
  obtain ⟨actions, ran⟩ := earlier
  obtain ⟨others, ranOthers⟩ := later
  refine ⟨actions ++ others, ?_⟩
  rw [runActions_append, ran, Option.bind_some, ranOthers]

theorem SoloReaches.step {start next : StoreTask × Db hasher}
    (action : TaskAction) (taken : soloStep start action = some next) :
    SoloReaches start next := by
  refine ⟨[action], ?_⟩
  rw [runActions, taken]
  rfl

/-- Settle all counter operations of a locked section and leave it. -/
theorem solo_adjusting (db : Db hasher) (idx : Nat) (owed : List Adjustment)
    (next : AfterSection) :
    SoloReaches (adjusting idx owed next, db)
      (resume next, owed.foldl Adjustment.apply db) := by
  induction owed generalizing db with
  | nil => exact SoloReaches.step .unlock rfl
  | cons adjustment owed ih =>
      refine SoloReaches.trans ?_ (ih (adjustment.apply db))
      cases adjustment with
      | fetchSub amount => exact SoloReaches.step .adjust rfl
      | fetchAdd amount => exact SoloReaches.step .adjust rfl

/-- Run a whole locked section. -/
theorem solo_section (db : Db hasher) (code : LockedSection) (now : Instant)
    (arrangement : Arrangement) :
    SoloReaches (waiting code, db)
      (resume (code.perform db now now arrangement).2.2,
        (code.perform db now now arrangement).2.1.foldl Adjustment.apply
          (code.perform db now now arrangement).1) := by
  have locks : SoloReaches (waiting code, db) (locked code, db) :=
    SoloReaches.step .lockWrite rfl
  have performs : SoloReaches (locked code, db)
      (adjusting (code.shardIndex db)
        (code.perform db now now arrangement).2.1
        (code.perform db now now arrangement).2.2,
        (code.perform db now now arrangement).1) :=
    SoloReaches.step (.perform now now arrangement) rfl
  exact (locks.trans performs).trans (solo_adjusting _ _ _ _)

theorem solo_get (db : Db hasher) (answer : StoreAnswer) (now : Instant)
    (key : String) :
    SoloReaches (returned answer, db)
      (returned (.value (db.get now key).1), (db.get now key).2) := by
  have starts : SoloReaches (returned answer, db) (waiting (.touch key), db) :=
    SoloReaches.step (.get key) rfl
  have touches := solo_section db (.touch key) now .front
  refine starts.trans ?_
  rw [Db.get, Db.getTouch]
  cases found : AList.lookup key (db.shard (db.shardIndex key)) with
  | none =>
      simp only [LockedSection.perform, found] at touches
      exact touches
  | some entry =>
      cases expired : entry.isExpired now with
      | false =>
          simp only [LockedSection.perform, found, expired,
            Bool.false_eq_true, if_false] at touches
          simp only [expired, Bool.false_eq_true, if_false]
          exact touches
      | true =>
          have cleans := solo_section db (.cleanup key) now .front
          simp only [LockedSection.perform, found, expired] at touches cleans
          simp only [if_true, Db.getCleanup, found, expired]
          exact touches.trans cleans

theorem solo_del (db : Db hasher) (answer : StoreAnswer) (key : String) :
    SoloReaches (returned answer, db)
      (returned (.flag (db.del key).1), (db.del key).2) := by
  have starts : SoloReaches (returned answer, db) (waiting (.remove key), db) :=
    SoloReaches.step (.del key) rfl
  have removes := solo_section db (.remove key) 0 .front
  refine starts.trans ?_
  rw [Db.del]
  cases found : AList.lookup key (db.shard (db.shardIndex key)) with
  | none =>
      simp only [LockedSection.perform, found] at removes
      exact removes
  | some entry =>
      simp only [LockedSection.perform, found] at removes
      exact removes

/-- The sampling pass of the eviction loop from shard `idx` on. -/
theorem solo_sampling (db : Db hasher) (write : PendingWrite) (count idx : Nat)
    (oldest : Option (Nat × String × Instant))
    (remaining : idx + count = db.shards.length) :
    SoloReaches (scanning idx oldest write, db)
      (scanning db.shards.length
        (((db.shards.drop idx).zipIdx idx).foldl
          (fun oldest indexed =>
            (indexed.1.entries.take 5).foldl (Db.older indexed.2) oldest)
          oldest) write, db) := by
  induction count generalizing idx oldest with
  | zero =>
      rw [Nat.add_zero] at remaining
      rw [remaining, List.drop_length]
      exact SoloReaches.refl _
  | succ count ih =>
      have bound : idx < db.shards.length := by omega
      have locks : SoloReaches (scanning idx oldest write, db)
          (reading idx oldest write, db) := by
        apply SoloReaches.step .lockRead
        simp [soloStep, advance, bound]
      have samples : SoloReaches (reading idx oldest write, db)
          (sampled idx (((db.shard idx).entries.take 5).foldl (Db.older idx)
            oldest) write, db) :=
        SoloReaches.step .sample rfl
      have unlocks : SoloReaches
          (sampled idx (((db.shard idx).entries.take 5).foldl (Db.older idx)
            oldest) write, db)
          (scanning (idx + 1) (((db.shard idx).entries.take 5).foldl
            (Db.older idx) oldest) write, db) :=
        SoloReaches.step .unlockRead rfl
      have rest := ih (idx + 1) (((db.shard idx).entries.take 5).foldl
        (Db.older idx) oldest) (by omega)
      rw [List.drop_eq_getElem_cons bound, List.zipIdx_cons, List.foldl_cons]
      rw [db.shard_eq_getElem bound] at rest samples unlocks
      exact ((locks.trans samples).trans unlocks).trans rest

theorem solo_evictions (db : Db hasher) (write : PendingWrite) :
    SoloReaches (loading write, db)
      (preparing write, db.ensureMemoryCapacity) := by
  induction count : db.entryCount using Nat.strong_induction_on
    generalizing db with
  | _ size ih =>
      rw [Db.ensureMemoryCapacity_eq]
      by_cases full : db.maxMemoryBytes ≤ db.usedMemory.toNat
      · have loads : SoloReaches (loading write, db)
            (scanning 0 none write, db) := by
          apply SoloReaches.step .load
          simp [soloStep, advance, full]
        have samples := solo_sampling db write db.shards.length 0 none
          (Nat.zero_add _)
        rw [List.drop_zero] at samples
        change SoloReaches _ (scanning db.shards.length db.oldestSampled write,
          db) at samples
        refine (loads.trans samples).trans ?_
        cases oldest : db.oldestSampled with
        | none =>
            have stops : db.evictOne = none := by
              simp [Db.evictOne, oldest]
            rw [stops]
            apply SoloReaches.step .choose
            simp [soloStep, advance]
        | some sampled =>
            obtain ⟨idx, key, lastAccessed⟩ := sampled
            have chooses : SoloReaches
                (scanning db.shards.length (some (idx, key, lastAccessed)) write,
                  db)
                (waiting (.evict idx key write), db) := by
              apply SoloReaches.step .choose
              simp [soloStep, advance]
            have evicts := solo_section db (.evict idx key write) 0 .front
            refine chooses.trans ?_
            cases found : AList.lookup key (db.shard idx) with
            | none =>
                have stops : db.evictOne = none := by
                  simp [Db.evictOne, oldest, found]
                simp only [LockedSection.perform, found] at evicts
                rw [stops]
                exact evicts
            | some removed =>
                have evicted : db.evictOne = some ((db.removeEntry idx
                    key).fetchSub removed.approxSizeBytes) := by
                  simp [Db.evictOne, oldest, found, full]
                have fewer : ((db.removeEntry idx key).fetchSub
                    removed.approxSizeBytes).entryCount < size := by
                  have one := Db.entryCount_of_evictOne evicted
                  omega
                simp only [LockedSection.perform, found] at evicts
                rw [evicted]
                exact evicts.trans (ih _ fewer _ rfl)
      · have stops : db.evictOne = none := by
          simp [Db.evictOne, full]
        rw [stops]
        apply SoloReaches.step .load
        simp [soloStep, advance, full]

theorem solo_set (db : Db hasher) (answer : StoreAnswer)
    (arrangement : Arrangement) (now : Instant) (key : String) (value : Bytes)
    (expiresAt : Option Instant) :
    SoloReaches (returned answer, db)
      (returned .done, db.set arrangement now key value expiresAt) := by
  have inserts : ∀ roomy : Db hasher,
      SoloReaches (preparing ⟨key, value, expiresAt⟩, roomy)
        (returned .done, roomy.setEntry arrangement key
          (Entry.new (asBytes key).length value expiresAt now)) := by
    intro roomy
    have prepares : SoloReaches (preparing ⟨key, value, expiresAt⟩, roomy)
        (waiting (.insert key
          (Entry.new (asBytes key).length value expiresAt now)), roomy) :=
      SoloReaches.step (.prepare now) rfl
    have performs := solo_section roomy (.insert key
      (Entry.new (asBytes key).length value expiresAt now)) now arrangement
    refine prepares.trans ?_
    rw [Db.setEntry]
    cases found : AList.lookup key (roomy.shard (roomy.shardIndex key)) with
    | none =>
        simp only [LockedSection.perform, found] at performs
        exact performs
    | some old =>
        simp only [LockedSection.perform, found] at performs
        exact performs
  rw [Db.set]
  by_cases bounded : 0 < db.maxMemoryBytes
  · have starts : SoloReaches (returned answer, db)
        (loading ⟨key, value, expiresAt⟩, db) := by
      apply SoloReaches.step (.set key value expiresAt)
      simp [soloStep, advance, bounded]
    rw [if_pos bounded]
    exact (starts.trans (solo_evictions db _)).trans (inserts _)
  · have starts : SoloReaches (returned answer, db)
        (preparing ⟨key, value, expiresAt⟩, db) := by
      apply SoloReaches.step (.set key value expiresAt)
      simp [soloStep, advance, bounded]
    rw [if_neg bounded]
    exact starts.trans (inserts db)

end StoreTask

namespace StoreSystem

variable {ι : Type} [Fintype ι] [DecidableEq ι] {hasher : String → UInt64}

/-- No task but this one holds a lock. -/
def Alone (system : StoreSystem ι hasher) (task : ι) : Prop :=
  ∀ other, other ≠ task → (system.tasks other).writes system.db = none ∧
    (system.tasks other).reads = none

theorem step_of_alone {system : StoreSystem ι hasher} {task : ι}
    (alone : system.Alone task) {action : TaskAction} {next : StoreTask}
    {after : Db hasher}
    (taken : (system.tasks task).advance system.db action = some (next, after)) :
    system.step (task, action) =
      some ⟨after, Function.update system.tasks task next⟩ := by
  have available : system.available task action := by
    cases action with
    | lockWrite =>
        rw [StoreSystem.available]
        generalize position : system.tasks task = before at taken
        cases before with
        | waiting code =>
            rw [decide_eq_true_eq]
            intro other
            by_cases same : other = task
            · rw [same, position]
              simp [StoreTask.writes, StoreTask.reads]
            · rw [(alone other same).1, (alone other same).2]
              simp
        | _ => simp [StoreTask.advance] at taken
    | lockRead =>
        rw [StoreSystem.available]
        generalize position : system.tasks task = before at taken
        cases before with
        | scanning idx oldest write =>
            rw [decide_eq_true_eq]
            intro other
            by_cases same : other = task
            · rw [same, position]
              simp [StoreTask.writes]
            · rw [(alone other same).1]
              simp
        | _ => simp [StoreTask.advance] at taken
    | _ => rfl
  rw [step, if_pos available, taken]
  rfl

omit [Fintype ι] in
theorem Alone.update {system : StoreSystem ι hasher} {task : ι}
    (alone : system.Alone task) (after : Db hasher) (next : StoreTask) :
    Alone ⟨after, Function.update system.tasks task next⟩ task := by
  intro other differ
  simp only [Function.update_of_ne differ]
  obtain ⟨unlocked, unread⟩ := alone other differ
  refine ⟨?_, unread⟩
  generalize system.tasks other = position at unlocked ⊢
  cases position <;> first | rfl | cases unlocked

/-- A task's own schedule is a schedule of the system. -/
theorem runActions_of_solo {system : StoreSystem ι hasher} {task : ι}
    (alone : system.Alone task) {actions : List TaskAction} {next : StoreTask}
    {after : Db hasher}
    (ran : runActions StoreTask.soloStep (system.tasks task, system.db) actions =
      some (next, after)) :
    runActions step system (actions.map fun action => (task, action)) =
      some ⟨after, Function.update system.tasks task next⟩ := by
  induction actions generalizing system with
  | nil =>
      cases ran
      rw [Function.update_eq_self]
      rfl
  | cons action actions ih =>
      obtain ⟨⟨moved, changed⟩, taken, rest⟩ := Option.bind_eq_some_iff.mp ran
      rw [List.map_cons, runActions, step_of_alone alone taken, Option.bind_some,
        ih (alone.update changed moved) (by
          simp only [Function.update_self]
          exact rest)]
      simp only [Function.update_idem]

/-- A call that a task makes while no other task holds a lock has the effect
and the answer of the sequential operation. -/
theorem call_alone {system : StoreSystem ι hasher} {task : ι}
    (alone : system.Alone task) {answer : StoreAnswer}
    (outside : system.tasks task = .returned answer) (now : Instant)
    (arrangement : Arrangement) (key : String) (value : Bytes)
    (expiresAt : Option Instant) :
    (∃ actions, runActions step system actions =
      some ⟨(system.db.get now key).2, Function.update system.tasks task
        (.returned (.value (system.db.get now key).1))⟩) ∧
    (∃ actions, runActions step system actions =
      some ⟨system.db.set arrangement now key value expiresAt,
        Function.update system.tasks task (.returned .done)⟩) ∧
    ∃ actions, runActions step system actions =
      some ⟨(system.db.del key).2, Function.update system.tasks task
        (.returned (.flag (system.db.del key).1))⟩ := by
  refine ⟨?_, ?_, ?_⟩
  · obtain ⟨actions, ran⟩ := StoreTask.solo_get system.db answer now key
    rw [← outside] at ran
    exact ⟨_, runActions_of_solo alone ran⟩
  · obtain ⟨actions, ran⟩ := StoreTask.solo_set system.db answer arrangement now
      key value expiresAt
    rw [← outside] at ran
    exact ⟨_, runActions_of_solo alone ran⟩
  · obtain ⟨actions, ran⟩ := StoreTask.solo_del system.db answer key
    rw [← outside] at ran
    exact ⟨_, runActions_of_solo alone ran⟩

end StoreSystem

end RustiCache
