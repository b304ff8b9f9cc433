import RustiCache.ExpiryPurgeRaces

/-!
# When purging is safe

Every action keeps the memory counter right and the notes of all running purges
valid, except a `set` on a noted key.  Such a `set` can make the later removal
take out a live entry and drive the counter below zero.  A purge that nobody
interrupts computes the sequential `purgeExpiredSample`.
-/

namespace RustiCache

namespace PurgeSystem

variable {hasher : String → UInt64}

theorem removing_setTask {system : PurgeSystem hasher} {task : Nat}
    {running : Option PurgeTask} {purge : PurgeTask} {idx : Nat}
    {noted : List (String × Nat)}
    (removing : (system.setTask task running).Removing purge idx noted) :
    running = some purge ∧ purge.phase = .removing idx noted ∨
      system.Removing purge idx noted := by
  obtain ⟨other, runs, phase⟩ := removing
  by_cases same : other = task
  · subst same
    simp only [setTask, Function.update_self] at runs
    exact Or.inl ⟨runs, phase⟩
  · simp only [setTask, Function.update_of_ne same] at runs
    exact Or.inr ⟨other, runs, phase⟩

theorem Sound.setTask {system : PurgeSystem hasher} (sound : system.Sound)
    (task : Nat) {running : Option PurgeTask}
    (valid : ∀ purge idx noted, running = some purge →
      purge.phase = .removing idx noted →
      system.db.Captured purge.now noted) :
    (system.setTask task running).Sound where
  accounted := sound.accounted
  captured := by
    intro purge idx noted removing
    rcases removing_setTask removing with ⟨runs, phase⟩ | before
    · exact valid purge idx noted runs phase
    · exact sound.captured before

/-- An action that only loses entries, with their sizes, is harmless. -/
theorem Sound.of_shrinks {system : PurgeSystem hasher} (sound : system.Sound)
    {db : Db hasher} (accounted : db.Accounted)
    (shrinks : Db.Shrinks system.db db) : Sound ⟨db, system.tasks⟩ where
  accounted := accounted
  captured := fun removing => (sound.captured removing).of_shrinks shrinks

theorem shrinks_getTouch (db : Db hasher) (now : Instant) (key : String) :
    Db.Shrinks db (db.getTouch now key).2 := by
  rw [Db.getTouch]
  split
  next entry found =>
    split
    next => exact Db.Shrinks.refl db
    next => exact Db.shrinks_touch found now
  next => exact Db.Shrinks.refl db

theorem shrinks_getCleanup (db : Db hasher) (now : Instant) (key : String) :
    Db.Shrinks db (db.getCleanup now key) := by
  rw [Db.getCleanup]
  split
  next entry found =>
    split
    next => exact Db.shrinks_removeEntry found _
    next => exact Db.Shrinks.refl db
  next => exact Db.Shrinks.refl db

theorem shrinks_del (db : Db hasher) (key : String) :
    Db.Shrinks db (db.del key).2 := by
  rw [Db.del]
  split
  next entry found => exact Db.shrinks_removeEntry found _
  next => exact Db.Shrinks.refl db

theorem evicted_sound {db : Db hasher} (accounted : db.Accounted) (idx : Nat)
    (key : String) :
    (evicted db idx key).Accounted ∧ Db.Shrinks db (evicted db idx key) := by
  rw [evicted]
  split
  next removed found =>
    exact ⟨accounted.removeEntry found, Db.shrinks_removeEntry found _⟩
  next => exact ⟨accounted, Db.Shrinks.refl db⟩

theorem purgeKeys_accounted {progress : Nat × Db hasher} {idx : Nat}
    {now : Instant} {noted : List (String × Nat)}
    (accounted : progress.2.Accounted)
    (captured : progress.2.Captured now noted) :
    (Db.purgeKeys idx progress noted).2.Accounted := by
  induction noted generalizing progress with
  | nil => exact accounted
  | cons row noted ih =>
      refine ih ?_ (captured.tail idx)
      rcases Db.purgeKey_cases idx progress row with
        ⟨entry, found, removed⟩ | ⟨_, kept⟩
      · have size := (captured row (by simp) entry (Db.find_of_lookup found)).2
        rw [removed, ← size]
        exact accounted.removeEntry found
      · rw [kept]
        exact accounted

theorem Sound.set {system : PurgeSystem hasher} (sound : system.Sound)
    (arrangement : Arrangement) (now : Instant) (key : String) (value : Bytes)
    (expiresAt : Option Instant)
    (undisturbed :
      system.Undisturbed (.set arrangement now key value expiresAt)) :
    Sound ⟨system.db.setEntry arrangement key
      (Entry.new (asBytes key).length value expiresAt now), system.tasks⟩ where
  accounted := sound.accounted.setEntry arrangement key _
  captured := by
    intro purge idx noted removing row member entry found
    change (Db.setEntry _ _ _ _).find row.1 = some entry at found
    rw [Db.find_setEntry] at found
    split at found
    next same =>
      cases found
      rw [← Prod.eta row, same] at member
      exact undisturbed purge idx noted row.2 removing member
    next => exact sound.captured removing row member entry found

/-- Every allowed step keeps the counter right and the notes valid. -/
theorem Sound.step {system next : PurgeSystem hasher} {action : PurgeAction}
    (sound : system.Sound) (undisturbed : system.Undisturbed action)
    (taken : system.step action = some next) : next.Sound := by
  cases action with
  | start task now samplePerShard =>
      simp only [PurgeSystem.step] at taken
      split at taken
      next =>
        cases taken
        refine sound.setTask task ?_
        intro purge idx noted runs phase
        cases runs
        cases phase
      next => cases taken
  | scan task =>
      simp only [PurgeSystem.step] at taken
      split at taken
      next purge _ =>
        split at taken
        next idx _ =>
          split at taken
          next =>
            cases taken
            refine sound.setTask task ?_
            intro after other noted runs phase
            cases runs
            rw [scanned] at phase ⊢
            split at phase
            next => cases phase
            next some =>
              cases phase
              rw [if_neg some]
              exact system.db.captured_keysToRemove _ purge.now _
          next => cases taken
        next => cases taken
      next => cases taken
  | remove task =>
      simp only [PurgeSystem.step] at taken
      split at taken
      next purge runs =>
        split at taken
        next => cases taken
        next idx noted phase =>
          cases taken
          have captured := sound.captured ⟨task, runs, phase⟩
          have removed := sound.of_shrinks
            (purgeKeys_accounted sound.accounted captured)
            (Db.shrinks_purgeKeys idx (purge.purged, system.db) noted)
          refine removed.setTask task ?_
          intro after other notes runsNext phaseNext
          cases runsNext
          cases phaseNext
      next => cases taken
  | finish task =>
      simp only [PurgeSystem.step] at taken
      split at taken
      next =>
        split at taken
        next =>
          cases taken
          refine sound.setTask task ?_
          intro purge idx noted runs
          cases runs
        next => cases taken
      next => cases taken
  | getTouch now key =>
      cases taken
      exact sound.of_shrinks (sound.accounted.getTouch now key)
        (shrinks_getTouch system.db now key)
  | getCleanup now key =>
      cases taken
      exact sound.of_shrinks (sound.accounted.getCleanup now key)
        (shrinks_getCleanup system.db now key)
  | evict idx key =>
      cases taken
      obtain ⟨accounted, shrinks⟩ := evicted_sound sound.accounted idx key
      exact sound.of_shrinks accounted shrinks
  | set arrangement now key value expiresAt =>
      cases taken
      exact sound.set arrangement now key value expiresAt undisturbed
  | del key =>
      cases taken
      exact sound.of_shrinks (sound.accounted.del key)
        (shrinks_del system.db key)

theorem length_purgeKeys (idx : Nat) (progress : Nat × Db hasher)
    (noted : List (String × Nat)) :
    (Db.purgeKeys idx progress noted).2.shards.length =
      progress.2.shards.length := by
  induction noted generalizing progress with
  | nil => rfl
  | cons row noted ih =>
      refine (ih _).trans ?_
      rcases Db.purgeKey_cases idx progress row with ⟨_, _, removed⟩ | ⟨_, kept⟩
      · rw [removed]
        exact List.length_set
      · rw [kept]

theorem length_visits (now : Instant) (samplePerShard : Nat)
    (indices : List Nat) (progress : Nat × Db hasher) :
    (indices.foldl (Db.purgeShard now samplePerShard)
      progress).2.shards.length = progress.2.shards.length := by
  induction indices generalizing progress with
  | nil => rfl
  | cons idx indices ih =>
      exact (ih _).trans (length_purgeKeys idx progress _)

/-- The visits of a purge to the shards from `idx` on, without interruption. -/
theorem visits_uninterrupted (system : PurgeSystem hasher) (task : Nat)
    (now : Instant) (samplePerShard count idx purged : Nat)
    (remaining : idx + count = system.db.shards.length) :
    ∃ actions,
      runActions step
        (system.setTask task
          (some ⟨now, samplePerShard, .scanning idx, purged⟩)) actions =
      (let last := (List.range' idx count).foldl
        (Db.purgeShard now samplePerShard) (purged, system.db)
      some (setTask ⟨last.2, system.tasks⟩ task
        (some ⟨now, samplePerShard, .scanning (idx + count), last.1⟩))) := by
  induction count generalizing system idx purged with
  | zero => exact ⟨[], rfl⟩
  | succ count ih =>
      have bound : idx < system.db.shards.length := by omega
      have scanTaken : (system.setTask task
          (some ⟨now, samplePerShard, .scanning idx, purged⟩)).step
            (.scan task) =
          some (system.setTask task (some (scanned system.db
            ⟨now, samplePerShard, .scanning idx, purged⟩ idx))) := by
        simp [step, setTask, bound]
      rw [List.range'_succ, List.foldl_cons, Nat.add_comm count 1,
        ← Nat.add_assoc, Db.purgeShard]
      cases noted : Db.keysToRemove (system.db.shard idx) now samplePerShard with
      | nil =>
          obtain ⟨actions, ran⟩ := ih system (idx + 1) purged (by omega)
          refine ⟨.scan task :: actions, ?_⟩
          rw [runActions, scanTaken]
          simp only [scanned, noted, List.isEmpty_nil, if_true,
            Option.bind_some]
          exact ran
      | cons row others =>
          have length := length_purgeKeys idx (purged, system.db) (row :: others)
          obtain ⟨actions, ran⟩ := ih
            ⟨(Db.purgeKeys idx (purged, system.db) (row :: others)).2,
              system.tasks⟩ (idx + 1)
            (Db.purgeKeys idx (purged, system.db) (row :: others)).1 (by
              simp only [length]
              omega)
          refine ⟨.scan task :: .remove task :: actions, ?_⟩
          rw [runActions, scanTaken]
          simp only [scanned, noted, List.isEmpty_cons, Option.bind_some,
            runActions, step, setTask, Function.update_self,
            Function.update_idem]
          exact ran

/-- A purge that nobody interrupts is the sequential one. -/
theorem purge_uninterrupted (system : PurgeSystem hasher) {task : Nat}
    (idle : system.tasks task = none) (now : Instant) (samplePerShard : Nat) :
    ∃ actions,
      runActions step system (.start task now samplePerShard :: actions) =
        some ⟨(system.db.purgeExpiredSample now samplePerShard).2,
          system.tasks⟩ := by
  obtain ⟨actions, ran⟩ := visits_uninterrupted system task now samplePerShard
    system.db.shards.length 0 0 (Nat.zero_add _)
  refine ⟨actions ++ [.finish task], ?_⟩
  have started : system.step (.start task now samplePerShard) =
      some (system.setTask task
        (some ⟨now, samplePerShard, .scanning 0, 0⟩)) := by
    simp [step, idle]
  have length := length_visits now samplePerShard
    (List.range' 0 system.db.shards.length) (0, system.db)
  have stillIdle : Function.update system.tasks task none = system.tasks :=
    Function.update_eq_self_iff.mpr idle.symm
  rw [runActions, started, Option.bind_some, runActions_append, ran,
    Db.purgeExpiredSample, List.range_eq_range']
  simp only [Option.bind_some, runActions, step, setTask,
    Function.update_self, length, Nat.zero_add, if_true, Function.update_idem,
    stillIdle]

/-- A fresh store with no purge running. -/
def initial (hasher : String → UInt64) (shardCount maxMemoryBytes : Nat) :
    PurgeSystem hasher :=
  ⟨Db.withConfig hasher shardCount maxMemoryBytes, fun _ => none⟩

theorem initial_sound (hasher : String → UInt64)
    (shardCount maxMemoryBytes : Nat) :
    (initial hasher shardCount maxMemoryBytes).Sound where
  accounted := Db.accounted_withConfig hasher shardCount maxMemoryBytes
  captured := by
    rintro purge idx noted ⟨task, runs, _⟩
    cases runs

/-- Purging damages no live data in any run in which no `set` lands on a key
between the scan that noted it and its removal, unless the new entry has expired
and has the noted size. -/
theorem purge_safe_of_undisturbed (hasher : String → UInt64)
    (shardCount maxMemoryBytes : Nat) (actions : List PurgeAction)
    (system : PurgeSystem hasher)
    (reaches : Reaches step Undisturbed
      (initial hasher shardCount maxMemoryBytes) actions system) :
    system.Safe :=
  (reaches.invariant Sound.step
    (initial_sound hasher shardCount maxMemoryBytes)).safe

/-- A purge that finds an expired entry and is left alone. -/
def quietActions : List PurgeAction :=
  [.start 0 10 20, .scan 0, .getCleanup 11 "other", .remove 0, .finish 0]

theorem purge_safe_of_undisturbed_quietActions :
    ∃ system,
      Reaches step Undisturbed (initial (fun _ => 0) 1 0)
        (.set .front 0 "k" [1] (some 10) :: quietActions) system ∧
      system.Safe := by
  obtain ⟨first, stored⟩ : ∃ first, (initial (fun _ => 0) 1 0).step
      (.set .front 0 "k" [1] (some 10)) = some first := ⟨_, rfl⟩
  have unnoted : (initial (fun _ => 0) 1 0).Undisturbed
      (.set .front 0 "k" [1] (some 10)) := by
    rintro purge idx noted size ⟨task, runs, _⟩
    cases runs
  have ran : (((initial (fun _ => 0) 1 0).step
      (.set .front 0 "k" [1] (some 10))).bind fun first =>
        runActions step first quietActions).isSome := by
    decide +kernel
  rw [stored] at ran
  obtain ⟨system, last⟩ := Option.isSome_iff_exists.mp ran
  have quiet : ∀ action ∈ quietActions, ∀ state : PurgeSystem (fun _ => 0),
      state.Undisturbed action := by
    simp [quietActions, Undisturbed]
  have reaches := Reaches.cons unnoted stored (reaches_of_always quiet last)
  exact ⟨system, reaches, purge_safe_of_undisturbed _ 1 0 _ system reaches⟩

/-- An expired entry is noted by a scan and overwritten by a live one. -/
def raceActions : List PurgeAction :=
  [.set .front 0 "k" (List.replicate 100 0) (some 10), .start 0 10 20, .scan 0,
    .set .front 11 "k" [1] none]

/-- The purge of `raceActions` just before its removal. -/
def racingPurge : PurgeTask :=
  ⟨10, 20, .removing 0 [("k", 173)], 0⟩

/-- The removal takes out the live entry, and subtracting the size of the old
one drives the counter below zero. -/
theorem set_between_scan_and_removal :
    ∃ system after,
      Reaches step (fun _ _ => True) (initial (fun _ => 0) 1 0) raceActions
        system ∧
      ¬ system.Safe ∧
      system.step (.remove 0) = some after ∧
      (system.db.find "k").map Entry.expiresAt = some none ∧
      after.db.find "k" = none ∧
      after.db.storedSize = 0 ∧
      after.db.usedMemory.toNat = 2 ^ 64 - 99 := by
  obtain ⟨system, ran⟩ := Option.isSome_iff_exists.mp
    (show (runActions step (initial (fun _ => 0) 1 0) raceActions).isSome by
      decide +kernel)
  have before : (runActions step (initial (fun _ => 0) 1 0) raceActions).map
      (fun system => (system.tasks 0,
        removals 0 (0, system.db) [("k", 173)], system.db.storedSize,
        (system.db.find "k").map Entry.expiresAt)) =
      some (some racingPurge,
        [⟨⟨[1], none, 11, 74⟩, 173, 74⟩], 74, some none) := by
    decide +kernel
  have after : ((runActions step (initial (fun _ => 0) 1 0) raceActions).bind
      fun system => (system.step (.remove 0)).map fun after =>
        (after.db.find "k", after.db.storedSize, after.db.usedMemory.toNat)) =
      some (none, 0, 2 ^ 64 - 99) := by
    decide +kernel
  simp only [ran, Option.map_some, Option.some.injEq, Prod.mk.injEq] at before
  simp only [ran, Option.bind_some] at after
  obtain ⟨last, removed, observed⟩ := Option.map_eq_some_iff.mp after
  simp only [Prod.mk.injEq] at observed
  obtain ⟨running, taken, size, live⟩ := before
  refine ⟨system, last, reaches_of_runActions ran, ?_, removed, live, observed⟩
  intro safe
  have harmless := safe.2 racingPurge 0 [("k", 173)] ⟨0, running, rfl⟩
    (by rw [size]; decide) ⟨⟨[1], none, 11, 74⟩, 173, 74⟩ (by
      rw [racingPurge, taken]
      exact List.mem_singleton_self _)
  exact absurd harmless.1 (by decide)

end PurgeSystem

end RustiCache
