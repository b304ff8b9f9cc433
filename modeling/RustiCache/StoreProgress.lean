import RustiCache.LoopRounds
import RustiCache.StoreLinearizability

/-!
# Calls of the concurrent store finish

A task holds at most one lock and never waits while it holds one, so some task
can always go on.  The eviction loop of a `set` may be drawn out by other tasks,
but each of its rounds takes an entry from the store or is the last.  Pricing an
entry like a round therefore gives a number that goes down with every step: the
calls under way finish within so many steps, whichever way they are scheduled.
-/

namespace RustiCache

/-- The steps that a round of the eviction loop costs at most. -/
def roundCost (shards : Nat) : Nat :=
  3 * shards + 6

namespace LockedSection

/-- The steps from the table update of a section to the end of the call; an
insertion also pays for the round that may remove its entry again. -/
def stepsLeft (shards : Nat) : LockedSection → Nat
  | touch _ => 6
  | cleanup _ => 3
  | insert _ _ => 4 + roundCost shards
  | remove _ => 3
  | evict _ _ _ => 8 + roundCost shards

end LockedSection

namespace StoreTask

/-- The steps that a task has left, rounds of eviction paid by their victims
aside. -/
def stepsLeft (shards : Nat) : StoreTask → Nat
  | returned _ => 0
  | loading _ => 3 * shards + 11 + roundCost shards
  | scanning idx _ _ => 3 * (shards - idx) + 10 + roundCost shards
  | reading idx _ _ => 3 * (shards - (idx + 1)) + 12 + roundCost shards
  | sampled idx _ _ => 3 * (shards - (idx + 1)) + 11 + roundCost shards
  | preparing _ => 6 + roundCost shards
  | waiting code => code.stepsLeft shards + 1
  | locked code => code.stepsLeft shards
  | adjusting _ owed next =>
      owed.length + 1 +
        match next with
        | .done _ => 0
        | .cleanup _ => 4
        | .load _ => 3 * shards + 11 + roundCost shards
        | .prepare _ => 6 + roundCost shards

theorem stepsLeft_adjusting (shards idx : Nat) (owed : List Adjustment)
    (next : AfterSection) :
    (adjusting idx owed next).stepsLeft shards =
      owed.length + 1 + (resume next).stepsLeft shards := by
  cases next <;> rfl

end StoreTask

namespace LockedSection

variable {hasher : String → UInt64}

theorem shards_perform (db : Db hasher) (now touchedAt : Instant)
    (arrangement : Arrangement) (code : LockedSection) :
    (code.perform db now touchedAt arrangement).1.shards.length =
      db.shards.length := by
  rw [Db.shards_length, Db.shards_length,
    (code.perform_performed db now touchedAt arrangement).mask]

/-- The table update of a section costs a step, even though an insertion may
leave an entry to evict and an eviction may lead to another round. -/
theorem perform_stepsLeft (db : Db hasher) (now touchedAt : Instant)
    (arrangement : Arrangement) (code : LockedSection) (idx : Nat) :
    roundCost db.shards.length *
          (code.perform db now touchedAt arrangement).1.entryCount +
        (StoreTask.adjusting idx
          (code.perform db now touchedAt arrangement).2.1
          (code.perform db now touchedAt arrangement).2.2).stepsLeft
          db.shards.length + 1 ≤
      roundCost db.shards.length * db.entryCount +
        code.stepsLeft db.shards.length := by
  have removed : ∀ {idx key entry},
      AList.lookup key (db.shard idx) = some entry →
      (db.removeEntry idx key).entryCount + 1 = db.entryCount :=
    fun found => Db.total_removeEntry (fun _ _ => 1) found
  have paid : ∀ {after before : Nat}, after + 1 = before →
      roundCost db.shards.length * after + roundCost db.shards.length =
        roundCost db.shards.length * before := by
    rintro after before rfl
    rw [Nat.mul_succ]
  cases code with
  | touch key =>
      rw [perform]
      split
      next entry found =>
        split
        next => simp [StoreTask.stepsLeft, stepsLeft]
        next =>
          have same : (db.replaceEntry key (entry.touch touchedAt)).entryCount =
              db.entryCount :=
            Db.total_replaceEntry _ found rfl
          simp [StoreTask.stepsLeft, stepsLeft, same]
      next => simp [StoreTask.stepsLeft, stepsLeft]
  | cleanup key =>
      rw [perform]
      split
      next entry found =>
        split
        next =>
          have fewer := paid (removed found)
          simp only [StoreTask.stepsLeft, stepsLeft, List.length_cons,
            List.length_nil]
          omega
        next => simp [StoreTask.stepsLeft, stepsLeft]
      next => simp [StoreTask.stepsLeft, stepsLeft]
  | insert key newEntry =>
      have counted := db.total_insertEntry (fun _ _ => 1) arrangement key newEntry
      have atMost : (db.insertEntry arrangement key newEntry).entryCount ≤
          db.entryCount + 1 := by
        rw [Db.entryCount, Db.entryCount]
        omega
      have cost := Nat.mul_le_mul_left (roundCost db.shards.length) atMost
      rw [Nat.mul_succ] at cost
      rw [perform]
      split
      all_goals
        simp only [StoreTask.stepsLeft, stepsLeft, List.length_cons,
          List.length_nil]
        omega
  | remove key =>
      rw [perform]
      split
      next entry found =>
        have fewer := paid (removed found)
        simp only [StoreTask.stepsLeft, stepsLeft, List.length_cons,
          List.length_nil]
        omega
      next => simp [StoreTask.stepsLeft, stepsLeft]
  | evict shard key write =>
      rw [perform]
      split
      next entry found =>
        -- the entry removed pays for the next round
        have fewer := paid (removed found)
        have price : roundCost db.shards.length = 3 * db.shards.length + 6 := rfl
        simp only [StoreTask.stepsLeft, stepsLeft, List.length_cons,
          List.length_nil]
        omega
      next =>
        simp only [StoreTask.stepsLeft, stepsLeft, List.length_nil]
        omega

end LockedSection

namespace StoreTask

variable {hasher : String → UInt64}

theorem shards_advance {db after : Db hasher} {task next : StoreTask}
    {action : TaskAction} (taken : task.advance db action = some (next, after)) :
    after.shards.length = db.shards.length := by
  unfold advance at taken
  split at taken
  case h_2 | h_4 | h_5 => split at taken <;> cases taken <;> rfl
  case h_8 =>
    split at taken
    next => split at taken <;> cases taken <;> rfl
    next => cases taken
  case h_11 code now touchedAt arrangement =>
    cases taken
    exact code.shards_perform db now touchedAt arrangement
  case h_15 => cases taken
  all_goals
    cases taken
    rfl

/-- Every step other than a call brings the work down. -/
theorem advance_stepsLeft {db after : Db hasher} {task next : StoreTask}
    {action : TaskAction} (silent : action.op = none)
    (taken : task.advance db action = some (next, after)) :
    roundCost db.shards.length * after.entryCount +
        next.stepsLeft db.shards.length + 1 ≤
      roundCost db.shards.length * db.entryCount +
        task.stepsLeft db.shards.length := by
  unfold advance at taken
  split at taken
  case h_1 | h_2 | h_3 => cases silent
  case h_4 =>
    split at taken <;> cases taken <;> simp only [stepsLeft] <;> omega
  case h_5 =>
    split at taken
    next =>
      cases taken
      simp only [stepsLeft]
      omega
    next => cases taken
  case h_8 =>
    split at taken
    next =>
      split at taken <;> cases taken <;>
        simp only [stepsLeft, LockedSection.stepsLeft] <;> omega
    next => cases taken
  case h_11 code now touchedAt arrangement =>
    cases taken
    exact code.perform_stepsLeft db now touchedAt arrangement _
  case h_12 | h_13 =>
    cases taken
    simp only [stepsLeft_adjusting, List.length_cons, Db.entryCount,
      Db.total_fetchSub, Db.total_fetchAdd]
    omega
  case h_14 idx next =>
    cases taken
    rw [stepsLeft_adjusting, List.length_nil]
    omega
  case h_15 => cases taken
  all_goals
    cases taken
    simp only [stepsLeft, LockedSection.stepsLeft]
    omega

/-- The sampling pass stays within the shards. -/
def inRange (shards : Nat) : StoreTask → Bool
  | scanning idx _ _ => decide (idx ≤ shards)
  | reading idx _ _ => decide (idx < shards)
  | sampled idx _ _ => decide (idx < shards)
  | _ => true

theorem inRange_advance {db after : Db hasher} {task next : StoreTask}
    {action : TaskAction} (taken : task.advance db action = some (next, after))
    (inside : task.inRange db.shards.length) :
    next.inRange db.shards.length := by
  unfold advance at taken
  split at taken
  case h_2 => split at taken <;> cases taken <;> rfl
  case h_4 =>
    split at taken <;> cases taken
    · simp [inRange]
    · rfl
  case h_5 =>
    split at taken
    next bound =>
      cases taken
      exact decide_eq_true bound
    next => cases taken
  case h_6 =>
    cases taken
    exact inside
  case h_7 =>
    cases taken
    exact decide_eq_true (of_decide_eq_true inside)
  case h_8 =>
    split at taken
    next => split at taken <;> cases taken <;> rfl
    next => cases taken
  case h_14 idx next =>
    cases taken
    cases next <;> rfl
  case h_15 => cases taken
  all_goals
    cases taken
    rfl

end StoreTask

namespace StoreSystem

variable {ι : Type} [Fintype ι] [DecidableEq ι] {hasher : String → UInt64}

/-- A bound on the steps that the calls under way still take together. -/
def work (system : StoreSystem ι hasher) : Nat :=
  roundCost system.db.shards.length * system.db.entryCount +
    ∑ task, (system.tasks task).stepsLeft system.db.shards.length

theorem work_step {system next : StoreSystem ι hasher} {action : ι × TaskAction}
    (silent : action.2.op = none) (taken : system.step action = some next) :
    next.work + 1 ≤ system.work := by
  obtain ⟨moved, after, advanced, rfl⟩ := advance_of_step taken
  have lower := StoreTask.advance_stepsLeft silent advanced
  have shared := sum_update (StoreTask.stepsLeft system.db.shards.length)
    system.tasks action.1 moved
  simp only [work, StoreTask.shards_advance advanced]
  omega

/-- No call is under way. -/
def Idle (system : StoreSystem ι hasher) : Prop :=
  ∀ task, ∃ answer, system.tasks task = .returned answer

theorem step_of_advance {system : StoreSystem ι hasher} {task : ι}
    {action : TaskAction} {moved : StoreTask} {after : Db hasher}
    (available : system.available task action)
    (advanced : (system.tasks task).advance system.db action =
      some (moved, after)) :
    system.step (task, action) =
      some ⟨after, Function.update system.tasks task moved⟩ := by
  rw [step, if_pos available, advanced]
  rfl

/-- A task that holds a lock can go on. -/
theorem holder_proceeds {system : StoreSystem ι hasher} {task : ι}
    (holds : (system.tasks task).writes system.db ≠ none ∨
      (system.tasks task).reads ≠ none) :
    ∃ action next, TaskAction.op action = none ∧
      system.step (task, action) = some next := by
  cases position : system.tasks task with
  | reading idx oldest write =>
      exact ⟨.sample, _, rfl, step_of_advance rfl (by rw [position]; rfl)⟩
  | sampled idx oldest write =>
      exact ⟨.unlockRead, _, rfl, step_of_advance rfl (by rw [position]; rfl)⟩
  | locked code =>
      exact ⟨.perform 0 0 .front, _, rfl,
        step_of_advance rfl (by rw [position]; rfl)⟩
  | adjusting idx owed next =>
      match owed with
      | [] =>
          exact ⟨.unlock, _, rfl, step_of_advance rfl (by rw [position]; rfl)⟩
      | .fetchSub amount :: owed =>
          exact ⟨.adjust, _, rfl, step_of_advance rfl (by rw [position]; rfl)⟩
      | .fetchAdd amount :: owed =>
          exact ⟨.adjust, _, rfl, step_of_advance rfl (by rw [position]; rfl)⟩
  | _ => simp [position, StoreTask.writes, StoreTask.reads] at holds

/-- Where no lock is held, every task with a call under way can go on. -/
theorem free_proceeds {system : StoreSystem ι hasher} {task : ι}
    (free : ∀ other, (system.tasks other).writes system.db = none ∧
      (system.tasks other).reads = none)
    (inside : (system.tasks task).inRange system.db.shards.length)
    (busy : ∀ answer, system.tasks task ≠ .returned answer) :
    ∃ action next, TaskAction.op action = none ∧
      system.step (task, action) = some next := by
  have goes : ∀ action {moved after}, system.available task action →
      (system.tasks task).advance system.db action = some (moved, after) →
      action.op = none →
      ∃ action next, TaskAction.op action = none ∧
        system.step (task, action) = some next :=
    fun action _ _ available advanced silent =>
      ⟨action, _, silent, step_of_advance available advanced⟩
  obtain ⟨unwritten, unread⟩ := free task
  cases position : system.tasks task with
  | returned answer => exact absurd position (busy answer)
  | loading write =>
      by_cases full : system.db.maxMemoryBytes ≤ system.db.usedMemory.toNat
      · exact goes .load rfl
          (by rw [position, StoreTask.advance, if_pos full]) rfl
      · exact goes .load rfl
          (by rw [position, StoreTask.advance, if_neg full]) rfl
  | scanning idx oldest write =>
      rw [position] at inside
      rcases Nat.lt_or_eq_of_le (of_decide_eq_true inside) with more | last
      · refine goes .lockRead ?_
          (by rw [position, StoreTask.advance, if_pos more]) rfl
        simp [available, position, free]
      · cases oldest with
        | none =>
            exact goes .choose rfl
              (by rw [position, StoreTask.advance, if_pos last]) rfl
        | some victim =>
            obtain ⟨oldestIdx, key, accessed⟩ := victim
            exact goes .choose rfl
              (by rw [position, StoreTask.advance, if_pos last]) rfl
  | preparing write =>
      exact goes (.prepare 0) rfl (by rw [position]; rfl) rfl
  | waiting code =>
      refine goes .lockWrite ?_ (by rw [position]; rfl) rfl
      simp [available, position, free]
  | _ => simp [position, StoreTask.writes, StoreTask.reads] at unwritten unread

/-- No task waits for ever: while a call is under way, some task can go on. -/
theorem proceeds {system : StoreSystem ι hasher}
    (inside : ∀ task, (system.tasks task).inRange system.db.shards.length)
    (busy : ¬ system.Idle) :
    ∃ action next, TaskAction.op action.2 = none ∧
      system.step action = some next := by
  by_cases held : ∃ task, (system.tasks task).writes system.db ≠ none ∨
      (system.tasks task).reads ≠ none
  · obtain ⟨task, holds⟩ := held
    obtain ⟨action, next, silent, taken⟩ := holder_proceeds holds
    exact ⟨(task, action), next, silent, taken⟩
  · have free : ∀ other, (system.tasks other).writes system.db = none ∧
        (system.tasks other).reads = none := by
      simpa using held
    obtain ⟨task, unfinished⟩ := not_forall.mp busy
    obtain ⟨action, next, silent, taken⟩ := free_proceeds free (inside task)
      fun answer returned => unfinished ⟨answer, returned⟩
    exact ⟨(task, action), next, silent, taken⟩

theorem inRange_step {system next : StoreSystem ι hasher}
    {action : ι × TaskAction}
    (inside : ∀ task, (system.tasks task).inRange system.db.shards.length)
    (taken : system.step action = some next) (task : ι) :
    (next.tasks task).inRange next.db.shards.length := by
  obtain ⟨moved, after, advanced, rfl⟩ := advance_of_step taken
  change (Function.update system.tasks action.1 moved task).inRange
    after.shards.length
  rw [StoreTask.shards_advance advanced]
  by_cases same : task = action.1
  · rw [same, Function.update_self]
    exact StoreTask.inRange_advance advanced (inside action.1)
  · rw [Function.update_of_ne same]
    exact inside task

/-- From any state that can arise, the calls under way finish if no new ones are
made, whichever way the tasks are scheduled: they take no more steps than the
work left, and until all have returned some task can go on. -/
theorem calls_finish (ι : Type) [Fintype ι] [DecidableEq ι]
    (hasher : String → UInt64) (shardCount maxMemoryBytes : Nat)
    (actions further : List (ι × TaskAction))
    (system later : StoreSystem ι hasher)
    (reaches : Reaches step (fun _ _ => True)
      (initial ι hasher shardCount maxMemoryBytes) actions system)
    (continues : Reaches step (fun _ action => action.2.op = none) system
      further later) :
    further.length + later.work ≤ system.work ∧
      (later.Idle ∨ ∃ action next, TaskAction.op action.2 = none ∧
        later.step action = some next) := by
  constructor
  · have bound : further.countP (fun _ => true) + later.work ≤ system.work :=
      continues.countP_add_le work fun silent taken => work_step silent taken
    rwa [List.countP_true] at bound
  · have inside : ∀ task, (later.tasks task).inRange later.db.shards.length :=
      continues.invariant (fun inside _ taken => inRange_step inside taken)
        (reaches.invariant (fun inside _ taken => inRange_step inside taken)
          fun _ => rfl)
    by_cases idle : later.Idle
    · exact Or.inl idle
    · exact Or.inr (proceeds inside idle)

/-- One task begins to make room for its write while another removes a key. -/
def crowdedActions : List (Bool × TaskAction) :=
  [(false, .set "a" [1] none), (false, .load), (false, .prepare 0),
    (false, .lockWrite), (false, .perform 0 0 .front), (false, .adjust),
    (false, .unlock), (false, .set "bb" [2] none), (true, .del "a"),
    (false, .load), (false, .lockRead), (false, .sample)]

theorem calls_finish_crowdedActions :
    ∃ system later : StoreSystem Bool fun key => UInt64.ofNat key.length,
      Reaches step (fun _ _ => True) (initial Bool _ 2 1) crowdedActions
        system ∧
      Reaches step (fun _ action => action.2.op = none) system
        [(false, .unlockRead), (true, .lockWrite)] later ∧
      2 + later.work ≤ system.work := by
  obtain ⟨system, ran⟩ := Option.isSome_iff_exists.mp
    (show (runActions step (initial Bool
        (fun key => UInt64.ofNat key.length) 2 1) crowdedActions).isSome by
      decide +kernel)
  obtain ⟨later, ranFurther⟩ := Option.isSome_iff_exists.mp
    (show (runActions step system
        [(false, .unlockRead), (true, .lockWrite)]).isSome by
      have whole : (runActions step (initial Bool
          (fun key => UInt64.ofNat key.length) 2 1)
          (crowdedActions ++ [(false, .unlockRead), (true, .lockWrite)])).isSome := by
        decide +kernel
      rwa [runActions_append, ran] at whole)
  have reaches := reaches_of_runActions ran
  have continues : Reaches step (fun _ action => action.2.op = none) system
      [(false, .unlockRead), (true, .lockWrite)] later :=
    reaches_of_always (by simp [TaskAction.op]) ranFurther
  exact ⟨system, later, reaches, continues,
    (calls_finish Bool _ 2 1 crowdedActions _ system later reaches
      continues).1⟩

end StoreSystem

end RustiCache
