import RustiCache.AtomicObjects
import RustiCache.ConcurrentStoreInvariant
import RustiCache.TimedMapRefinement

/-!
# The concurrent store is linearizable

The tasks of a store share one clock.  What a caller sees of them are the calls,
the answers and the clock, and this is what a caller of an atomic timed map
could have seen: every call takes effect at one instant between call and
return.  For `get`, `set` and `del` that instant is the table update under the
lock of the key's shard; the lazy cleanup of `get` comes after it and removes
only what has expired.  A store with a memory bound may also drop bindings.
-/

namespace RustiCache

/-- A timed map and the time. -/
structure ClockedMap where
  clock : Instant
  map : TimedMap String Bytes Instant

namespace ClockedMap

/-- The answers of a timed map at its time.  A binding that has expired may or
may not be reported by `del`. -/
def Answers (state : ClockedMap) : StoreOp → StoreAnswer → Prop
  | .get key, answer => answer = .value (state.map.get state.clock key)
  | .set _ _ _, answer => answer = .done
  | .del key, answer =>
      ∃ removed, answer = .flag removed ∧
        (removed = true → (state.map key).isSome) ∧
        (removed = false → state.map.get state.clock key = none)
  | _, _ => False

/-- The timed map as an atomic object.  Time is seen to pass, and a bounded map
may drop a binding at any time. -/
def spec (bounded : Prop) : AtomicSpec ClockedMap StoreOp StoreAnswer Instant where
  serves state op answer next :=
    state.Answers op answer ∧ next = ⟨state.clock, op.apply state.map⟩
  observes state later next :=
    state.clock ≤ later ∧ next = ⟨later, state.map⟩
  moves state next :=
    bounded ∧ ∃ key, next = ⟨state.clock, state.map.delete key⟩

end ClockedMap

/-- An event that a caller of the store can see. -/
abbrev StoreEvent (ι : Type) : Type :=
  ObjectEvent ι StoreOp StoreAnswer Instant

namespace TaskAction

/-- The call that an action makes. -/
def op : TaskAction → Option StoreOp
  | get key => some (.get key)
  | set key value expiresAt => some (.set key value expiresAt)
  | del key => some (.del key)
  | _ => none

/-- The clock readings of an action are taken at its time; that of a touch may
come a little later. -/
def timely (clock : Instant) : TaskAction → Bool
  | prepare now => now = clock
  | perform now touchedAt _ => now = clock && decide (clock ≤ touchedAt)
  | _ => true

end TaskAction

/-- A store with its tasks, the clock, and what has been seen so far. -/
structure ClockedStore (ι : Type) (hasher : String → UInt64) where
  clock : Instant
  system : StoreSystem ι hasher
  seen : List (StoreEvent ι)

inductive ClockedAction (ι : Type) where
  | tick (later : Instant)
  | advance (task : ι) (action : TaskAction)

/-- What is seen of an action of a task that takes it to a position. -/
def TaskAction.shows {ι : Type} (task : ι) (action : TaskAction)
    (next : StoreTask) : List (StoreEvent ι) :=
  match action.op, next with
  | some op, _ => [.call task op]
  | none, .returned answer => [.ret task answer]
  | none, _ => []

namespace TaskAction

variable {ι : Type} (task : ι) {action : TaskAction}

theorem shows_of_call {op : StoreOp} (made : action.op = some op)
    (next : StoreTask) : action.shows task next = [.call task op] := by
  simp [shows, made]

theorem shows_of_return (silent : action.op = none) (answer : StoreAnswer) :
    action.shows task (.returned answer) = [.ret task answer] := by
  simp [shows, silent]

theorem shows_of_work (silent : action.op = none) {next : StoreTask}
    (inside : ∀ answer, next ≠ .returned answer) :
    action.shows task next = [] := by
  cases next with
  | returned answer => exact absurd rfl (inside answer)
  | _ => simp [shows, silent]

end TaskAction

namespace ClockedStore

variable {ι : Type} [Fintype ι] [DecidableEq ι] {hasher : String → UInt64}

def step (store : ClockedStore ι hasher) :
    ClockedAction ι → Option (ClockedStore ι hasher)
  | .tick later =>
      if store.clock ≤ later then
        some { store with
          clock := later
          seen := store.seen ++ [.environment later] }
      else
        none
  | .advance task action =>
      if action.timely store.clock then
        (store.system.step (task, action)).map fun next =>
          { store with
            system := next
            seen := store.seen ++ action.shows task (next.tasks task) }
      else
        none

def initial (ι : Type) (hasher : String → UInt64)
    (shardCount maxMemoryBytes : Nat) : ClockedStore ι hasher :=
  ⟨0, StoreSystem.initial ι hasher shardCount maxMemoryBytes, []⟩

end ClockedStore

/-- The call of `set` that a write belongs to. -/
def PendingWrite.op (write : PendingWrite) : StoreOp :=
  .set write.key write.value write.expiresAt

/-- How far a task is with its call when it is about to enter a section. -/
def LockedSection.standing : LockedSection → ClientCall StoreOp StoreAnswer
  | touch key => .called (.get key)
  | cleanup _ => .served (.value none)
  | insert key newEntry => .called (.set key newEntry.value newEntry.expiresAt)
  | remove key => .called (.del key)
  | evict _ _ write => .called write.op

def AfterSection.standing : AfterSection → ClientCall StoreOp StoreAnswer
  | done answer => .served answer
  | cleanup _ => .served (.value none)
  | load write => .called write.op
  | prepare write => .called write.op

def LockedSection.evicts : LockedSection → Bool
  | evict _ _ _ => true
  | _ => false

def AfterSection.evicts : AfterSection → Bool
  | load _ => true
  | _ => false

namespace StoreTask

/-- How far a task is with its call. -/
def standing : StoreTask → ClientCall StoreOp StoreAnswer
  | returned _ => .idle
  | loading write => .called write.op
  | scanning _ _ write => .called write.op
  | reading _ _ write => .called write.op
  | sampled _ _ write => .called write.op
  | preparing write => .called write.op
  | waiting code => code.standing
  | locked code => code.standing
  | adjusting _ _ next => next.standing

/-- The task is in the eviction loop, which only a bounded store has. -/
def evicts : StoreTask → Bool
  | loading _ => true
  | scanning _ _ _ => true
  | reading _ _ _ => true
  | sampled _ _ _ => true
  | waiting code => code.evicts
  | locked code => code.evicts
  | adjusting _ _ next => next.evicts
  | _ => false

end StoreTask

/-- What a step may do to a call and to the contents of the store, other than
taking the call or returning from it. -/
inductive StoreEffect (bounded : Prop) (clock : Instant)
    (before after : TimedMap String Bytes Instant) :
    ClientCall StoreOp StoreAnswer → ClientCall StoreOp StoreAnswer → Prop where
  | keep {standing : ClientCall StoreOp StoreAnswer}
      (forgets : TimedMap.Forgets clock before after) :
      StoreEffect bounded clock before after standing standing
  | serve {op : StoreOp} {answer : StoreAnswer}
      (answers : (ClockedMap.mk clock before).Answers op answer)
      (applied : after = op.apply before) :
      StoreEffect bounded clock before after (.called op) (.served answer)
  | drop {standing : ClientCall StoreOp StoreAnswer} {key : String}
      (allowed : bounded) (dropped : after = before.delete key) :
      StoreEffect bounded clock before after standing standing

namespace LockedSection

variable {hasher : String → UInt64}

theorem touch_answers (db : Db hasher) (now touchedAt : Instant)
    (arrangement : Arrangement) (key : String) :
    ((touch key).perform db now touchedAt arrangement).1.contents =
        db.contents ∧
      ((touch key).perform db now touchedAt arrangement).2.2.standing =
        .served (.value (db.contents.get now key)) := by
  rw [perform]
  cases found : AList.lookup key (db.shard (db.shardIndex key)) with
  | none =>
      have unbound : db.contents key = none := by
        rw [Db.contents, Db.find, found]
        rfl
      rw [TimedMap.get_of_none unbound]
      exact ⟨rfl, rfl⟩
  | some entry =>
      rw [TimedMap.get_of_binding (Db.contents_of_lookup found)]
      cases live : TimedMap.liveAt now entry.expiresAt with
      | false =>
          simp only [Entry.isExpired_eq, live]
          exact ⟨rfl, rfl⟩
      | true =>
          simp only [Entry.isExpired_eq, live]
          exact ⟨Db.contents_touch found touchedAt, rfl⟩

/-- The table update of a section is where its call takes effect, if it has not
done so before. -/
theorem perform_effect {bounded : Prop} (db : Db hasher)
    (now touchedAt : Instant) (arrangement : Arrangement) (code : LockedSection)
    (loop : code.evicts → bounded) :
    StoreEffect bounded now db.contents
      (code.perform db now touchedAt arrangement).1.contents code.standing
      (code.perform db now touchedAt arrangement).2.2.standing := by
  cases code with
  | touch key =>
      obtain ⟨same, served⟩ := touch_answers db now touchedAt arrangement key
      rw [same, served]
      exact .serve rfl rfl
  | cleanup key =>
      rw [perform]
      split
      next entry found =>
        split
        next expired =>
          refine .keep ?_
          rw [Db.contents_removeEntry]
          exact TimedMap.Forgets.of_delete (Db.expiredBy_contents found expired)
        next => exact .keep (TimedMap.Forgets.refl now db.contents)
      next => exact .keep (TimedMap.Forgets.refl now db.contents)
  | insert key newEntry =>
      have written := Db.contents_of_find
        (db.find_insertEntry arrangement key newEntry)
      rw [perform]
      split
      next => exact .serve rfl written
      next => exact .serve rfl written
  | remove key =>
      rw [perform]
      split
      next entry found =>
        refine .serve ⟨true, rfl, ?_, by simp⟩ (db.contents_removeEntry key)
        intro _
        change (db.contents key).isSome
        rw [Db.contents_of_lookup found]
        rfl
      next missing =>
        have unbound : db.contents key = none := by
          rw [Db.contents, Db.find, missing]
          rfl
        refine .serve ⟨false, rfl, by simp, ?_⟩ ?_
        · intro _
          exact TimedMap.get_of_none unbound now
        · exact (Function.update_eq_self_iff.mpr unbound.symm).symm
  | evict idx key write =>
      rw [perform]
      split
      next removed found =>
        exact .drop (loop rfl) (Db.contents_removeEntry_of_lookup found)
      next => exact .keep (TimedMap.Forgets.refl now db.contents)

theorem maxMemoryBytes_perform (db : Db hasher) (now touchedAt : Instant)
    (arrangement : Arrangement) (code : LockedSection) :
    (code.perform db now touchedAt arrangement).1.maxMemoryBytes =
      db.maxMemoryBytes := by
  cases code <;> simp only [perform] <;> split <;> try split
  all_goals rfl

theorem evicts_of_perform {db : Db hasher} {now touchedAt : Instant}
    {arrangement : Arrangement} (code : LockedSection)
    (inside : (code.perform db now touchedAt arrangement).2.2.evicts) :
    code.evicts := by
  cases code with
  | evict idx key write => rfl
  | touch key | cleanup key | insert key newEntry | remove key =>
      simp only [perform] at inside
      split at inside <;> (try split at inside) <;> cases inside

end LockedSection

namespace StoreTask

variable {hasher : String → UInt64}

/-- A step of a task as its caller and the contents see it. -/
inductive Proceeds (bounded : Prop) (clock : Instant) (db after : Db hasher)
    (task next : StoreTask) (action : TaskAction) : Prop where
  | calls {op : StoreOp} (made : action.op = some op)
      (idle : task.standing = .idle) (called : next.standing = .called op)
      (same : after = db)
  | returns {answer : StoreAnswer} (silent : action.op = none)
      (returned : next = .returned answer)
      (served : task.standing = .served answer) (same : after = db)
  | works (silent : action.op = none)
      (inside : ∀ answer, next ≠ .returned answer)
      (effect : StoreEffect bounded clock db.contents after.contents
        task.standing next.standing)

theorem Proceeds.quietly {bounded : Prop} {clock : Instant} {db : Db hasher}
    {task next : StoreTask} {action : TaskAction} (silent : action.op = none)
    (inside : ∀ answer, next ≠ .returned answer)
    (same : next.standing = task.standing) :
    Proceeds bounded clock db db task next action := by
  refine .works silent inside ?_
  rw [same]
  exact .keep (TimedMap.Forgets.refl clock db.contents)

theorem proceeds_of_advance {bounded : Prop} {clock : Instant}
    {db after : Db hasher} {task next : StoreTask} {action : TaskAction}
    (taken : task.advance db action = some (next, after))
    (timely : action.timely clock) (loop : task.evicts → bounded) :
    Proceeds bounded clock db after task next action := by
  unfold advance at taken
  split at taken
  case h_1 | h_3 =>
    cases taken
    exact .calls rfl rfl rfl rfl
  case h_2 =>
    split at taken <;> cases taken <;> exact .calls rfl rfl rfl rfl
  case h_4 =>
    split at taken <;> cases taken <;> exact .quietly rfl nofun rfl
  case h_5 =>
    split at taken
    next =>
      cases taken
      exact .quietly rfl nofun rfl
    next => cases taken
  case h_6 | h_7 | h_9 | h_10 =>
    cases taken
    exact .quietly rfl nofun rfl
  case h_8 =>
    split at taken
    next =>
      split at taken <;> cases taken <;> exact .quietly rfl nofun rfl
    next => cases taken
  case h_11 code now touchedAt arrangement =>
    cases taken
    obtain ⟨rfl, -⟩ : now = clock ∧ clock ≤ touchedAt := by
      simpa [TaskAction.timely] using timely
    exact .works rfl nofun (code.perform_effect db now touchedAt arrangement loop)
  case h_12 | h_13 =>
    cases taken
    exact .works rfl nofun (.keep (TimedMap.Forgets.refl clock db.contents))
  case h_14 idx next =>
    cases taken
    cases next with
    | done answer => exact .returns rfl rfl rfl rfl
    | _ => exact .quietly rfl nofun rfl
  case h_15 => cases taken

theorem maxMemoryBytes_advance {db after : Db hasher} {task next : StoreTask}
    {action : TaskAction} (taken : task.advance db action = some (next, after)) :
    after.maxMemoryBytes = db.maxMemoryBytes := by
  unfold advance at taken
  split at taken
  case h_2 | h_4 | h_5 => split at taken <;> cases taken <;> rfl
  case h_8 =>
    split at taken
    next => split at taken <;> cases taken <;> rfl
    next => cases taken
  case h_11 code now touchedAt arrangement =>
    cases taken
    exact code.maxMemoryBytes_perform db now touchedAt arrangement
  case h_15 => cases taken
  all_goals
    cases taken
    rfl

/-- Only a store with a memory bound enters the eviction loop. -/
theorem bounded_of_advance {db after : Db hasher} {task next : StoreTask}
    {action : TaskAction} (taken : task.advance db action = some (next, after))
    (loop : task.evicts → 0 < db.maxMemoryBytes) (inside : next.evicts) :
    0 < db.maxMemoryBytes := by
  unfold advance at taken
  split at taken
  case h_1 | h_3 | h_9 =>
    cases taken
    cases inside
  case h_2 =>
    split at taken
    next bounded => exact bounded
    next =>
      cases taken
      cases inside
  case h_4 | h_5 | h_6 | h_7 | h_8 => exact loop rfl
  case h_10 | h_12 | h_13 =>
    cases taken
    exact loop inside
  case h_11 code now touchedAt arrangement =>
    cases taken
    exact loop (code.evicts_of_perform inside)
  case h_14 idx next =>
    cases taken
    cases next with
    | load write => exact loop rfl
    | _ => cases inside
  case h_15 => cases taken

end StoreTask

theorem StoreSystem.advance_of_step {ι : Type} [Fintype ι] [DecidableEq ι]
    {hasher : String → UInt64} {system next : StoreSystem ι hasher} {task : ι}
    {action : TaskAction} (taken : system.step (task, action) = some next) :
    ∃ moved after,
      (system.tasks task).advance system.db action = some (moved, after) ∧
      next = ⟨after, Function.update system.tasks task moved⟩ := by
  rw [step] at taken
  split at taken
  next =>
    obtain ⟨⟨moved, after⟩, advanced, rfl⟩ := Option.map_eq_some_iff.mp taken
    exact ⟨moved, after, advanced, rfl⟩
  next => cases taken

namespace ClockedStore

variable {ι : Type} [Fintype ι] [DecidableEq ι] {hasher : String → UInt64}

/-- The store agrees with an atomic timed map up to what has expired, and the
tasks are as far with their calls as its clients. -/
structure Simulates (bounded : Prop) (store : ClockedStore ι hasher)
    (object : AtomicObject ι ClockedMap StoreOp StoreAnswer) : Prop where
  clock : object.state.clock = store.clock
  contents : TimedMap.Forgets store.clock object.state.map
    store.system.db.contents
  clients : ∀ task, object.clients task = (store.system.tasks task).standing
  loop : ∀ task, (store.system.tasks task).evicts →
    0 < store.system.db.maxMemoryBytes
  bound : 0 < store.system.db.maxMemoryBytes → bounded

/-- The answers of the contents are answers of a map with expired bindings
besides. -/
theorem answers_of_forgets {clock : Instant}
    {full kept : TimedMap String Bytes Instant}
    (forgets : TimedMap.Forgets clock full kept) {op : StoreOp}
    {answer : StoreAnswer} (answers : (ClockedMap.mk clock kept).Answers op answer) :
    (ClockedMap.mk clock full).Answers op answer := by
  cases op with
  | get key =>
      have same := forgets.get (le_refl clock) key
      rw [ClockedMap.Answers] at answers ⊢
      rw [answers]
      exact congrArg StoreAnswer.value same
  | set key value expiresAt => exact answers
  | del key =>
      obtain ⟨removed, shown, bound, unbound⟩ := answers
      refine ⟨removed, shown, ?_, ?_⟩
      · intro positive
        rcases forgets key with same | ⟨missing, -⟩
        · change (full key).isSome
          rw [← same]
          exact bound positive
        · have present := bound positive
          change (kept key).isSome at present
          rw [missing] at present
          cases present
      · intro negative
        exact (forgets.get (le_refl clock) key).symm.trans (unbound negative)
  | _ => exact answers

omit [Fintype ι] in
/-- A task moves on, and the client's call with it. -/
theorem Simulates.put {bounded : Prop} {store : ClockedStore ι hasher}
    {object : AtomicObject ι ClockedMap StoreOp StoreAnswer}
    (simulates : store.Simulates bounded object) {task : ι}
    {action : TaskAction} {moved : StoreTask} {after : Db hasher}
    (advanced : (store.system.tasks task).advance store.system.db action =
      some (moved, after))
    {state : ClockedMap} (clock : state.clock = store.clock)
    (contents : TimedMap.Forgets store.clock state.map after.contents)
    (seen : List (StoreEvent ι)) :
    Simulates bounded
      ⟨store.clock, ⟨after, Function.update store.system.tasks task moved⟩, seen⟩
      (object.put task moved.standing state) := by
  have bound := StoreTask.maxMemoryBytes_advance advanced
  refine ⟨clock, contents, ?_, ?_, ?_⟩
  · intro other
    by_cases same : other = task
    · subst same
      simp [AtomicObject.put]
    · simpa [AtomicObject.put, same] using simulates.clients other
  · intro other inside
    change 0 < after.maxMemoryBytes
    rw [bound]
    change (Function.update store.system.tasks task moved other).evicts at inside
    by_cases same : other = task
    · subst same
      rw [Function.update_self] at inside
      exact StoreTask.bounded_of_advance advanced (simulates.loop other) inside
    · rw [Function.update_of_ne same] at inside
      exact simulates.loop other inside
  · intro positive
    change 0 < after.maxMemoryBytes at positive
    rw [bound] at positive
    exact simulates.bound positive

omit [Fintype ι] in
/-- Each effect of a step is one of the atomic map, which is not seen. -/
theorem Simulates.works {bounded : Prop} {store : ClockedStore ι hasher}
    {object : AtomicObject ι ClockedMap StoreOp StoreAnswer}
    (simulates : store.Simulates bounded object) {task : ι}
    {moved : StoreTask} {after : Db hasher}
    (effect : StoreEffect bounded store.clock store.system.db.contents
      after.contents (store.system.tasks task).standing moved.standing) :
    ∃ state : ClockedMap, state.clock = store.clock ∧
      TimedMap.Forgets store.clock state.map after.contents ∧
      AtomicRun (ClockedMap.spec bounded) object []
        (object.put task moved.standing state) := by
  obtain ⟨⟨clock, full⟩, clients⟩ := object
  obtain rfl : clock = store.clock := simulates.clock
  have contents : TimedMap.Forgets store.clock full store.system.db.contents :=
    simulates.contents
  have standing : clients task = (store.system.tasks task).standing :=
    simulates.clients task
  rw [← standing] at effect
  have still : ∀ state : ClockedMap,
      AtomicObject.put ⟨⟨store.clock, full⟩, clients⟩ task (clients task) state =
        ⟨state, clients⟩ := by
    intro state
    rw [AtomicObject.put, Function.update_eq_self]
  generalize progress : moved.standing = stands at effect ⊢
  generalize before : clients task = stood at effect
  cases effect with
  | keep forgets =>
      refine ⟨⟨store.clock, full⟩, rfl,
        contents.trans forgets (le_refl store.clock), ?_⟩
      rw [← before, still]
      exact .refl _
  | @serve op answer answers applied =>
      refine ⟨⟨store.clock, op.apply full⟩, rfl, ?_, ?_⟩
      · rw [applied]
        exact StoreOp.forgets_apply contents op
      · exact .serve (.refl _) before ⟨answers_of_forgets contents answers, rfl⟩
  | @drop _ key allowed dropped =>
      refine ⟨⟨store.clock, full.delete key⟩, rfl, ?_, ?_⟩
      · rw [dropped]
        exact contents.update key none
      · rw [← before, still]
        exact .move (.refl _) ⟨allowed, key, rfl⟩

/-- Whatever a step of the store shows can be shown by an atomic timed map. -/
theorem Simulates.step {bounded : Prop} {store next : ClockedStore ι hasher}
    {object : AtomicObject ι ClockedMap StoreOp StoreAnswer}
    {action : ClockedAction ι} (simulates : store.Simulates bounded object)
    (taken : store.step action = some next) :
    ∃ shown object', AtomicRun (ClockedMap.spec bounded) object shown object' ∧
      next.seen = store.seen ++ shown ∧ next.Simulates bounded object' := by
  cases action with
  | tick later =>
      rw [ClockedStore.step] at taken
      split at taken
      next order =>
        cases taken
        refine ⟨[.environment later],
          { object with state := ⟨later, object.state.map⟩ }, ?_, rfl, ?_⟩
        · have observes : object.state.clock ≤ later := by
            rw [simulates.clock]
            exact order
          exact .observe (.refl object) ⟨observes, rfl⟩
        · exact ⟨rfl, simulates.contents.trans
            (TimedMap.Forgets.refl later _) order, simulates.clients,
            simulates.loop, simulates.bound⟩
      next => cases taken
  | advance task action =>
      rw [ClockedStore.step] at taken
      split at taken
      next timely =>
        obtain ⟨system, stepped, rfl⟩ := Option.map_eq_some_iff.mp taken
        obtain ⟨moved, after, advanced, rfl⟩ :=
          StoreSystem.advance_of_step stepped
        have proceeds := StoreTask.proceeds_of_advance advanced timely
          fun inside => simulates.bound (simulates.loop task inside)
        simp only [Function.update_self]
        cases proceeds with
        | @calls op made idle called same =>
            subst same
            refine ⟨_, _, .call (.refl object)
              ((simulates.clients task).trans idle), ?_,
              called ▸ simulates.put advanced simulates.clock
                simulates.contents _⟩
            rw [TaskAction.shows_of_call task made]
            rfl
        | @returns answer silent returned served same =>
            subst same returned
            refine ⟨_, _, .ret (.refl object)
              ((simulates.clients task).trans served), ?_,
              simulates.put advanced simulates.clock simulates.contents _⟩
            rw [TaskAction.shows_of_return task silent]
            rfl
        | works silent inside effect =>
            obtain ⟨state, clock, contents, run⟩ := simulates.works effect
            refine ⟨_, _, run, ?_, simulates.put advanced clock contents _⟩
            rw [TaskAction.shows_of_work task silent inside]
      next => cases taken

theorem initial_simulates (ι : Type) [Fintype ι] [DecidableEq ι]
    (hasher : String → UInt64) (shardCount maxMemoryBytes : Nat) :
    (initial ι hasher shardCount maxMemoryBytes).Simulates
      (0 < maxMemoryBytes)
      ⟨⟨0, TimedMap.empty⟩, fun _ => .idle⟩ where
  clock := rfl
  contents := by
    have fresh : (initial ι hasher shardCount maxMemoryBytes).system.db.contents =
        TimedMap.empty :=
      Db.contents_withConfig hasher shardCount maxMemoryBytes
    rw [fresh]
    exact TimedMap.Forgets.refl _ _
  clients := fun _ => rfl
  loop := fun _ inside => by cases inside
  bound := fun positive => positive

/-- Whatever the callers of a store see in a run, in any interleaving of the
tasks' steps, the callers of an atomic timed map could have seen: each call takes
effect at one instant between call and return, at the time the clock shows
there.  Only a store with a memory bound loses bindings that have not
expired. -/
theorem seen_linearizable (ι : Type) [Fintype ι] [DecidableEq ι]
    (hasher : String → UInt64) (shardCount maxMemoryBytes : Nat)
    (actions : List (ClockedAction ι)) (store : ClockedStore ι hasher)
    (reaches : Reaches step (fun _ _ => True)
      (initial ι hasher shardCount maxMemoryBytes) actions store) :
    ∃ object, AtomicRun (ClockedMap.spec (0 < maxMemoryBytes))
        ⟨⟨0, TimedMap.empty⟩, fun _ => .idle⟩ store.seen object ∧
      object.state.clock = store.clock ∧
      TimedMap.Forgets store.clock object.state.map store.system.db.contents := by
  obtain ⟨object, run, simulates⟩ := reaches.linearizable ClockedStore.seen
    (fun simulates _ taken => Simulates.step simulates taken)
    (initial_simulates ι hasher shardCount maxMemoryBytes) rfl
  exact ⟨object, run, simulates.clock, simulates.contents⟩

/-- A binding expires between the touch of a `get` and its cleanup, while
another task binds the key anew. -/
def racingActions : List (ClockedAction Bool) :=
  [.advance false (.set "a" [1] (some 5)), .advance false (.prepare 0),
    .advance false .lockWrite, .advance false (.perform 0 0 .front),
    .advance false .adjust, .advance false .unlock, .tick 7,
    .advance true (.get "a"), .advance true .lockWrite,
    .advance true (.perform 7 8 .front), .advance true .unlock,
    .advance false (.set "a" [2] none), .advance false (.prepare 7),
    .advance false .lockWrite, .advance false (.perform 7 7 .front),
    .advance false .adjust, .advance false .adjust, .advance false .unlock,
    .advance true .lockWrite, .advance true (.perform 7 7 .front),
    .advance true .unlock]

theorem seen_linearizable_racingActions :
    ∃ store : ClockedStore Bool fun key => UInt64.ofNat key.length,
      Reaches step (fun _ _ => True) (initial Bool _ 2 0) racingActions
        store ∧
      ∃ object, AtomicRun (ClockedMap.spec (0 < 0))
        ⟨⟨0, TimedMap.empty⟩, fun _ => .idle⟩ store.seen object := by
  obtain ⟨store, ran⟩ := Option.isSome_iff_exists.mp
    (show (runActions step (initial Bool
        (fun key => UInt64.ofNat key.length) 2 0) racingActions).isSome by
      decide +kernel)
  have reaches := reaches_of_runActions ran
  obtain ⟨object, run, -⟩ :=
    seen_linearizable Bool _ 2 0 racingActions store reaches
  exact ⟨store, reaches, object, run⟩

end ClockedStore

end RustiCache
