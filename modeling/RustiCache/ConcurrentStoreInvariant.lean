import RustiCache.ConcurrentStoreAccounting

/-!
# The memory counter in every reachable state

Each step of any task keeps the balance between the memory counter, the stored
sizes and the counter operations still owed.  From the balance follow the exact
value of the counter, the safety of every subtraction, and that the counter is
the sum of the stored sizes whenever no write lock is held.
-/

namespace RustiCache

/-- Amounts held by exclusive owners of places fit into the places. -/
theorem sum_le_sum_of_exclusive {ι κ : Type} [Fintype ι] [Fintype κ]
    [DecidableEq κ] (place : ι → Option κ) (amount : ι → Nat)
    (capacity : κ → Nat)
    (exclusive : ∀ first second spot, place first = some spot →
      place second = some spot → first = second)
    (outside : ∀ owner, place owner = none → amount owner = 0)
    (fits : ∀ owner spot, place owner = some spot →
      amount owner ≤ capacity spot) :
    ∑ owner, amount owner ≤ ∑ spot, capacity spot := by
  have spread : ∀ owner, amount owner =
      ∑ spot, if place owner = some spot then amount owner else 0 := by
    intro owner
    cases own : place owner with
    | none => simp [outside owner own]
    | some spot => simp
  calc
    ∑ owner, amount owner =
        ∑ owner, ∑ spot, if place owner = some spot then amount owner else 0 :=
      Finset.sum_congr rfl fun owner _ => spread owner
    _ = ∑ spot, ∑ owner, if place owner = some spot then amount owner else 0 :=
      Finset.sum_comm
    _ ≤ ∑ spot, capacity spot := by
      apply Finset.sum_le_sum
      intro spot _
      by_cases taken : ∃ owner, place owner = some spot
      · obtain ⟨owner, own⟩ := taken
        rw [Finset.sum_eq_single owner]
        · rw [if_pos own]
          exact fits owner spot own
        · intro other _ differ
          rw [if_neg]
          intro otherOwn
          exact differ (exclusive other owner spot otherOwn own)
        · intro missing
          exact absurd (Finset.mem_univ owner) missing
      · rw [Finset.sum_eq_zero]
        · exact Nat.zero_le _
        · intro owner _
          rw [if_neg]
          intro own
          exact taken ⟨owner, own⟩

namespace StoreSystem

variable {ι : Type} [Fintype ι] [DecidableEq ι] {hasher : String → UInt64}

theorem step_advances {system next : StoreSystem ι hasher} {task : ι}
    {action : TaskAction} (taken : system.step (task, action) = some next) :
    system.available task action ∧
      ∃ moved, StoreTask.Advances system.db (system.tasks task) action moved
          next.db ∧
        next.tasks = Function.update system.tasks task moved := by
  rw [step] at taken
  split at taken
  next available =>
    obtain ⟨⟨moved, after⟩, advanced, rfl⟩ := Option.map_eq_some_iff.mp taken
    exact ⟨available, moved, StoreTask.advances_of_advance advanced, rfl⟩
  next => cases taken

omit [DecidableEq ι] in
theorem available_lockWrite {system : StoreSystem ι hasher} {task : ι}
    {code : LockedSection} (waits : system.tasks task = .waiting code)
    (available : system.available task .lockWrite) (other : ι) :
    (system.tasks other).writes system.db ≠
      some (code.shardIndex system.db) := by
  rw [StoreSystem.available, waits, decide_eq_true_eq] at available
  exact (available other).1

theorem settled_excess {task : StoreTask} (settled : task.owed = []) :
    task.excess = 0 ∧ task.deficit = 0 := by
  rw [StoreTask.excess, StoreTask.deficit, settled]
  exact ⟨rfl, rfl⟩

/-- A step that leaves the stored entries and the counter alone, taken by a task
that owes nothing before or after. -/
theorem Balanced.moved {system : StoreSystem ι hasher}
    (balanced : system.Balanced) {task : ι} {moved : StoreTask}
    (settled : (system.tasks task).owed = []) (settledNext : moved.owed = [])
    (alone : ∀ idx, moved.writes system.db = some idx → ∀ other, other ≠ task →
      (system.tasks other).writes system.db ≠ some idx) :
    Balanced ⟨system.db, Function.update system.tasks task moved⟩ where
  exclusive := exclusive_update rfl balanced.exclusive alone
  covered := by
    intro other idx holds
    by_cases same : other = task
    · simp only [same, Function.update_self, (settled_excess settledNext).2]
      exact Nat.zero_le _
    · simp only [Function.update_of_ne same] at holds ⊢
      exact balanced.covered holds
  counter := by
    have excessSame := system.excess_update system.db task moved
    have deficitSame := system.deficit_update system.db task moved
    rw [(settled_excess settled).1, (settled_excess settledNext).1] at excessSame
    rw [(settled_excess settled).2, (settled_excess settledNext).2]
      at deficitSame
    rw [Nat.add_right_cancel excessSame, Nat.add_right_cancel deficitSame]
    exact balanced.counter

/-- The table update of a task inside its locked section. -/
theorem Balanced.performed {system : StoreSystem ι hasher}
    (balanced : system.Balanced) {task : ι} {code : LockedSection}
    {after : Db hasher} {owed : List Adjustment} (next : AfterSection)
    (inside : system.tasks task = .locked code)
    (performed : Performed system.db after (code.shardIndex system.db) owed) :
    Balanced ⟨after, Function.update system.tasks task
      (.adjusting (code.shardIndex system.db) owed next)⟩ := by
  have own : (system.tasks task).writes system.db =
      some (code.shardIndex system.db) := by
    rw [inside]
    rfl
  refine ⟨?_, ?_, ?_⟩
  · refine exclusive_update performed.mask balanced.exclusive ?_
    intro idx holds other differ otherHolds
    cases holds
    exact differ (balanced.exclusive otherHolds own)
  · intro other idx holds
    by_cases same : other = task
    · simp only [same, Function.update_self] at holds ⊢
      cases holds
      exact performed.covered
    · simp only [Function.update_of_ne same,
        StoreTask.writes_congr performed.mask] at holds ⊢
      have differ : code.shardIndex system.db ≠ idx := by
        rintro rfl
        exact same (balanced.exclusive holds own)
      rw [performed.elsewhere idx differ]
      exact balanced.covered holds
  · have excessNext := system.excess_update after task
      (.adjusting (code.shardIndex system.db) owed next)
    have deficitNext := system.deficit_update after task
      (.adjusting (code.shardIndex system.db) owed next)
    have balance := performed.balance
    rw [inside] at excessNext deficitNext
    change _ + 0 = _ + (owed.map Adjustment.excess).sum at excessNext
    change _ + 0 = _ + (owed.map Adjustment.deficit).sum at deficitNext
    rw [Nat.add_zero] at excessNext deficitNext
    have sum : after.storedSize +
        (system.excess + (owed.map Adjustment.excess).sum) =
        system.db.storedSize + system.excess +
          (owed.map Adjustment.deficit).sum := by
      omega
    rw [excessNext, deficitNext, performed.counter, sum, UInt64.ofNat_add,
      ← UInt64.add_assoc, balanced.counter, ← UInt64.ofNat_add]

/-- One counter operation of a task inside its locked section. -/
theorem Balanced.adjusted {system : StoreSystem ι hasher}
    (balanced : system.Balanced) {task : ι} {idx : Nat}
    {adjustment : Adjustment} {owed : List Adjustment} {next : AfterSection}
    (inside : system.tasks task = .adjusting idx (adjustment :: owed) next) :
    Balanced ⟨adjustment.apply system.db,
      Function.update system.tasks task (.adjusting idx owed next)⟩ := by
  have own : (system.tasks task).writes system.db = some idx := by
    rw [inside]
    rfl
  have shards : (adjustment.apply system.db).shards = system.db.shards := by
    cases adjustment <;> rfl
  have mask : (adjustment.apply system.db).shardMask = system.db.shardMask := by
    cases adjustment <;> rfl
  have stored : (adjustment.apply system.db).storedSize =
      system.db.storedSize := by
    cases adjustment <;> rfl
  refine ⟨?_, ?_, ?_⟩
  · refine exclusive_update mask balanced.exclusive ?_
    intro held holds other differ otherHolds
    cases holds
    exact differ (balanced.exclusive otherHolds own)
  · intro other held holds
    rw [Db.shard, shards]
    by_cases same : other = task
    · simp only [same, Function.update_self] at holds ⊢
      cases holds
      have before := balanced.covered own
      rw [inside] at before
      refine le_trans ?_ before
      exact Nat.le_add_left _ _
    · simp only [Function.update_of_ne same, StoreTask.writes_congr mask]
        at holds ⊢
      exact balanced.covered holds
  · have excessNext := system.excess_update (adjustment.apply system.db) task
      (.adjusting idx owed next)
    have deficitNext := system.deficit_update (adjustment.apply system.db) task
      (.adjusting idx owed next)
    rw [inside] at excessNext deficitNext
    change _ + (adjustment.excess + (owed.map _).sum) = _ + (owed.map _).sum
      at excessNext
    change _ + (adjustment.deficit + (owed.map _).sum) = _ + (owed.map _).sum
      at deficitNext
    rw [← Nat.add_assoc] at excessNext deficitNext
    have counter := balanced.counter
    rw [← Nat.add_right_cancel excessNext, ← Nat.add_right_cancel deficitNext,
      ← Nat.add_assoc, UInt64.ofNat_add, UInt64.ofNat_add] at counter
    rw [stored]
    cases adjustment with
    | fetchSub amount =>
        change system.db.usedMemory - UInt64.ofNat amount + _ = _
        simp only [Adjustment.excess, Adjustment.deficit] at counter
        grind
    | fetchAdd amount =>
        change system.db.usedMemory + UInt64.ofNat amount + _ = _
        simp only [Adjustment.excess, Adjustment.deficit] at counter
        grind

/-- Every step of every task keeps the balance. -/
theorem Balanced.step {system next : StoreSystem ι hasher}
    {action : ι × TaskAction} (balanced : system.Balanced)
    (taken : system.step action = some next) : next.Balanced := by
  obtain ⟨task, action⟩ := action
  obtain ⟨available, moved, advances, tasks⟩ := step_advances taken
  obtain ⟨db, others⟩ := next
  cases tasks
  change StoreTask.Advances system.db (system.tasks task) action moved db
    at advances
  generalize position : system.tasks task = before at advances
  cases advances with
  | moves settled outside settledNext =>
      refine balanced.moved (by rw [position, settled]) settledNext ?_
      intro idx holds
      rw [outside] at holds
      cases holds
  | locks =>
      refine balanced.moved (by rw [position]; rfl) rfl ?_
      intro idx holds other _
      cases holds
      exact available_lockWrite position available other
  | performs performed => exact balanced.performed _ position performed
  | adjusts => exact balanced.adjusted position

theorem initial_balanced (ι : Type) [Fintype ι] [DecidableEq ι]
    (hasher : String → UInt64) (shardCount maxMemoryBytes : Nat) :
    (initial ι hasher shardCount maxMemoryBytes).Balanced where
  exclusive := by
    intro task other idx holds
    cases holds
  covered := by
    intro task idx holds
    cases holds
  counter := by
    have excessZero : (initial ι hasher shardCount maxMemoryBytes).excess = 0 :=
      Finset.sum_eq_zero fun _ _ => rfl
    have deficitZero :
        (initial ι hasher shardCount maxMemoryBytes).deficit = 0 :=
      Finset.sum_eq_zero fun _ _ => rfl
    rw [excessZero, deficitZero]
    have accounted := Db.accounted_withConfig hasher shardCount maxMemoryBytes
    rw [Db.Accounted] at accounted
    change (Db.withConfig hasher shardCount maxMemoryBytes).usedMemory + 0 = _
    rw [accounted]
    simp [initial]

theorem settled_of_outside {task : StoreTask} {db : Db hasher}
    (outside : task.writes db = none) : task.owed = [] := by
  cases task <;> first | rfl | cases outside

omit [DecidableEq ι] in
/-- What is still to be added has already been stored. -/
theorem Balanced.deficit_le_storedSize {system : StoreSystem ι hasher}
    (balanced : system.Balanced) : system.deficit ≤ system.db.storedSize := by
  have stored : system.db.storedSize =
      ∑ idx : Fin system.db.shards.length,
        Table.total (fun _ entry => entry.approxSizeBytes)
          (system.db.shard idx) := by
    rw [Db.storedSize, Db.total, ← Fin.sum_univ_fun_getElem]
    apply Finset.sum_congr rfl
    intro idx _
    rw [system.db.shard_eq_getElem idx.isLt]
  let place (task : ι) : Option (Fin system.db.shards.length) :=
    ((system.tasks task).writes system.db).bind fun idx =>
      if bound : idx < system.db.shards.length then some ⟨idx, bound⟩ else none
  have writes : ∀ {task : ι} {spot : Fin system.db.shards.length},
      place task = some spot →
      (system.tasks task).writes system.db = some spot.val := by
    intro task spot own
    obtain ⟨idx, holds, inside⟩ := Option.bind_eq_some_iff.mp own
    split at inside
    next bound =>
      cases inside
      exact holds
    next => cases inside
  rw [stored]
  apply sum_le_sum_of_exclusive place
  · intro first second spot firstOwn secondOwn
    exact balanced.exclusive (writes firstOwn) (writes secondOwn)
  · intro task outside
    cases holds : (system.tasks task).writes system.db with
    | none => exact (settled_excess (settled_of_outside holds)).2
    | some idx =>
        have beyond : ¬ idx < system.db.shards.length := by
          intro bound
          simp [place, holds, bound] at outside
        have covered := balanced.covered holds
        rw [system.db.shard_eq_empty (Nat.le_of_not_lt beyond),
          Table.total_empty] at covered
        exact Nat.le_zero.mp covered
  · intro task spot own
    exact balanced.covered (writes own)

omit [DecidableEq ι] in
/-- The counter as a number. -/
theorem Balanced.usedMemory_eq {system : StoreSystem ι hasher}
    (balanced : system.Balanced)
    (fits : system.db.storedSize + system.excess < 2 ^ 64) :
    system.db.usedMemory.toNat + system.deficit =
      system.db.storedSize + system.excess := by
  have bound := balanced.deficit_le_storedSize
  have counter := balanced.counter
  have word : system.db.usedMemory =
      UInt64.ofNat (system.db.storedSize + system.excess - system.deficit) := by
    have difference : system.db.storedSize + system.excess - system.deficit +
        system.deficit = system.db.storedSize + system.excess := by
      omega
    rw [← Db.sub_ofNat_of_add_eq difference, ← counter, UInt64.add_sub_cancel]
  have small : system.db.storedSize + system.excess - system.deficit < 2 ^ 64 := by
    omega
  rw [word, UInt64.toNat_ofNat_of_lt' small]
  omega

omit [DecidableEq ι] in
theorem excess_ge_of_owed {system : StoreSystem ι hasher} {task : ι} {idx : Nat}
    {amount : Nat} {owed : List Adjustment} {next : AfterSection}
    (inside : system.tasks task = .adjusting idx (.fetchSub amount :: owed) next) :
    amount ≤ system.excess := by
  have single : (system.tasks task).excess ≤ system.excess :=
    Finset.single_le_sum (f := fun task => (system.tasks task).excess)
      (fun _ _ => Nat.zero_le _) (Finset.mem_univ task)
  rw [inside] at single
  exact le_trans (Nat.le_add_right _ _) single

/-- In every reachable state the memory counter is the sum of the stored sizes
plus what the tasks inside write-locked sections owe; no subtraction takes it
below zero; and it is exact when no write lock is held.  The sizes of the
stored entries and of those whose subtraction is owed add up to a machine
word. -/
theorem memory_accounted (ι : Type) [Fintype ι] [DecidableEq ι]
    (hasher : String → UInt64) (shardCount maxMemoryBytes : Nat)
    (actions : List (ι × TaskAction)) (system : StoreSystem ι hasher)
    (reaches : Reaches step (fun _ _ => True)
      (initial ι hasher shardCount maxMemoryBytes) actions system)
    (fits : system.db.storedSize + system.excess < 2 ^ 64) :
    (system.db.usedMemory.toNat : Int) =
        system.db.storedSize + ∑ task, (system.tasks task).net ∧
      (∀ task, (system.tasks task).writes system.db = none →
        (system.tasks task).net = 0) ∧
      (∀ task idx amount owed next,
        system.tasks task = .adjusting idx (.fetchSub amount :: owed) next →
        amount ≤ system.db.usedMemory.toNat) ∧
      ((∀ task, (system.tasks task).writes system.db = none) →
        system.db.usedMemory.toNat = system.db.storedSize) := by
  have balanced : system.Balanced :=
    reaches.invariant (fun balanced _ taken => Balanced.step balanced taken)
      (initial_balanced ι hasher shardCount maxMemoryBytes)
  have used := balanced.usedMemory_eq fits
  have bound := balanced.deficit_le_storedSize
  have net : ∑ task, (system.tasks task).net =
      (system.excess : Int) - system.deficit := by
    simp [StoreTask.net, excess, deficit]
  have settled : ∀ task, (system.tasks task).writes system.db = none →
      (system.tasks task).net = 0 := by
    intro task outside
    obtain ⟨noExcess, noDeficit⟩ := settled_excess (settled_of_outside outside)
    rw [StoreTask.net, noExcess, noDeficit]
    rfl
  refine ⟨?_, settled, ?_, ?_⟩
  · rw [net]
    omega
  · intro task idx amount owed next inside
    have owes := excess_ge_of_owed inside
    omega
  · intro unlocked
    have none : ∑ task, (system.tasks task).net = 0 :=
      Finset.sum_eq_zero fun task _ => settled task (unlocked task)
    rw [net] at none
    omega

/-- One task overwrites a key of the first shard while another reads a key of
the second; the run ends with a subtraction and an addition owed. -/
def overlappingActions : List (Fin 2 × TaskAction) :=
  [(0, .set "a" [1] none), (0, .prepare 0), (0, .lockWrite),
    (0, .perform 0 0 .front), (0, .adjust), (0, .unlock),
    (0, .set "a" [1, 2] none), (0, .prepare 1), (1, .get "bb"), (0, .lockWrite),
    (1, .lockWrite), (0, .perform 1 1 .front), (1, .perform 2 2 .front)]

theorem memory_accounted_overlappingActions :
    ∃ system : StoreSystem (Fin 2) fun key => UInt64.ofNat key.length,
      Reaches step (fun _ _ => True) (initial (Fin 2) _ 2 0)
        overlappingActions system ∧
      system.db.storedSize + system.excess < 2 ^ 64 ∧
      (system.db.usedMemory.toNat : Int) =
        system.db.storedSize + ∑ task, (system.tasks task).net := by
  obtain ⟨system, ran⟩ := Option.isSome_iff_exists.mp
    (show (runActions step (initial (Fin 2)
        (fun key => UInt64.ofNat key.length) 2 0) overlappingActions).isSome by
      decide +kernel)
  have sizes : (runActions step (initial (Fin 2)
      (fun key => UInt64.ofNat key.length) 2 0) overlappingActions).map
      (fun system => system.db.storedSize + system.excess) = some 149 := by
    decide +kernel
  rw [ran, Option.map_some, Option.some.injEq] at sizes
  have reaches := reaches_of_runActions ran
  have fits : system.db.storedSize + system.excess < 2 ^ 64 := by
    rw [sizes]
    decide
  exact ⟨system, reaches, fits,
    (memory_accounted (Fin 2) _ 2 0 overlappingActions system reaches fits).1⟩

end StoreSystem

end RustiCache
