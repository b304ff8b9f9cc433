import RustiCache.StoreLinearizability

/-!
# The memory bound under concurrent writes

A `set` looks at the memory counter, makes room if it has to, and adds its entry
later; in between, other tasks may have done the same.  The eviction loop also
ends without making room when the entry it has chosen is gone, because another
task has removed it, or when its sample is empty.  So the counter can exceed the
bound, by one entry for each task and one for each time that a task has given
up.
-/

namespace RustiCache

/-- An addition to the counter, as a number. -/
def Adjustment.adds : Adjustment → Nat
  | fetchSub _ => 0
  | fetchAdd _ => 1

/-- The size of the entry that a write makes. -/
def PendingWrite.size (write : PendingWrite) : Nat :=
  (asBytes write.key).length + write.value.length + Entry.structSize

namespace LockedSection

/-- The additions that are decided when a task enters a section. -/
def pendingAdds : LockedSection → Nat
  | insert _ _ => 1
  | _ => 0

/-- The entry to come is no larger than the limit. -/
def Within (limit : Nat) : LockedSection → Prop
  | insert _ newEntry => newEntry.approxSizeBytes ≤ limit
  | evict _ _ write => write.size ≤ limit
  | _ => True

end LockedSection

namespace AfterSection

def pendingAdds : AfterSection → Nat
  | prepare _ => 1
  | _ => 0

def Within (limit : Nat) : AfterSection → Prop
  | load write => write.size ≤ limit
  | prepare write => write.size ≤ limit
  | _ => True

end AfterSection

namespace StoreTask

/-- The additions to the counter that a task will make without looking at it
again. -/
def pendingAdds : StoreTask → Nat
  | preparing _ => 1
  | waiting code => code.pendingAdds
  | locked code => code.pendingAdds
  | adjusting _ owed next => (owed.map Adjustment.adds).sum + next.pendingAdds
  | _ => 0

/-- The entry that a task will add is no larger than the limit. -/
def Within (limit : Nat) : StoreTask → Prop
  | returned _ => True
  | loading write => write.size ≤ limit
  | scanning _ _ write => write.size ≤ limit
  | reading _ _ write => write.size ≤ limit
  | sampled _ _ write => write.size ≤ limit
  | preparing write => write.size ≤ limit
  | waiting code => code.Within limit
  | locked code => code.Within limit
  | adjusting _ owed next =>
      (∀ adjustment ∈ owed, adjustment.deficit ≤ limit) ∧ next.Within limit

/-- A step by which the eviction loop ends although the counter has not been
seen below the bound. -/
def givesUp : StoreTask → StoreTask → Nat
  | scanning _ _ _, preparing _ => 1
  | locked _, adjusting _ _ (.prepare _) => 1
  | _, _ => 0

end StoreTask

/-- The entries that calls of `set` make are no larger than the limit. -/
def TaskAction.Within (limit : Nat) : TaskAction → Prop
  | set key value expiresAt =>
      (PendingWrite.mk key value expiresAt).size ≤ limit
  | _ => True

instance (limit : Nat) : DecidablePred (TaskAction.Within limit)
  | .set key value expiresAt =>
      inferInstanceAs (Decidable ((PendingWrite.mk key value expiresAt).size ≤ limit))
  | .get _ | .del _ | .load | .lockRead | .sample | .unlockRead | .choose
  | .prepare _ | .lockWrite | .perform _ _ _ | .adjust | .unlock => isTrue trivial

/-- A store with its tasks, and how often the eviction loop has given up. -/
structure CrowdedStore (ι : Type) (hasher : String → UInt64) where
  system : StoreSystem ι hasher
  givenUp : Nat

namespace CrowdedStore

variable {ι : Type} [Fintype ι] [DecidableEq ι] {hasher : String → UInt64}

def step (store : CrowdedStore ι hasher) (action : ι × TaskAction) :
    Option (CrowdedStore ι hasher) :=
  (store.system.step action).map fun next =>
    ⟨next, store.givenUp +
      (store.system.tasks action.1).givesUp (next.tasks action.1)⟩

def initial (ι : Type) (hasher : String → UInt64)
    (shardCount maxMemoryBytes : Nat) : CrowdedStore ι hasher :=
  ⟨StoreSystem.initial ι hasher shardCount maxMemoryBytes, 0⟩

end CrowdedStore

namespace LockedSection

variable {hasher : String → UInt64}

/-- The table update of a section leaves the counter alone and decides on no
addition, unless the eviction loop gives up. -/
theorem perform_spends {limit : Nat} (db : Db hasher) (now touchedAt : Instant)
    (arrangement : Arrangement) (code : LockedSection) (idx : Nat)
    (within : code.Within limit) :
    (StoreTask.adjusting idx (code.perform db now touchedAt arrangement).2.1
        (code.perform db now touchedAt arrangement).2.2).pendingAdds =
        code.pendingAdds +
          (StoreTask.locked code).givesUp (StoreTask.adjusting idx
            (code.perform db now touchedAt arrangement).2.1
            (code.perform db now touchedAt arrangement).2.2) ∧
      (StoreTask.adjusting idx (code.perform db now touchedAt arrangement).2.1
        (code.perform db now touchedAt arrangement).2.2).pendingAdds ≤ 1 ∧
      (StoreTask.adjusting idx (code.perform db now touchedAt arrangement).2.1
        (code.perform db now touchedAt arrangement).2.2).Within limit := by
  have single : ∀ {count : Nat}, count.ble 1 = true → count ≤ 1 :=
    Nat.le_of_ble_eq_true
  cases code with
  | touch key =>
      simp only [perform]
      split
      next =>
        split
        next => exact ⟨rfl, single rfl, by simp, trivial⟩
        next => exact ⟨rfl, single rfl, by simp, trivial⟩
      next => exact ⟨rfl, single rfl, by simp, trivial⟩
  | cleanup key =>
      simp only [perform]
      split
      next =>
        split
        next => exact ⟨rfl, single rfl, by simp [Adjustment.deficit], trivial⟩
        next => exact ⟨rfl, single rfl, by simp, trivial⟩
      next => exact ⟨rfl, single rfl, by simp, trivial⟩
  | insert key newEntry =>
      have small : newEntry.approxSizeBytes ≤ limit := within
      simp only [perform]
      split
      next => exact ⟨rfl, single rfl, by simpa [Adjustment.deficit] using small, trivial⟩
      next => exact ⟨rfl, single rfl, by simpa [Adjustment.deficit] using small, trivial⟩
  | remove key =>
      simp only [perform]
      split
      next => exact ⟨rfl, single rfl, by simp [Adjustment.deficit], trivial⟩
      next => exact ⟨rfl, single rfl, by simp, trivial⟩
  | evict shard key write =>
      simp only [perform]
      split
      next => exact ⟨rfl, single rfl, by simp [Adjustment.deficit], within⟩
      next => exact ⟨rfl, single rfl, by simp, within⟩

end LockedSection

namespace StoreTask

variable {hasher : String → UInt64}

/-- What a step of a task does to the counter and to what the task will add. -/
inductive Spends (limit : Nat) (db after : Db hasher) (task next : StoreTask) :
    Prop where
  | keeps (used : after.usedMemory = db.usedMemory)
      (adds : next.pendingAdds = task.pendingAdds + task.givesUp next)
  | admits (used : after.usedMemory = db.usedMemory)
      (room : db.usedMemory.toNat < db.maxMemoryBytes)
      (fresh : task.pendingAdds = 0) (adds : next.pendingAdds = 1)
  | subtracts {idx amount : Nat} {owed : List Adjustment} {rest : AfterSection}
      (position : task = adjusting idx (.fetchSub amount :: owed) rest)
      (used : after = db.fetchSub amount)
      (adds : next.pendingAdds = task.pendingAdds)
  | adds {idx amount : Nat} {owed : List Adjustment} {rest : AfterSection}
      (position : task = adjusting idx (.fetchAdd amount :: owed) rest)
      (used : after = db.fetchAdd amount) (small : amount ≤ limit)
      (fewer : next.pendingAdds + 1 = task.pendingAdds)

theorem spends_of_advance {limit : Nat} {db after : Db hasher}
    {task next : StoreTask} {action : TaskAction}
    (bounded : 0 < db.maxMemoryBytes)
    (taken : task.advance db action = some (next, after))
    (within : task.Within limit) (called : action.Within limit)
    (single : task.pendingAdds ≤ 1) :
    Spends limit db after task next ∧ next.pendingAdds ≤ 1 ∧
      next.Within limit := by
  unfold advance at taken
  split at taken
  case h_1 | h_3 =>
    cases taken
    exact ⟨.keeps rfl rfl, Nat.zero_le 1, trivial⟩
  case h_2 =>
    rw [if_pos bounded] at taken
    cases taken
    exact ⟨.keeps rfl rfl, Nat.zero_le 1, called⟩
  case h_4 =>
    split at taken
    next =>
      cases taken
      exact ⟨.keeps rfl rfl, Nat.zero_le 1, within⟩
    next room =>
      cases taken
      exact ⟨.admits rfl (Nat.lt_of_not_le room) rfl rfl, Nat.le_refl 1, within⟩
  case h_5 =>
    split at taken
    next =>
      cases taken
      exact ⟨.keeps rfl rfl, Nat.zero_le 1, within⟩
    next => cases taken
  case h_6 | h_7 | h_10 =>
    cases taken
    exact ⟨.keeps rfl (by simp [pendingAdds, givesUp]), single, within⟩
  case h_8 =>
    split at taken
    next =>
      split at taken
      next =>
        cases taken
        exact ⟨.keeps rfl rfl, Nat.zero_le 1, within⟩
      next =>
        cases taken
        exact ⟨.keeps rfl rfl, Nat.le_refl 1, within⟩
    next => cases taken
  case h_9 =>
    cases taken
    exact ⟨.keeps rfl rfl, Nat.le_refl 1, within⟩
  case h_11 code now touchedAt arrangement =>
    cases taken
    obtain ⟨adds, atMost, still⟩ := code.perform_spends db now touchedAt arrangement
      (code.shardIndex db) within
    exact ⟨.keeps (code.perform_performed db now touchedAt arrangement).counter
      adds, atMost, still⟩
  case h_12 idx amount owed next =>
    cases taken
    have same : (adjusting idx owed next).pendingAdds =
        (adjusting idx (.fetchSub amount :: owed) next).pendingAdds := by
      simp [pendingAdds, Adjustment.adds]
    refine ⟨.subtracts rfl rfl same, same.le.trans single, ?_, within.2⟩
    · intro adjustment member
      exact within.1 adjustment (List.mem_cons_of_mem _ member)
  case h_13 idx amount owed next =>
    cases taken
    have fewer : (adjusting idx owed next).pendingAdds + 1 =
        (adjusting idx (.fetchAdd amount :: owed) next).pendingAdds := by
      simp only [pendingAdds, Adjustment.adds, List.map_cons, List.sum_cons]
      omega
    refine ⟨.adds rfl rfl (within.1 (.fetchAdd amount) (by simp)) fewer,
      by omega, ?_, within.2⟩
    · intro adjustment member
      exact within.1 adjustment (List.mem_cons_of_mem _ member)
  case h_14 idx next =>
    cases taken
    have same : (resume next).pendingAdds = (adjusting idx [] next).pendingAdds := by
      cases next <;> rfl
    refine ⟨.keeps rfl ?_, same.le.trans single, ?_⟩
    · cases next <;> rfl
    · cases next <;> exact within.2
  case h_15 => cases taken

end StoreTask

namespace CrowdedStore

variable {ι : Type} [Fintype ι] [DecidableEq ι] {hasher : String → UInt64}

/-- The additions to come, over all tasks. -/
def pendingAdds (store : CrowdedStore ι hasher) : Nat :=
  ∑ task, (store.system.tasks task).pendingAdds

/-- The counter together with what will be added to it unseen stays below the
bound, up to one entry for each task and each time that one has given up. -/
structure Bounded (maxMemoryBytes limit : Nat) (store : CrowdedStore ι hasher) :
    Prop where
  balanced : store.system.Balanced
  bound : store.system.db.maxMemoryBytes = maxMemoryBytes
  single : ∀ task, (store.system.tasks task).pendingAdds ≤ 1
  within : ∀ task, (store.system.tasks task).Within limit
  used : store.system.db.usedMemory.toNat + limit * store.pendingAdds <
    maxMemoryBytes + limit * (Fintype.card ι + store.givenUp)

omit [DecidableEq ι] in
theorem pendingAdds_le_card (store : CrowdedStore ι hasher)
    (single : ∀ task, (store.system.tasks task).pendingAdds ≤ 1) :
    store.pendingAdds ≤ Fintype.card ι := by
  have bound := Finset.sum_le_card_nsmul Finset.univ
    (fun task => (store.system.tasks task).pendingAdds) 1 fun task _ => single task
  simpa [pendingAdds] using bound

theorem toNat_fetchAdd_le (db : Db hasher) (amount : Nat) :
    (db.fetchAdd amount).usedMemory.toNat ≤ db.usedMemory.toNat + amount := by
  change (db.usedMemory + UInt64.ofNat amount).toNat ≤ _
  rw [UInt64.toNat_add, UInt64.toNat_ofNat']
  exact (Nat.mod_le _ _).trans
    (Nat.add_le_add_left (Nat.mod_le _ _) _)

theorem toNat_fetchSub_le {db : Db hasher} {amount : Nat}
    (enough : amount ≤ db.usedMemory.toNat) :
    (db.fetchSub amount).usedMemory.toNat ≤ db.usedMemory.toNat := by
  change (db.usedMemory - UInt64.ofNat amount).toNat ≤ _
  have small : (UInt64.ofNat amount).toNat = amount :=
    UInt64.toNat_ofNat_of_lt' (lt_of_le_of_lt enough db.usedMemory.toNat_lt)
  rw [UInt64.toNat_sub_of_le _ _ (by rw [UInt64.le_iff_toNat_le, small]; exact enough)]
  exact Nat.sub_le _ _

/-- Every step of every task keeps the bound. -/
theorem Bounded.step {maxMemoryBytes limit : Nat}
    {store next : CrowdedStore ι hasher} {action : ι × TaskAction}
    (positive : 0 < maxMemoryBytes)
    (bounded : store.Bounded maxMemoryBytes limit)
    (fits : store.system.db.storedSize + store.system.excess < 2 ^ 64)
    (called : action.2.Within limit) (taken : store.step action = some next) :
    next.Bounded maxMemoryBytes limit := by
  obtain ⟨system, stepped, rfl⟩ := Option.map_eq_some_iff.mp taken
  have balanced := StoreSystem.Balanced.step bounded.balanced stepped
  obtain ⟨moved, after, advanced, rfl⟩ := StoreSystem.advance_of_step stepped
  have roomy : 0 < store.system.db.maxMemoryBytes := by
    rw [bounded.bound]
    exact positive
  obtain ⟨spends, atMost, within⟩ := StoreTask.spends_of_advance
    roomy advanced (bounded.within action.1) called
    (bounded.single action.1)
  have singleNext : ∀ task, (Function.update store.system.tasks action.1 moved
      task).pendingAdds ≤ 1 := by
    intro task
    by_cases same : task = action.1
    · rw [same, Function.update_self]
      exact atMost
    · rw [Function.update_of_ne same]
      exact bounded.single task
  refine ⟨balanced,
    (StoreTask.maxMemoryBytes_advance advanced).trans bounded.bound, singleNext,
    ?_, ?_⟩
  · intro task
    change (Function.update store.system.tasks action.1 moved task).Within limit
    by_cases same : task = action.1
    · rw [same, Function.update_self]
      exact within
    · rw [Function.update_of_ne same]
      exact bounded.within task
  · have total := StoreSystem.sum_update StoreTask.pendingAdds
      store.system.tasks action.1 moved
    have used := bounded.used
    have cap := pendingAdds_le_card
      ⟨⟨after, Function.update store.system.tasks action.1 moved⟩, 0⟩ singleNext
    simp only [pendingAdds, Function.update_self] at used cap total ⊢
    generalize (∑ task, (store.system.tasks task).pendingAdds) = old
      at used total
    generalize (∑ task, (Function.update store.system.tasks action.1 moved
      task).pendingAdds) = new at cap total ⊢
    have more := Nat.mul_le_mul_left limit
      (show Fintype.card ι + store.givenUp ≤ Fintype.card ι + (store.givenUp +
        (store.system.tasks action.1).givesUp moved) by omega)
    cases spends with
    | keeps sameUsed adds =>
        obtain rfl : new = old +
            (store.system.tasks action.1).givesUp moved := by omega
        rw [sameUsed, Nat.mul_add, ← Nat.add_assoc (Fintype.card ι),
          Nat.mul_add limit (_ + _)]
        omega
    | admits sameUsed room fresh adds =>
        have atMost := Nat.mul_le_mul_left limit cap
        have base := Nat.mul_le_mul_left limit
          (Nat.le_add_right (Fintype.card ι) store.givenUp)
        rw [bounded.bound] at room
        rw [sameUsed]
        omega
    | @subtracts idx amount owed rest position lower adds =>
        have enough : amount ≤ store.system.db.usedMemory.toNat := by
          have owes := StoreSystem.excess_ge_of_owed position
          have counter := bounded.balanced.usedMemory_eq fits
          have stored := bounded.balanced.deficit_le_storedSize
          omega
        have less := toNat_fetchSub_le enough
        obtain rfl : new = old := by omega
        rw [lower]
        omega
    | @adds idx amount owed rest position higher small fewer =>
        have atMost := toNat_fetchAdd_le store.system.db amount
        obtain rfl : old = new + 1 := by omega
        rw [Nat.mul_succ] at used
        rw [higher]
        omega

theorem initial_bounded (ι : Type) [Fintype ι] [DecidableEq ι]
    (hasher : String → UInt64) (shardCount : Nat) {maxMemoryBytes : Nat}
    (positive : 0 < maxMemoryBytes) (limit : Nat) :
    (initial ι hasher shardCount maxMemoryBytes).Bounded maxMemoryBytes
      limit where
  balanced := StoreSystem.initial_balanced ι hasher shardCount maxMemoryBytes
  bound := rfl
  single := fun _ => Nat.zero_le 1
  within := fun _ => trivial
  used := by
    have none : (initial ι hasher shardCount maxMemoryBytes).pendingAdds = 0 :=
      Finset.sum_eq_zero fun _ _ => rfl
    rw [none]
    exact Nat.lt_add_right _ positive

/-- However the calls of the tasks overlap, the memory counter stays below the
bound plus one entry of the largest size for each task and one for each time
that the eviction loop has given up. -/
theorem used_lt_bound (ι : Type) [Fintype ι] [DecidableEq ι]
    (hasher : String → UInt64) (shardCount maxMemoryBytes limit : Nat)
    (positive : 0 < maxMemoryBytes) (actions : List (ι × TaskAction))
    (store : CrowdedStore ι hasher)
    (reaches : Reaches step
      (fun store action =>
        store.system.db.storedSize + store.system.excess < 2 ^ 64 ∧
          action.2.Within limit)
      (initial ι hasher shardCount maxMemoryBytes) actions store) :
    store.system.db.usedMemory.toNat <
      maxMemoryBytes + limit * (Fintype.card ι + store.givenUp) := by
  have kept : store.Bounded maxMemoryBytes limit :=
    reaches.invariant
      (fun bounded allowed taken =>
        Bounded.step positive bounded allowed.1 allowed.2 taken)
      (initial_bounded ι hasher shardCount positive limit)
  have used := kept.used
  omega

/-- Two tasks choose the same entry to evict; one of them finds it gone and
gives up. -/
def contendedActions : List (Bool × TaskAction) :=
  [(false, .set "a" [1] none), (false, .load), (false, .prepare 0),
    (false, .lockWrite), (false, .perform 0 0 .front), (false, .adjust),
    (false, .unlock), (false, .set "b" [1] none), (true, .set "c" [1] none),
    (false, .load), (true, .load), (false, .lockRead), (true, .lockRead),
    (false, .sample), (true, .sample), (false, .unlockRead),
    (true, .unlockRead), (false, .choose), (true, .choose), (false, .lockWrite),
    (false, .perform 1 1 .front), (false, .adjust), (false, .unlock),
    (true, .lockWrite), (true, .perform 1 1 .front), (true, .unlock),
    (false, .load), (true, .prepare 1), (false, .prepare 1), (true, .lockWrite),
    (true, .perform 1 1 .front), (true, .adjust), (true, .unlock),
    (false, .lockWrite), (false, .perform 1 1 .front), (false, .adjust),
    (false, .unlock)]

theorem used_lt_bound_contendedActions :
    ∃ store : CrowdedStore Bool fun key => UInt64.ofNat key.length,
      Reaches step
        (fun store action =>
          store.system.db.storedSize + store.system.excess < 2 ^ 64 ∧
            action.2.Within 74)
        (initial Bool _ 1 74) contendedActions store ∧
      store.givenUp = 1 ∧ store.system.db.usedMemory.toNat = 148 ∧
      store.system.db.usedMemory.toNat < 74 + 74 * (2 + store.givenUp) := by
  let first : CrowdedStore Bool fun key => UInt64.ofNat key.length :=
    initial Bool _ 1 74
  let check (store : CrowdedStore Bool fun key => UInt64.ofNat key.length)
      (action : Bool × TaskAction) : Bool :=
    decide (store.system.db.storedSize + store.system.excess < 2 ^ 64 ∧
      action.2.Within 74)
  have shown : (runActions (fun store action =>
      if check store action then step store action else none) first
      contendedActions).map (fun store =>
        (store.givenUp, store.system.db.usedMemory.toNat)) = some (1, 148) := by
    decide +kernel
  obtain ⟨store, ran, outcome⟩ := Option.map_eq_some_iff.mp shown
  obtain ⟨givenUp, used⟩ := Prod.mk.inj outcome
  have reaches : Reaches step
      (fun store action =>
        store.system.db.storedSize + store.system.excess < 2 ^ 64 ∧
          action.2.Within 74) first contendedActions store :=
    reaches_of_checked (fun _ checked => of_decide_eq_true checked)
      (fun _ _ _ => trivial) trivial ran
  exact ⟨store, reaches, givenUp, used,
    used_lt_bound Bool _ 1 74 74 (by decide) contendedActions store reaches⟩

end CrowdedStore

end RustiCache
