import RustiCache.ActionRuns
import Mathlib.Logic.Function.Basic

/-!
# Writes that are relayed after they are made

Several writers change a store key by key and relay their commands to a replica
only when they are through, so the replica may see the commands in another
order than the store did.  It ends up with the same values if no writer touches
a key that another writer has changed and not yet relayed.
-/

namespace RustiCache

/-- A write to one key. -/
inductive KeyWrite (κ ν : Type) where
  | put (key : κ) (value : ν)
  | remove (key : κ)

namespace KeyWrite

variable {κ ν : Type} [DecidableEq κ]

def key : KeyWrite κ ν → κ
  | put key _ => key
  | remove key => key

def apply (store : κ → Option ν) : KeyWrite κ ν → κ → Option ν
  | put key value => Function.update store key (some value)
  | remove key => Function.update store key none

/-- A removal is only worth relaying if it removes something. -/
def counts (store : κ → Option ν) : KeyWrite κ ν → Bool
  | put _ _ => true
  | remove key => (store key).isSome

def applyAll (store : κ → Option ν) (writes : List (KeyWrite κ ν)) :
    κ → Option ν :=
  writes.foldl apply store

theorem apply_of_ne (store : κ → Option ν) {write : KeyWrite κ ν} {key : κ}
    (other : key ≠ write.key) : write.apply store key = store key := by
  cases write with
  | put _ _ => exact Function.update_of_ne other ..
  | remove _ => exact Function.update_of_ne other ..

/-- What a write leaves at a key depends on what was there at most. -/
theorem apply_congr {first second : κ → Option ν} (write : KeyWrite κ ν)
    {key : κ} (same : key = write.key ∨ first key = second key) :
    write.apply first key = write.apply second key := by
  by_cases own : key = write.key
  · subst own
    cases write with
    | put _ _ => simp [apply, KeyWrite.key]
    | remove _ => simp [apply, KeyWrite.key]
  · rw [apply_of_ne first own, apply_of_ne second own]
    exact same.resolve_left own

theorem applyAll_congr {first second : κ → Option ν}
    (writes : List (KeyWrite κ ν)) {key : κ} (same : first key = second key) :
    applyAll first writes key = applyAll second writes key := by
  induction writes generalizing first second with
  | nil => exact same
  | cons write writes ih => exact ih (apply_congr write (.inr same))

theorem applyAll_of_notMem (store : κ → Option ν)
    {writes : List (KeyWrite κ ν)} {key : κ}
    (untouched : key ∉ writes.map KeyWrite.key) :
    applyAll store writes key = store key := by
  induction writes generalizing store with
  | nil => rfl
  | cons write writes ih =>
      rw [List.map_cons, List.mem_cons, not_or] at untouched
      exact (ih (write.apply store) untouched.2).trans
        (apply_of_ne store untouched.1)

/-- What the writes leave at a key that they touch depends on them alone. -/
theorem applyAll_of_mem (first second : κ → Option ν)
    {writes : List (KeyWrite κ ν)} {key : κ}
    (touched : key ∈ writes.map KeyWrite.key) :
    applyAll first writes key = applyAll second writes key := by
  induction writes generalizing first second with
  | nil => cases touched
  | cons write writes ih =>
      rw [List.map_cons, List.mem_cons] at touched
      rcases touched with own | later
      · exact applyAll_congr writes (apply_congr write (.inl own))
      · exact ih (write.apply first) (write.apply second) later

/-- The same writes lead to the same values exactly if the stores agree on what
is not written. -/
theorem applyAll_eq_iff {first second : κ → Option ν}
    {writes : List (KeyWrite κ ν)} :
    applyAll first writes = applyAll second writes ↔
      ∀ key, key ∉ writes.map KeyWrite.key → first key = second key := by
  constructor
  · intro same key untouched
    have atKey := congrFun same key
    rwa [applyAll_of_notMem first untouched,
      applyAll_of_notMem second untouched] at atKey
  · intro agrees
    ext1 key
    by_cases touched : key ∈ writes.map KeyWrite.key
    · exact applyAll_of_mem first second touched
    · exact applyAll_congr writes (agrees key touched)

theorem applyAll_append (store : κ → Option ν)
    (first second : List (KeyWrite κ ν)) :
    applyAll store (first ++ second) =
      applyAll (applyAll store first) second :=
  List.foldl_append ..

theorem applyAll_snoc (store : κ → Option ν) (writes : List (KeyWrite κ ν))
    (write : KeyWrite κ ν) :
    applyAll store (writes ++ [write]) = write.apply (applyAll store writes) := by
  rw [applyAll, List.foldl_append]
  rfl

end KeyWrite

/-- How far a writer has got with its command. -/
structure Progress (κ ν : Type) where
  written : List (KeyWrite κ ν)
  remaining : List (KeyWrite κ ν)
  counted : Bool

/-- The keys changed so far. -/
def Progress.keys {κ ν : Type} : Option (Progress κ ν) → List κ
  | some progress => progress.written.map KeyWrite.key
  | none => []

/-- The store, the replica and the writers. -/
structure Relay (ι κ ν : Type) where
  store : κ → Option ν
  replica : κ → Option ν
  writers : ι → Option (Progress κ ν)

inductive RelayAction (ι κ ν : Type) where
  | issue (writer : ι) (writes : List (KeyWrite κ ν))
  | write (writer : ι)
  | relay (writer : ι)

namespace Relay

variable {ι κ ν : Type} [DecidableEq ι] [DecidableEq κ]

def step (system : Relay ι κ ν) : RelayAction ι κ ν → Option (Relay ι κ ν)
  | .issue writer writes =>
      match system.writers writer with
      | none =>
          some { system with
            writers := Function.update system.writers writer
              (some ⟨[], writes, false⟩) }
      | some _ => none
  | .write writer =>
      match system.writers writer with
      | some ⟨written, write :: remaining, counted⟩ =>
          some { system with
            store := write.apply system.store
            writers := Function.update system.writers writer
              (some ⟨written ++ [write], remaining,
                counted || write.counts system.store⟩) }
      | _ => none
  | .relay writer =>
      match system.writers writer with
      | some ⟨written, [], counted⟩ =>
          some { system with
            replica :=
              if counted then KeyWrite.applyAll system.replica written
              else system.replica
            writers := Function.update system.writers writer none }
      | _ => none

/-- The keys that a writer has changed and not yet relayed. -/
def touched (system : Relay ι κ ν) (writer : ι) : List κ :=
  Progress.keys (system.writers writer)

/-- A writer only writes to a key that no other writer has changed and not yet
relayed. -/
def Undisturbed (system : Relay ι κ ν) : RelayAction ι κ ν → Prop
  | .write writer =>
      ∀ progress ∈ system.writers writer,
        ∀ write ∈ progress.remaining.head?,
          ∀ other, other ≠ writer → write.key ∉ system.touched other
  | _ => True

/-- What an action does, with the conditions under which it can be taken. -/
inductive Transition (system : Relay ι κ ν) :
    RelayAction ι κ ν → Relay ι κ ν → Prop where
  | issue {writer : ι} {writes : List (KeyWrite κ ν)}
      (idle : system.writers writer = none) :
      Transition system (.issue writer writes)
        { system with
          writers := Function.update system.writers writer
            (some ⟨[], writes, false⟩) }
  | write {writer : ι} {written remaining : List (KeyWrite κ ν)}
      {write : KeyWrite κ ν} {counted : Bool}
      (busy : system.writers writer =
        some ⟨written, write :: remaining, counted⟩) :
      Transition system (.write writer)
        { system with
          store := write.apply system.store
          writers := Function.update system.writers writer
            (some ⟨written ++ [write], remaining,
              counted || write.counts system.store⟩) }
  | relay {writer : ι} {written : List (KeyWrite κ ν)} {counted : Bool}
      (done : system.writers writer = some ⟨written, [], counted⟩) :
      Transition system (.relay writer)
        { system with
          replica :=
            if counted then KeyWrite.applyAll system.replica written
            else system.replica
          writers := Function.update system.writers writer none }

theorem transition_of_step {system next : Relay ι κ ν}
    {action : RelayAction ι κ ν} (taken : system.step action = some next) :
    Transition system action next := by
  cases action with
  | issue writer writes =>
      simp only [step] at taken
      split at taken
      next idle =>
        cases taken
        exact .issue idle
      next => cases taken
  | write writer =>
      simp only [step] at taken
      split at taken
      next busy =>
        cases taken
        exact .write busy
      next => cases taken
  | relay writer =>
      simp only [step] at taken
      split at taken
      next done =>
        cases taken
        exact .relay done
      next => cases taken

/-- At the keys of a writer, the replica lags behind the store by the writes
that are not yet relayed, and not at all if they do not count. -/
structure Tracks (store replica : κ → Option ν) (progress : Progress κ ν) :
    Prop where
  pending : ∀ key ∈ Progress.keys (some progress),
    store key = KeyWrite.applyAll replica progress.written key
  uncounted : progress.counted = false →
    ∀ key ∈ Progress.keys (some progress), store key = replica key

/-- The replica lags behind the store only by what is not yet relayed. -/
structure Consistent (system : Relay ι κ ν) : Prop where
  exclusive : ∀ {first second key}, first ≠ second →
    key ∈ system.touched first → key ∉ system.touched second
  settled : ∀ {key}, (∀ writer, key ∉ system.touched writer) →
    system.store key = system.replica key
  tracks : ∀ {writer progress}, system.writers writer = some progress →
    Tracks system.store system.replica progress

omit [DecidableEq ι] in
theorem consistent_of_idle {system : Relay ι κ ν}
    (idle : ∀ writer, system.writers writer = none)
    (same : system.store = system.replica) : system.Consistent where
  exclusive {first} _ _ _ member := by
    rw [touched, idle first] at member
    cases member
  settled _ := congrFun same _
  tracks {writer} _ busy := by
    rw [idle writer] at busy
    cases busy

/-- The frame rule: a writer keeps the system consistent if it stays off the
keys of the others, changes nothing but keys of its own, and leaves the keys it
gives up settled. -/
theorem Consistent.update {system : Relay ι κ ν}
    (consistent : system.Consistent) {writer : ι} {store replica : κ → Option ν}
    {progress : Option (Progress κ ν)}
    (free : ∀ other, other ≠ writer → ∀ key ∈ Progress.keys progress,
      key ∉ system.touched other)
    (frame : ∀ key, key ∉ system.touched writer → key ∉ Progress.keys progress →
      store key = system.store key ∧ replica key = system.replica key)
    (released : ∀ key ∈ system.touched writer, key ∉ Progress.keys progress →
      store key = replica key)
    (own : ∀ mine ∈ progress, Tracks store replica mine) :
    Consistent
      ⟨store, replica, Function.update system.writers writer progress⟩ := by
  have mine : touched
      ⟨store, replica, Function.update system.writers writer progress⟩ writer =
        Progress.keys progress := by
    simp [touched]
  have theirs : ∀ other, other ≠ writer → touched
      ⟨store, replica, Function.update system.writers writer progress⟩ other =
        system.touched other := by
    intro other differ
    simp [touched, Function.update_of_ne differ]
  constructor
  · intro first second key differ member
    by_cases firstOwn : first = writer
    · rw [firstOwn, mine] at member
      rw [firstOwn] at differ
      rw [theirs second differ.symm]
      exact free second differ.symm key member
    · rw [theirs first firstOwn] at member
      by_cases secondOwn : second = writer
      · rw [secondOwn, mine]
        intro kept
        exact free first firstOwn key kept member
      · rw [theirs second secondOwn]
        exact consistent.exclusive differ member
  · intro key untouched
    have notMine : key ∉ Progress.keys progress := mine ▸ untouched writer
    by_cases before : key ∈ system.touched writer
    · exact released key before notMine
    · obtain ⟨sameStore, sameReplica⟩ := frame key before notMine
      refine (sameStore.trans (consistent.settled ?_)).trans sameReplica.symm
      intro other
      by_cases isWriter : other = writer
      · rw [isWriter]
        exact before
      · exact theirs other isWriter ▸ untouched other
  · intro other theirProgress busy
    by_cases isWriter : other = writer
    · simp only [isWriter, Function.update_self] at busy
      exact own theirProgress busy
    · simp only [Function.update_of_ne isWriter] at busy
      have tracks := consistent.tracks busy
      have unchanged : ∀ key ∈ Progress.keys (some theirProgress),
          store key = system.store key ∧ replica key = system.replica key := by
        intro key member
        have member' : key ∈ system.touched other := by
          rw [touched, busy]
          exact member
        exact frame key (consistent.exclusive isWriter member')
          (fun kept => free other isWriter key kept member')
      constructor
      · intro key member
        obtain ⟨sameStore, sameReplica⟩ := unchanged key member
        exact (sameStore.trans (tracks.pending key member)).trans
          (KeyWrite.applyAll_congr _ sameReplica.symm)
      · intro uncounted key member
        obtain ⟨sameStore, sameReplica⟩ := unchanged key member
        exact (sameStore.trans (tracks.uncounted uncounted key member)).trans
          sameReplica.symm

section Steps

variable {system : Relay ι κ ν} (consistent : system.Consistent)

include consistent in
theorem tracks_write {writer : ι} {written remaining : List (KeyWrite κ ν)}
    {write : KeyWrite κ ν} {counted : Bool}
    (busy : system.writers writer =
      some ⟨written, write :: remaining, counted⟩)
    (undisturbed : ∀ other, other ≠ writer →
      write.key ∉ system.touched other) :
    Tracks (write.apply system.store) system.replica
      ⟨written ++ [write], remaining,
        counted || write.counts system.store⟩ := by
  have tracks := consistent.tracks busy
  have split : ∀ key, key ∈ Progress.keys (some (⟨written ++ [write], remaining,
      counted || write.counts system.store⟩ : Progress κ ν)) →
      key ∈ written.map KeyWrite.key ∨ key = write.key := by
    intro key member
    simpa [Progress.keys] using member
  constructor
  · intro key member
    rw [KeyWrite.applyAll_snoc]
    apply KeyWrite.apply_congr
    exact (split key member).symm.imp_right (tracks.pending key)
  · intro uncounted key member
    obtain ⟨before, still⟩ := Bool.or_eq_false_iff.mp uncounted
    have settled : system.store key = system.replica key := by
      by_cases mine : key ∈ written.map KeyWrite.key
      · exact tracks.uncounted before key mine
      · have isKey := (split key member).resolve_left mine
        apply consistent.settled
        intro other
        by_cases isWriter : other = writer
        · rw [isWriter, touched, busy]
          exact mine
        · rw [isKey]
          exact undisturbed other isWriter
    rw [← settled]
    cases write with
    | put _ _ => cases still
    | remove target =>
        -- A removal that does not count finds nothing at its key.
        have absent : system.store target = none := by
          simpa [KeyWrite.counts] using still
        rw [KeyWrite.apply, ← absent, Function.update_eq_self]

include consistent in
/-- Every undisturbed step keeps the system consistent. -/
theorem consistent_step {next : Relay ι κ ν} {action : RelayAction ι κ ν}
    (undisturbed : system.Undisturbed action)
    (taken : system.step action = some next) : next.Consistent := by
  rcases transition_of_step taken with idle | busy | done
  case issue writer writes =>
    apply consistent.update
    · simp [Progress.keys]
    · exact fun _ _ _ => ⟨rfl, rfl⟩
    · intro key member
      rw [touched, idle] at member
      cases member
    · rintro mine ⟨⟩
      exact ⟨by simp [Progress.keys], by simp [Progress.keys]⟩
  case write writer written remaining write counted =>
    have free := undisturbed _ busy write rfl
    have mine : system.touched writer = written.map KeyWrite.key := by
      rw [touched, busy]
      rfl
    apply consistent.update
    · intro other differ key member
      rcases (by simpa [Progress.keys] using member :
        key ∈ written.map KeyWrite.key ∨ key = write.key) with before | isKey
      · exact consistent.exclusive differ.symm (mine ▸ before)
      · rw [isKey]
        exact free other differ
    · intro key _ notMine
      have other : key ≠ write.key := by
        rintro rfl
        simp [Progress.keys] at notMine
      exact ⟨KeyWrite.apply_of_ne system.store other, rfl⟩
    · intro key before notMine
      rw [mine] at before
      refine absurd ?_ notMine
      rw [Progress.keys, List.map_append]
      exact List.mem_append_left _ before
    · rintro progress ⟨⟩
      exact tracks_write consistent busy free
  case relay writer written counted =>
    have tracks := consistent.tracks done
    have mine : system.touched writer = written.map KeyWrite.key := by
      rw [touched, done]
      rfl
    apply consistent.update
    · simp [Progress.keys]
    · intro key before _
      refine ⟨rfl, ?_⟩
      split
      · exact KeyWrite.applyAll_of_notMem _ (mine ▸ before)
      · rfl
    · intro key before _
      rw [mine] at before
      split
      next => exact tracks.pending key before
      next uncounted =>
        exact tracks.uncounted (Bool.eq_false_iff.mpr uncounted) key before
    · simp

end Steps

/-- In every run of undisturbed writers the replica has the values of the store
wherever nothing waits to be relayed. -/
theorem agrees_of_reaches {start final : Relay ι κ ν}
    {actions : List (RelayAction ι κ ν)}
    (idle : ∀ writer, start.writers writer = none)
    (same : start.store = start.replica)
    (reaches : Reaches step Undisturbed start actions final) {key : κ}
    (untouched : ∀ writer, key ∉ final.touched writer) :
    final.store key = final.replica key := by
  have consistent : final.Consistent := reaches.invariant
    (fun consistent undisturbed taken =>
      consistent_step consistent undisturbed taken)
    (consistent_of_idle idle same)
  exact consistent.settled untouched

end Relay

end RustiCache
