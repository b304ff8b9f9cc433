import RustiCache.ReplicaServer

/-!
# Who writes to a replica

A replica reports itself as read-only, but the commands of its clients are
executed like those of a master's.  So what it stores is what the commands of
the stream make of its first contents exactly if no client writes anything but
what is stored already.
-/

namespace RustiCache

namespace ReplicaServer

variable {hasher : String → UInt64} {config : PoolConfig}
  {system next : ReplicaServer hasher} {action : ReplicaAction}

/-- The action sets no expiry. -/
def WithoutExpiry (config : PoolConfig) (system : ReplicaServer hasher)
    (action : ReplicaAction) : Prop :=
  ∀ cmd ∈ system.upcoming config action, cmd.Unexpiring

instance (config : PoolConfig) (system : ReplicaServer hasher)
    (action : ReplicaAction) :
    Decidable (WithoutExpiry config system action) :=
  inferInstanceAs
    (Decidable (∀ cmd ∈ system.upcoming config action, cmd.Unexpiring))

/-- A client writes what is stored already, or nothing. -/
def Harmless (config : PoolConfig) (system : ReplicaServer hasher) :
    ReplicaAction → Prop
  | .client action => ∀ cmd ∈ system.pool.upcoming config action,
      cmd.Redundant system.keyspace
  | _ => True

instance (config : PoolConfig) (system : ReplicaServer hasher) :
    DecidablePred (Harmless config system)
  | .client action => inferInstanceAs (Decidable (∀ cmd ∈
      system.pool.upcoming config action, cmd.Redundant system.keyspace))
  | .send | .receive _ | .advance | .replay _ =>
      inferInstanceAs (Decidable True)

/-- Nothing is evicted, and nothing expires. -/
structure Permanent (system : ReplicaServer hasher) : Prop where
  unbounded : system.pool.server.db.maxMemoryBytes = 0
  lasting : system.keyspace.Lasting
  unexpiring : ∀ cmd ∈ system.follower.executed, cmd.Unexpiring

/-- The store is what the commands of the stream make of some contents. -/
def Streamed (base : TimedMap String Bytes Instant)
    (system : ReplicaServer hasher) : Prop :=
  system.keyspace = KeyWrite.applyAll base
    (system.follower.executed.flatMap Command.writes)

/-- The command of the stream that an action executes. -/
def streams (system : ReplicaServer hasher) : ReplicaAction → Option Command
  | .replay _ => system.follower.upcoming
  | _ => none

/-- What a step does to the store and to the record of the stream. -/
structure Effect (config : PoolConfig) (system : ReplicaServer hasher)
    (action : ReplicaAction) (next : ReplicaServer hasher) : Prop where
  executed : next.follower.executed =
    system.follower.executed ++ (system.streams action).toList
  makes : Command.Makes
    ((system.upcoming config action).toList.flatMap Command.writes)
    system.pool.server.db next.pool.server.db

theorem effect_of_steady (permanent : Permanent system)
    {follower : Follower hasher} (steady : system.follower.Steady follower)
    (silent : system.upcoming config action = none)
    (unstreamed : system.streams action = none) :
    Effect config system action (system.follow follower) where
  executed := by
    rw [unstreamed, Option.toList_none, List.append_nil]
    exact steady.executed
  makes := by
    have same : follower.server.db = system.pool.server.db := by
      rw [steady.db, system.shared]
    rw [silent]
    exact Command.makes_nil permanent.lasting (congrArg Db.contents same)
      (congrArg Db.maxMemoryBytes same)

theorem effect_of_step (permanent : Permanent system)
    (withoutExpiry : WithoutExpiry config system action)
    (taken : system.step config action = some next) :
    Effect config system action next := by
  cases action with
  | client act =>
      obtain ⟨pool, acted, rfl⟩ := Option.map_eq_some_iff.mp taken
      constructor
      · change _ = system.follower.executed ++ []
        rw [List.append_nil]
        exact Follower.executed_others pool.server system.follower
      · exact ServerPool.makes_step permanent.unbounded permanent.lasting
          withoutExpiry acted
  | send =>
      obtain ⟨follower, sent, rfl⟩ := Option.map_eq_some_iff.mp taken
      exact effect_of_steady permanent (Follower.steady_send sent) rfl rfl
  | receive chunk =>
      obtain ⟨follower, received, rfl⟩ := Option.map_eq_some_iff.mp taken
      exact effect_of_steady permanent (Follower.steady_receive received) rfl
        rfl
  | advance =>
      obtain ⟨follower, advanced, rfl⟩ := Option.map_eq_some_iff.mp taken
      exact effect_of_steady permanent (Follower.steady_advance advanced) rfl
        rfl
  | replay moment =>
      obtain ⟨follower, replayed, rfl⟩ := Option.map_eq_some_iff.mp taken
      have unbounded := permanent.unbounded
      have lasting := permanent.lasting
      rw [keyspace, ← system.shared] at lasting
      rw [← system.shared] at unbounded
      obtain ⟨executed, makes⟩ :=
        Follower.makes_replay unbounded lasting withoutExpiry replayed
      rw [system.shared] at makes
      exact ⟨executed, makes⟩

theorem permanent_step (permanent : Permanent system)
    (withoutExpiry : WithoutExpiry config system action)
    (taken : system.step config action = some next) : Permanent next := by
  have effect := effect_of_step permanent withoutExpiry taken
  refine ⟨effect.makes.bound.trans permanent.unbounded, effect.makes.lasting, ?_⟩
  intro cmd member
  rw [effect.executed, List.mem_append] at member
  rcases member with earlier | last
  · exact permanent.unexpiring cmd earlier
  · rw [Option.mem_toList] at last
    cases action with
    | replay moment => exact withoutExpiry cmd last
    | _ => cases last

/-- The store stays that of the stream in a step exactly if the step is
harmless. -/
theorem streamed_step_iff {base : TimedMap String Bytes Instant}
    (permanent : Permanent system)
    (withoutExpiry : WithoutExpiry config system action)
    (streamed : Streamed base system)
    (taken : system.step config action = some next) :
    Streamed base next ↔ Harmless config system action := by
  obtain ⟨executed, makes⟩ := effect_of_step permanent withoutExpiry taken
  have after : next.keyspace = KeyWrite.applyAll system.keyspace
      ((system.upcoming config action).toList.flatMap Command.writes) :=
    makes.contents
  rw [Streamed, executed, List.flatMap_append, KeyWrite.applyAll_append,
    ← streamed, after]
  cases action with
  | client act =>
      change KeyWrite.applyAll system.keyspace
          ((system.pool.upcoming config act).toList.flatMap Command.writes) =
        system.keyspace ↔
          ∀ cmd ∈ system.pool.upcoming config act, cmd.Redundant system.keyspace
      have unexpiring : ∀ cmd ∈ system.pool.upcoming config act,
          cmd.Unexpiring := withoutExpiry
      cases executes : system.pool.upcoming config act with
      | none => exact iff_of_true rfl nofun
      | some cmd =>
          rw [Option.toList_some, List.flatMap_singleton,
            Command.applyAll_writes_eq_iff (unexpiring cmd executes)]
          simp
  | _ => exact iff_of_true rfl trivial

section Runs

variable {masterHost : String} {masterPort : UInt16}
  {masterauth : Option String} {myPort : UInt16} {db : Db hasher}
  {cluster : Option ClusterTopology}

theorem permanent_start (unbounded : db.maxMemoryBytes = 0)
    (lasting : db.contents.Lasting) :
    Permanent (start masterHost masterPort masterauth myPort db cluster) :=
  ⟨unbounded, lasting, nofun⟩

/-- What a replica stores is all along a run what the stream alone makes of its
first contents, exactly if every step is harmless. -/
theorem keyspace_streamed_iff (unbounded : db.maxMemoryBytes = 0)
    (lasting : db.contents.Lasting) (moments : Nat → Moment)
    {final : ReplicaServer hasher} {actions : List ReplicaAction}
    (reaches : Reaches (step config) (WithoutExpiry config)
      (start masterHost masterPort masterauth myPort db cluster) actions
      final) :
    let first := start masterHost masterPort masterauth myPort db cluster
    (∀ past system, past <+: actions →
        Reaches (step config) (WithoutExpiry config) first past system →
        system.keyspace = (Command.applyInOrder moments first.pool.server
          system.follower.executed).db.contents) ↔
      Reaches (step config) (Harmless config) first actions final := by
  intro first
  have permanent : Permanent first := permanent_start unbounded lasting
  have initially : Streamed db.contents first := rfl
  have reference {system : ReplicaServer hasher} {past : List ReplicaAction}
      (reached : Reaches (step config) (WithoutExpiry config) first past
        system) :
      (Command.applyInOrder moments first.pool.server
          system.follower.executed).db.contents =
        KeyWrite.applyAll db.contents
          (system.follower.executed.flatMap Command.writes) :=
    (Command.applyInOrder_makes unbounded lasting moments
      (reached.invariant permanent_step permanent).unexpiring).contents
  have keeps {system next : ReplicaServer hasher} {action : ReplicaAction}
      (permanent : Permanent system)
      (withoutExpiry : WithoutExpiry config system action)
      (streamed : Streamed db.contents system)
      (taken : system.step config action = some next) :=
    streamed_step_iff permanent withoutExpiry streamed taken
  have along := reaches.throughout_iff permanent_step keeps permanent
  rw [and_iff_right initially] at along
  rw [← along]
  apply forall_congr'
  intro past
  apply forall_congr'
  intro system
  apply imp_congr_right
  intro early
  apply imp_congr_right
  intro reached
  rw [reference reached, Streamed]

end Runs

/-- A replica of a master on the same host, with an empty store. -/
def sampleReplica : ReplicaServer fun _ => 0 :=
  start "127.0.0.1" 6379 none 6380 (.withConfig (fun _ => 0) 1 0) none

def firstMoment : Moment := ⟨fun _ => 0, .front⟩

/-- The handshake, and then a `SET` that the master has passed on. -/
def followActions : List ReplicaAction :=
  [.send, .receive (asBytes "+PONG\r\n"), .advance,
    .send, .receive (asBytes "+OK\r\n"), .advance,
    .send, .receive (asBytes "+OK\r\n"), .advance,
    .send, .receive (resyncLine "8371b4fb" ++ snapshotHeader), .advance,
    .advance, .receive (getEmptyRdbBytes ++
      (Value.wordsFrame ["SET", "k", "a"]).1), .advance,
    .replay firstMoment]

/-- A client sends a command and gets the reply. -/
def clientActions (words : List String) : List ReplicaAction :=
  [.client (.read 0 (Value.wordsFrame words).1),
    .client (.process 0 firstMoment), .client (.process 0 firstMoment),
    .client (.process 0 firstMoment)]

/-- A client reads the key, and writes what is stored. -/
def readerActions : List ReplicaAction :=
  followActions ++ .client (.accept 0) ::
    (clientActions ["GET", "k"] ++ clientActions ["SET", "k", "a"])

theorem keyspace_streamed_iff_reader :
    ∃ final, Reaches (step ⟨none, 1024⟩) (WithoutExpiry ⟨none, 1024⟩)
        sampleReplica readerActions final ∧
      ∀ past system, past <+: readerActions →
        Reaches (step ⟨none, 1024⟩) (WithoutExpiry ⟨none, 1024⟩) sampleReplica
          past system →
        system.keyspace = (Command.applyInOrder (fun _ => firstMoment)
          sampleReplica.pool.server system.follower.executed).db.contents := by
  have ran : (runActions (fun system action =>
      if decide (WithoutExpiry ⟨none, 1024⟩ system action ∧
          Harmless ⟨none, 1024⟩ system action) then
        step ⟨none, 1024⟩ system action
      else
        none) sampleReplica readerActions).isSome := by
    simp only [readerActions, followActions, snapshotHeader,
      ReplicaTask.getEmptyRdbBytes_eq]
    decide +kernel
  obtain ⟨final, checked⟩ := Option.isSome_iff_exists.mp ran
  have reaches : Reaches (step ⟨none, 1024⟩) (WithoutExpiry ⟨none, 1024⟩)
      sampleReplica readerActions final :=
    reaches_of_checked (fun _ meets => (of_decide_eq_true meets).1)
      (fun _ _ _ => trivial) trivial checked
  have harmless : Reaches (step ⟨none, 1024⟩) (Harmless ⟨none, 1024⟩)
      sampleReplica readerActions final :=
    reaches_of_checked (fun _ meets => (of_decide_eq_true meets).2)
      (fun _ _ _ => trivial) trivial checked
  refine ⟨final, reaches, (keyspace_streamed_iff rfl ?_ _ reaches).mpr harmless⟩
  rw [Db.contents_withConfig]
  exact nofun

/-- A client replaces what the master has written. -/
theorem client_overwrites_stream :
    ∃ final, Reaches (step ⟨none, 1024⟩) (WithoutExpiry ⟨none, 1024⟩)
        sampleReplica (followActions ++ .client (.accept 0) ::
          clientActions ["SET", "k", "b"]) final ∧
      final.follower.executed = [.set "k" (asBytes "a") none] ∧
      final.keyspace "k" = some (asBytes "b", none) ∧
      (Command.applyInOrder (fun _ => firstMoment) sampleReplica.pool.server
        final.follower.executed).db.contents "k" = some (asBytes "a", none) := by
  have ran : (runActions (fun system action =>
      if decide (WithoutExpiry ⟨none, 1024⟩ system action) then
        step ⟨none, 1024⟩ system action
      else
        none) sampleReplica (followActions ++ .client (.accept 0) ::
          clientActions ["SET", "k", "b"])).map (fun final =>
        decide (final.follower.executed = [.set "k" (asBytes "a") none] ∧
          final.keyspace "k" = some (asBytes "b", none))) = some true := by
    simp only [followActions, snapshotHeader, ReplicaTask.getEmptyRdbBytes_eq]
    decide +kernel
  obtain ⟨final, checked, outcome⟩ := Option.map_eq_some_iff.mp ran
  obtain ⟨executed, overwritten⟩ := of_decide_eq_true outcome
  refine ⟨final, reaches_of_checked (fun _ meets => of_decide_eq_true meets)
    (fun _ _ _ => trivial) trivial checked, executed, overwritten, ?_⟩
  rw [executed]
  decide +kernel

end ReplicaServer

end RustiCache
