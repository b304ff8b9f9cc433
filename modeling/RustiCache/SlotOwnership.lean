import RustiCache.NodeIdentity
import RustiCache.ServerPoolSteps
import RustiCache.SlotRouting
import RustiCache.TimedMapRefinement

/-!
# Stored keys belong here

A server of a cluster checks that a key's slot is its own and executes the
command later.  In between other connections may change the topology, but a slot
is never taken away from the server, so what it stores is always its own.
-/

namespace RustiCache

namespace Command

variable {hasher : String → UInt64}

theorem within_delKeys (names : List String) (db : Db hasher) :
    TimedMap.Within db.contents (delKeys names db).2.contents := by
  induction names generalizing db with
  | nil => exact TimedMap.Within.refl db.contents
  | cons key names ih =>
      have first : TimedMap.Within db.contents (db.del key).2.contents := by
        rw [Db.contents_del]
        exact TimedMap.Within.of_delete db.contents key
      exact first.trans (ih (db.del key).2)

theorem within_existsKeys (clock : Nat → Instant) (reading : Nat)
    (names : List String) (db : Db hasher) :
    TimedMap.Within db.contents
      (existsKeys clock reading names db).2.contents := by
  induction names generalizing reading db with
  | nil => exact TimedMap.Within.refl db.contents
  | cons key names ih =>
      have first : TimedMap.Within db.contents
          (db.exists (clock reading) key).2.contents :=
        (db.contents_get (clock reading) key).within
      exact first.trans (ih (reading + 1) _)

theorem propagate_db (server : ServerState hasher) (rawCmd : Option Bytes) :
    (propagate server rawCmd).db = server.db ∧
      (propagate server rawCmd).cluster = server.cluster := by
  unfold propagate
  split
  next => exact ⟨rfl, rfl⟩
  next => cases rawCmd <;> exact ⟨rfl, rfl⟩

/-- Only `SET` stores a key that was not stored. -/
theorem perform_stores {key : String} (moment : Moment)
    (server : ServerState hasher) (rawCmd : Option Bytes)
    (isAuthenticated : Bool) (cmd : Command)
    (stored : (cmd.perform moment server rawCmd
      isAuthenticated).server.db.contents key ≠ none) :
    server.db.contents key ≠ none ∨
      ∃ value pxMs, cmd = .set key value pxMs := by
  have kept {next : Db hasher}
      (within : TimedMap.Within server.db.contents next.contents)
      (remains : next.contents key ≠ none) :
      server.db.contents key ≠ none := by
    rcases within key with same | gone
    · rwa [← same]
    · exact absurd gone remains
  cases cmd with
  | ping message => cases message <;> exact Or.inl stored
  | get name =>
      exact Or.inl (kept (server.db.contents_get (moment.clock 0) name).within
        stored)
  | set name value pxMs =>
      by_cases same : name = key
      · subst same
        exact Or.inr ⟨value, pxMs, rfl⟩
      · left
        simp only [perform, (propagate_db _ rawCmd).1] at stored
        obtain ⟨remaining, within, -, written⟩ := server.db.contents_set
          moment.arrangement (moment.clock 1) name value
          (pxMs.map fun ms => moment.clock 0 + ms.toNat * nanosPerMilli)
        rw [written, TimedMap.write,
          Function.update_of_ne (Ne.symm same)] at stored
        rcases within key with unchanged | gone
        · rwa [← unchanged]
        · exact absurd gone stored
  | del names =>
      left
      refine kept (within_delKeys names server.db) ?_
      simp only [perform] at stored
      split at stored
      next => rwa [(propagate_db _ rawCmd).1] at stored
      next => exact stored
  | «exists» names =>
      exact Or.inl (kept (within_existsKeys moment.clock 0 names server.db)
        stored)
  | cluster subcommand =>
      left
      simp only [perform] at stored
      split at stored <;> exact stored
  | _ => exact Or.inl stored

/-- The topology changes by what `CLUSTER` does to it. -/
theorem perform_cluster (moment : Moment) {server : ServerState hasher}
    {topology : ClusterTopology} (clustered : server.cluster = some topology)
    (rawCmd : Option Bytes) (isAuthenticated : Bool) (cmd : Command) :
    (cmd.perform moment server rawCmd isAuthenticated).server.cluster =
        some topology ∨
      ∃ subcommand,
        (cmd.perform moment server rawCmd isAuthenticated).server.cluster =
          some (executeCluster hasher moment.arrangement topology
            subcommand).2 := by
  cases cmd with
  | ping message => cases message <;> exact Or.inl clustered
  | set key value pxMs =>
      left
      rw [perform, (propagate_db _ rawCmd).2]
      exact clustered
  | del names =>
      left
      simp only [perform]
      split
      next => rw [(propagate_db _ rawCmd).2]; exact clustered
      next => exact clustered
  | cluster subcommand =>
      right
      refine ⟨subcommand, ?_⟩
      simp only [perform, clustered]
  | _ => exact Or.inl clustered

theorem perform_isAuthenticated (moment : Moment) (server : ServerState hasher)
    (rawCmd : Option Bytes) (cmd : Command) :
    (cmd.perform moment server rawCmd true).isAuthenticated = true := by
  cases cmd with
  | ping message => cases message <;> rfl
  | cluster subcommand =>
      simp only [perform]
      split <;> rfl
  | _ => rfl

end Command

namespace ClusterTopology

variable {hasher : String → UInt64}

/-- The server keeps the slots it owns. -/
def Retains (before after : ClusterTopology) : Prop :=
  ∀ slot, before.ownsSlot slot = true → after.ownsSlot slot = true

theorem executeCluster_retains {topology : ClusterTopology}
    (keyed : topology.Keyed) (arrangement : Arrangement)
    (subcommand : ClusterSubcommand) :
    topology.Retains
      (Command.executeCluster hasher arrangement topology subcommand).2 := by
  intro slot owned
  cases subcommand with
  | addSlots slots =>
      rw [addSlots_command_eq keyed]
      split
      next known =>
        have granted := addSlots_granted slots keyed known
        rw [ownsSlot_iff] at owned ⊢
        rw [granted.ownerId_eq, granted.myselfId_eq]
        split
        next => rfl
        next => exact owned
      next => exact owned
  | _ => exact owned

end ClusterTopology

namespace ServerPool

variable {hasher : String → UInt64} {config : PoolConfig}
  {pool next : ServerPool hasher} {topology later : ClusterTopology}

/-- A command that has been checked for an authenticated client is for keys of
the server. -/
def Passed (topology : ClusterTopology) (client : Client) : Prop :=
  ∀ rawCmd cmd, client.stage = .checked rawCmd cmd →
    client.connection.isAuthenticated = true →
      ∀ key ∈ cmd.targetKey, topology.Serves key

/-- The server stores its own keys only. -/
structure Owning (config : PoolConfig) (topology : ClusterTopology)
    (server : ServerState hasher) (clients : ChannelId → Option Client) :
    Prop where
  clustered : server.cluster = some topology
  keyed : topology.Keyed
  stored : ∀ key, server.db.contents key ≠ none → topology.Serves key
  passed : ∀ channel client, clients channel = some client →
    Passed topology client
  welcome : config.requirepass = none → ∀ channel client,
    clients channel = some client → client.connection.isAuthenticated = true

section Keeping

variable {server after : ServerState hasher}
  {clients : ChannelId → Option Client}

theorem Owning.update (owning : Owning config topology server clients)
    (retains : topology.Retains later) (keyed : later.Keyed)
    (clustered : after.cluster = some later)
    (stored : ∀ key, after.db.contents key ≠ none → later.Serves key)
    {channel : ChannelId} {client : Client} (passed : Passed later client)
    (welcome : config.requirepass = none →
      client.connection.isAuthenticated = true) :
    Owning config later after
      (Function.update clients channel (some client)) where
  clustered := clustered
  keyed := keyed
  stored := stored
  passed other found present := by
    rcases of_update_eq_some present with ⟨-, rfl⟩ | ⟨-, elsewhere⟩
    · exact passed
    · intro rawCmd cmd stage authenticated key target
      exact retains _ (owning.passed other found elsewhere rawCmd cmd stage
        authenticated key target)
  welcome free other found present := by
    rcases of_update_eq_some present with ⟨-, rfl⟩ | ⟨-, elsewhere⟩
    · exact welcome free
    · exact owning.welcome free other found elsewhere

/-- The topology and the store stay. -/
theorem Owning.settle (owning : Owning config topology server clients)
    (sameCluster : after.cluster = server.cluster) (sameDb : after.db = server.db)
    {channel : ChannelId} {client : Client} (passed : Passed topology client)
    (welcome : config.requirepass = none →
      client.connection.isAuthenticated = true) :
    Owning config topology after
      (Function.update clients channel (some client)) :=
  owning.update (fun _ owned => owned) owning.keyed
    (sameCluster.trans owning.clustered)
    (fun key stored => owning.stored key (by rwa [sameDb] at stored)) passed
    welcome

theorem passed_of_stage {client : Client}
    (idle : ∀ rawCmd cmd, client.stage ≠ .checked rawCmd cmd) :
    Passed topology client :=
  fun rawCmd cmd stage => absurd stage (idle rawCmd cmd)

theorem passed_of_redirect {connection : Connection} {cmd : Command}
    (clustered : server.cluster = some topology)
    (notRedirected : Connection.redirect server.cluster
      connection.isAuthenticated cmd = none)
    (authenticated : connection.isAuthenticated = true) :
    ∀ key ∈ cmd.targetKey, topology.Serves key := by
  intro key target
  rw [clustered, authenticated, Connection.redirect_eq,
    Option.mem_def.mp target, Option.bind_some] at notRedirected
  by_contra elsewhere
  rw [if_neg elsewhere] at notRedirected
  cases notRedirected

/-- Executing a command that has passed the check. -/
theorem Owning.finish (owning : Owning config topology server clients)
    {channel : ChannelId} {client : Client}
    (found : clients channel = some client) {rawCmd : Bytes}
    {cmd : Command} (stage : client.stage = .checked rawCmd cmd)
    (moment : Moment) (registered : Option Nat) :
    let outcome := client.connection.finish (config.ofChannel channel) moment
      server rawCmd cmd
    ∃ later, topology.Retains later ∧
      Owning config later outcome.server (Function.update clients channel
        (some { client with
          connection := outcome.connection
          stage := .ready
          registered := registered })) := by
  intro outcome
  have idle : ∀ {last : ClusterTopology}, Passed last
      { client with
        connection := outcome.connection
        stage := .ready
        registered := registered } :=
    passed_of_stage (fun _ _ => by simp)
  cases barred : config.requirepass.isSome &&
      !client.connection.isAuthenticated with
  | true =>
      -- a client without the password leaves the server alone
      obtain ⟨guarded, outside⟩ := Bool.and_eq_true_iff.mp barred
      obtain ⟨pass, isPass⟩ := Option.isSome_iff_exists.mp guarded
      have unchanged : outcome.server = server := by
        rw [Bool.not_eq_true'] at outside
        simp [outcome, Connection.finish, PoolConfig.ofChannel, Command.execute,
          isPass, outside]
      refine ⟨topology, fun _ owned => owned, ?_⟩
      exact owning.settle (by rw [unchanged]) (by rw [unchanged]) idle
        (fun free => by rw [free] at isPass; cases isPass)
  | false =>
      have authenticated : client.connection.isAuthenticated = true := by
        cases open_ : config.requirepass with
        | none => exact owning.welcome open_ channel client found
        | some pass => simpa [open_] using barred
      have performed : cmd.execute moment server (some rawCmd)
          config.requirepass client.connection.isAuthenticated =
          cmd.perform moment server (some rawCmd) true := by
        rw [Command.execute_of_allowed _ _ _ barred, authenticated]
      have outcomeEq : outcome.server = (cmd.perform moment server
          (some rawCmd) true).server := by
        rw [← performed]
        rfl
      have stillWelcome : outcome.connection.isAuthenticated = true := by
        rw [← cmd.perform_isAuthenticated moment server (some rawCmd),
          ← performed]
        rfl
      have stored : ∀ key, outcome.server.db.contents key ≠ none →
          topology.Serves key := by
        intro key present
        rw [outcomeEq] at present
        rcases Command.perform_stores moment server _ true cmd present with
          before | ⟨value, pxMs, isSet⟩
        · exact owning.stored key before
        · refine owning.passed channel client found rawCmd cmd stage
            authenticated key ?_
          rw [isSet]
          rfl
      rcases Command.perform_cluster moment owning.clustered (some rawCmd) true
        cmd with same | ⟨subcommand, changed⟩
      · refine ⟨topology, fun _ owned => owned, ?_⟩
        exact owning.update (fun _ owned => owned) owning.keyed
          (outcomeEq ▸ same) stored idle (fun _ => stillWelcome)
      · have retains : topology.Retains (Command.executeCluster hasher
            moment.arrangement topology subcommand).2 :=
          ClusterTopology.executeCluster_retains owning.keyed _ _
        refine ⟨_, retains, ?_⟩
        exact owning.update retains
          (ClusterTopology.keyed_executeCluster owning.keyed _ _)
          (outcomeEq ▸ changed)
          (fun key present => retains _ (stored key present)) idle
          (fun _ => stillWelcome)

end Keeping

/-- Every step keeps the slots and the keys of the server. -/
theorem owning_step {action : PoolAction}
    (owning : Owning config topology pool.server pool.clients)
    (taken : pool.step config action = some next) :
    ∃ later, topology.Retains later ∧
      Owning config later next.server next.clients := by
  have same : topology.Retains topology := fun _ owned => owned
  cases transition_of_step taken with
  | accept fresh =>
      refine ⟨topology, same, ?_⟩
      refine owning.settle (by rfl) (by rfl) ?_ fun free => ?_
      · exact passed_of_stage fun _ _ => by simp
      · simp [Connection.new, PoolConfig.ofChannel, free]
  | hangUp own found stillOpen closed authenticated downstream handled =>
      refine ⟨topology, same, owning.settle (by rfl) (by rfl) ?_ ?_⟩
      · intro rawCmd cmd stage welcome
        exact owning.passed _ _ found rawCmd cmd stage
          (authenticated.symm.trans welcome)
      · exact fun free =>
          authenticated.trans (owning.welcome free _ _ found)
  | @fill channel client chunk found waiting nonempty =>
      have passed := owning.passed channel client found
      exact ⟨topology, same, owning.settle (by rfl) (by rfl)
        (by exact passed) fun free => owning.welcome free channel client found⟩
  | @forward channel client bytes queue found waiting downstream queued =>
      have passed := owning.passed channel client found
      exact ⟨topology, same, owning.settle (by rfl) (by rfl)
        (by exact passed) fun free => owning.welcome free channel client found⟩
  | @turn channel moment client server last stage found draining turned =>
      have welcome := fun free => owning.welcome free _ _ found
      generalize before : client.stage = begun at turned
      cases turned with
      | settle authenticated downstream stillOpen handled =>
          refine ⟨topology, same, owning.settle (by rfl) (by rfl) ?_ ?_⟩
          · exact passed_of_stage fun _ _ => by simp
          · exact fun free => authenticated.trans (welcome free)
      | hangUp authenticated downstream closed handled =>
          refine ⟨topology, same, owning.settle (by rfl) (by rfl) ?_ ?_⟩
          · exact passed_of_stage fun _ _ => by simp
          · exact fun free => authenticated.trans (welcome free)
      | check cut accepted decoded passed =>
          refine ⟨topology, same, owning.settle (by rfl) (by rfl) ?_ welcome⟩
          intro rawCmd cmd stage authenticated
          cases stage
          exact passed_of_redirect owning.clustered passed authenticated
      | announce cut accepted psync =>
          refine ⟨topology, same, owning.settle (by rfl) (by rfl) ?_ welcome⟩
          exact passed_of_stage fun _ _ => by simp
      | finish moment rawCmd cmd =>
          exact owning.finish found before moment _
      | transfer =>
          refine ⟨topology, same, owning.settle (by rfl) (by rfl) ?_ welcome⟩
          exact passed_of_stage fun _ _ => by simp
      | register =>
          refine ⟨topology, same, owning.settle (by rfl) (by rfl) ?_ welcome⟩
          exact passed_of_stage fun _ _ => by simp
  | propagate rawResp =>
      exact ⟨topology, same, owning.clustered, owning.keyed, owning.stored,
        owning.passed, owning.welcome⟩
  | purge now samplePerShard =>
      refine ⟨topology, same, owning.clustered, owning.keyed, ?_,
        owning.passed, owning.welcome⟩
      intro key present
      rcases (pool.server.db.contents_purgeExpiredSample now
        samplePerShard).within key with unchanged | gone
      · exact owning.stored key (by rwa [← unchanged])
      · exact absurd gone present

theorem owning_of_reaches {actions : List PoolAction}
    (owning : Owning config topology pool.server pool.clients)
    (reaches : Reaches (step config) (fun _ _ => True) pool actions next) :
    ∃ later, topology.Retains later ∧
      Owning config later next.server next.clients := by
  induction reaches with
  | refl => exact ⟨topology, fun _ owned => owned, owning⟩
  | snoc _ _ taken ih =>
      obtain ⟨middle, retained, owningMiddle⟩ := ih
      obtain ⟨later, retains, owningLater⟩ := owning_step owningMiddle taken
      exact ⟨later, fun slot owned => retains slot (retained slot owned),
        owningLater⟩

theorem owning_start {serverConfig : ServerConfig}
    (clustered : serverConfig.clusterEnabled = true)
    (replState : ReplicationState) (channels : Channels) :
    let pool := start
      (serverConfig.withServerConfig hasher replState channels)
    Owning config (serverConfig.topology hasher) pool.server pool.clients where
  clustered := if_pos clustered
  keyed := (serverConfig.topology_granted hasher).keyed
    (ClusterTopology.keyed_new _)
  stored key present := by
    refine absurd ?_ present
    change (Db.withConfig hasher _ _).contents key = none
    rw [Db.contents_withConfig]
    rfl
  passed _ _ found := by cases found
  welcome _ _ _ found := by cases found

/-- Whatever the connections do, a server of a cluster stores keys of its own
slots only, and keeps its slots. -/
theorem stored_keys_owned {serverConfig : ServerConfig}
    (clustered : serverConfig.clusterEnabled = true)
    {replState : ReplicationState} {channels : Channels}
    {actions : List PoolAction} {pool : ServerPool hasher}
    (reaches : Reaches (step config) (fun _ _ => True)
      (start (serverConfig.withServerConfig hasher replState channels)) actions
      pool) :
    ∃ topology, pool.server.cluster = some topology ∧
      (∀ idx key, key ∈ pool.server.db.shard idx →
        topology.ownsSlot (keySlot (asBytes key)) = true) ∧
      ∀ {more final}, Reaches (step config) (fun _ _ => True) pool more final →
        ∃ later, final.server.cluster = some later ∧
          ∀ slot, topology.ownsSlot slot = true →
            later.ownsSlot slot = true := by
  obtain ⟨topology, -, owning⟩ := owning_of_reaches
    (owning_start clustered replState channels) reaches
  refine ⟨topology, owning.clustered, ?_, ?_⟩
  · intro idx key member
    obtain ⟨entry, found⟩ := Option.isSome_iff_exists.mp
      (AList.lookup_isSome.mpr member)
    refine owning.stored key ?_
    rw [Db.contents_of_lookup found]
    simp
  · intro more final onward
    obtain ⟨later, retains, owningLater⟩ := owning_of_reaches owning onward
    exact ⟨later, owningLater.clustered, retains⟩

/-- A connection that meets a node and stores a key. -/
def meetSetActions : List PoolAction :=
  let moment : Moment := ⟨fun _ => 0, .front⟩
  let frames := (Value.wordsFrame ["CLUSTER", "MEET", "10.0.0.2", "6379"]).1 ++
    (Value.wordsFrame ["SET", "a", "v"]).1
  [.accept 0, .read 0 frames, .process 0 moment, .process 0 moment,
    .process 0 moment, .process 0 moment]

theorem stored_keys_owned_meetSet :
    let server := ServerConfig.withServerConfig (fun _ => 0)
      ⟨1, 0, true, some "n", "10.0.0.1", 6379, 16379, some "15495"⟩
      (.newMaster none) fun _ => none
    ∃ pool, Reaches (step ⟨none, 1024⟩) (fun _ _ => True) (start server)
        meetSetActions pool ∧
      "a" ∈ pool.server.db.shard 0 ∧
      ∃ topology, pool.server.cluster = some topology ∧
        topology.ownsSlot (keySlot (asBytes "a")) = true := by
  intro server
  have ran : (runActions (step ⟨none, 1024⟩) (start server)
      meetSetActions).map (fun pool =>
        decide ("a" ∈ pool.server.db.shard 0)) = some true := by
    decide +kernel
  obtain ⟨pool, reached, checked⟩ := Option.map_eq_some_iff.mp ran
  have member := of_decide_eq_true checked
  have reaches := reaches_of_runActions reached
  obtain ⟨topology, isTopology, owned, -⟩ := stored_keys_owned rfl reaches
  exact ⟨pool, reaches, member, topology, isTopology, owned 0 "a" member⟩

end ServerPool

end RustiCache
