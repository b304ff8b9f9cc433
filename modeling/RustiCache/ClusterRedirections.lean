import RustiCache.ReplicaServer
import RustiCache.RunMoments
import RustiCache.SlotOwnership

/-!
# Where a cluster server sends its clients

Whatever the connections of a server do, its topology is the one it started with
after some `CLUSTER` commands.  Those give slots to the server itself and to no
other node, so a slot has the server as its owner or none at all.  A client that
asks for a key elsewhere is therefore told that the cluster is down; no run of a
server ever points a client to another node.
-/

namespace RustiCache

namespace ServerConfig

variable (hasher : String → UInt64) (config : ServerConfig)

end ServerConfig

/-- Only `CLUSTER` changes the topology. -/
theorem Command.perform_cluster_of_other {hasher : String → UInt64}
    (moment : Moment) (server : ServerState hasher) (rawCmd : Option Bytes)
    (isAuthenticated : Bool) {cmd : Command}
    (other : ∀ subcommand, cmd ≠ .cluster subcommand) :
    (cmd.perform moment server rawCmd isAuthenticated).server.cluster =
      server.cluster := by
  cases cmd with
  | ping message => cases message <;> rfl
  | set key value pxMs => rw [perform, (propagate_db _ rawCmd).2]
  | del names =>
      simp only [perform]
      split
      next => rw [(propagate_db _ rawCmd).2]
      next => rfl
  | cluster subcommand => exact absurd rfl (other subcommand)
  | _ => rfl

/-- The subcommand of a `CLUSTER` command. -/
def Command.subcommand : Command → Option ClusterSubcommand
  | cluster subcommand => some subcommand
  | _ => none

namespace ServerPool

variable {hasher : String → UInt64} {config : PoolConfig}

/-- The `CLUSTER` command that an action executes, with the order in which it
leaves the table of the nodes. -/
def clusterCommand (config : PoolConfig) (pool : ServerPool hasher) :
    PoolAction → Option (Arrangement × ClusterSubcommand)
  | .process channel moment =>
      ((pool.upcoming config (.process channel moment)).bind
        Command.subcommand).map fun subcommand =>
          (moment.arrangement, subcommand)
  | _ => none

theorem upcoming_of_clusterCommand {pool : ServerPool hasher}
    {action : PoolAction} {command : Arrangement × ClusterSubcommand}
    (found : clusterCommand config pool action = some command) :
    pool.upcoming config action = some (.cluster command.2) := by
  cases action with
  | process channel moment =>
      obtain ⟨subcommand, named, rfl⟩ := Option.map_eq_some_iff.mp found
      obtain ⟨cmd, runs, isCluster⟩ := Option.bind_eq_some_iff.mp named
      cases cmd with
      | cluster own =>
          cases isCluster
          exact runs
      | _ => cases isCluster
  | _ => cases found

section Steps

variable {pool next : ServerPool hasher} {topology : ClusterTopology}

/-- The topology is that of before, after the `CLUSTER` command if one is
executed. -/
theorem cluster_finish {connectionConfig : ConnectionConfig} {moment : Moment}
    {server : ServerState hasher} (clustered : server.cluster = some topology)
    {client : Client} {rawCmd : Bytes} {cmd : Command}
    (waits : client.stage = .checked rawCmd cmd) :
    (client.connection.finish connectionConfig moment server rawCmd
        cmd).server.cluster =
      some (((client.upcoming connectionConfig.requirepass).bind
        Command.subcommand).elim topology fun subcommand =>
          (Command.executeCluster hasher moment.arrangement topology
            subcommand).2) := by
  change (cmd.execute moment server (some rawCmd) connectionConfig.requirepass
    client.connection.isAuthenticated).server.cluster = _
  rw [Client.upcoming, waits]
  cases barred : connectionConfig.requirepass.isSome &&
      !client.connection.isAuthenticated with
  | true =>
      rw [(Command.execute_of_barred moment server rawCmd barred cmd).1]
      exact clustered
  | false =>
      rw [Command.execute_of_allowed moment server _ barred]
      cases cmd with
      | cluster subcommand =>
          simp only [Command.perform, clustered]
          rfl
      | _ =>
          rw [Command.perform_cluster_of_other moment server _ _ (by simp)]
          exact clustered

theorem cluster_turn {connectionConfig : ConnectionConfig} {moment : Moment}
    {server : ServerState hasher} (clustered : server.cluster = some topology)
    {client : Client} (draining : client.connection.phase = .draining) :
    (client.connection.turn connectionConfig moment server
        client.stage).1.server.cluster =
      some (((client.upcoming connectionConfig.requirepass).bind
        Command.subcommand).elim topology fun subcommand =>
          (Command.executeCluster hasher moment.arrangement topology
            subcommand).2) := by
  have turned := Connection.turn_cases connectionConfig moment server draining
    client.stage
  cases begun : client.stage with
  | checked rawCmd cmd => exact cluster_finish clustered begun
  | ready | announced | transferred =>
      -- no command is executed, and the other steps leave the topology alone
      have idle : client.upcoming connectionConfig.requirepass = none := by
        rw [Client.upcoming, begun]
      rw [idle]
      rw [begun] at turned
      generalize client.connection.turn connectionConfig moment server _ =
        outcome at turned ⊢
      obtain ⟨⟨after, connection⟩, stage⟩ := outcome
      dsimp only at turned ⊢
      cases turned <;> exact clustered

/-- Only a `CLUSTER` command changes the topology. -/
theorem cluster_step {action : PoolAction}
    (taken : pool.step config action = some next)
    (clustered : pool.server.cluster = some topology) :
    next.server.cluster =
      some ((clusterCommand config pool action).elim topology fun command =>
        (Command.executeCluster hasher command.1 topology command.2).2) := by
  cases action with
  | process channel moment =>
      obtain ⟨client, found, acted⟩ := Option.bind_eq_some_iff.mp taken
      obtain ⟨draining, acted⟩ := Option.ite_none_right_eq_some.mp acted
      have turned : (client.connection.turn (config.ofChannel channel) moment
          pool.server client.stage).1.server.cluster = _ :=
        cluster_turn clustered draining
      rw [clusterCommand, upcoming, found, Option.bind_some, Option.elim_map]
      cases acted
      exact turned
  | _ => cases transition_of_step taken <;> exact clustered

end Steps

end ServerPool

end RustiCache
