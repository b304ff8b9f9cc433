import RustiCache.AttachedReplicas

/-!
# Every replica is in step with its connection

While the connection of a replica is open, what the master has read and written
on it fits what the replica has sent and read, whatever the master's other
connections do.
-/

namespace RustiCache

namespace ReplicatedPool

open ServerPool (AsksOnce HoldsAt)

variable {hasher replicaHasher : String → UInt64} {config : PoolConfig}
  {replid : String}

section Link

variable {client : Client} {attachment : Attachment replicaHasher}

/-- A connection and what is attached to it. -/
def Linked (replid : String) (client : Client)
    (attachment : Attachment replicaHasher) : Prop :=
  ∃ asked unwritten, Answering replid client asked unwritten ∧
    client.connection.buffer ++ attachment.toMaster = asked ∧
    attachment.received ≤ client.connection.sent.length ∧
    Following replid client.forwarded
      (inFlight client attachment ++ unwritten) attachment.follower

theorem Answering.reconnect {asked unwritten : Bytes} {next : Client}
    (answering : Answering replid client asked unwritten)
    (stage : next.stage = client.stage)
    (registered : next.registered = client.registered)
    (handled : next.connection.handled = client.connection.handled) :
    Answering replid next asked unwritten := by
  have stillOnce (once : AsksOnce client.connection) :
      AsksOnce next.connection := by
    rwa [AsksOnce, handled]
  cases answering with
  | asked before unregistered fresh =>
      exact .asked (stage.trans before) (registered.trans unregistered)
        (by rwa [handled])
  | announced before unregistered once =>
      exact .announced (stage.trans before) (registered.trans unregistered)
        (stillOnce once)
  | transferred before unregistered once =>
      exact .transferred (stage.trans before) (registered.trans unregistered)
        (stillOnce once)
  | registered before known once =>
      exact .registered (stage.trans before) (registered.trans known)
        (stillOnce once)

theorem Answering.once {asked unwritten : Bytes}
    (answering : Answering replid client asked unwritten)
    (known : client.registered ≠ none) : AsksOnce client.connection := by
  cases answering with
  | asked _ unregistered => exact absurd unregistered known
  | announced _ _ once => exact once
  | transferred _ _ once => exact once
  | registered _ _ once => exact once

/-- The first `PSYNC` of a connection. -/
theorem asksOnce_of_fresh {connection : Connection} {frame : Bytes × Value}
    (fresh : ∀ earlier ∈ connection.handled, ¬ Command.IsPsync earlier.2) :
    (connection.handled ++ [frame]).Pairwise fun earlier later =>
      ¬ (Command.IsPsync earlier.2 ∧ Command.IsPsync later.2) := by
  refine List.pairwise_append.mpr ⟨?_, List.pairwise_singleton _ _, ?_⟩
  · exact List.pairwise_of_forall_mem_list
      fun earlier member _ _ both => fresh earlier member both.1
  · exact fun earlier member _ _ both => fresh earlier member both.1

/-- A step of a connection that drains its buffer. -/
theorem Linked.turn (linked : Linked replid client attachment)
    {pool : ServerPool hasher}
    (same : pool.server.replState.masterReplid = replid) (moment : Moment)
    (channel : ChannelId) :
    let outcome := client.connection.turn (config.ofChannel channel) moment
      pool.server client.stage
    Linked replid
      { client with
        connection := outcome.1.connection
        stage := outcome.2
        registered := pool.noted client } attachment := by
  obtain ⟨asked, unwritten, answering, buffered, bound, following⟩ := linked
  intro outcome
  have waits (stage : client.stage = .ready)
      (found : Value.attempt client.connection.buffer = .incomplete) :
      Linked replid
        { client with
          connection := outcome.1.connection
          stage := outcome.2
          registered := pool.noted client } attachment := by
    have outcomeEq : outcome = (⟨pool.server,
        { client.connection with phase := .waiting }⟩, .ready) := by
      simp only [outcome, stage]
      exact Connection.begin_incomplete moment pool.server found
    rw [outcomeEq, ServerPool.noted_of_ne (by rw [stage]; rintro ⟨⟩)]
    exact ⟨asked, unwritten, answering.reconnect stage.symm rfl rfl, buffered,
      bound, following⟩
  cases answering with
  | asked stage unregistered fresh =>
      by_cases arrived : attachment.toMaster = []
      · rw [arrived, List.append_nil] at buffered
        have begun : client.connection.begin (config.ofChannel channel) moment
            pool.server = _ :=
          Connection.begin_psync moment pool.server buffered
        have outcomeEq : outcome = client.connection.begin
            (config.ofChannel channel) moment pool.server := by
          simp only [outcome, stage, Connection.turn]
        rw [outcomeEq, begun, ServerPool.noted_of_ne (by rw [stage]; rintro ⟨⟩)]
        refine ⟨[], _, .announced rfl unregistered (asksOnce_of_fresh fresh),
          ?_, ?_, ?_⟩
        · rw [arrived]
          rfl
        · dsimp only
          rw [List.length_append]
          omega
        · simp only [inFlight, List.drop_append_of_le_length bound, same,
            List.append_assoc]
          exact following
      · have accepted : Value.decoder.Accepts
            (client.connection.buffer ++ attachment.toMaster)
            HandshakeCommand.psync.value := by
          rw [buffered]
          exact HandshakeCommand.accepts (by decide)
        exact waits stage (accepted.attempt_front arrived)
  | announced stage unregistered once =>
      have outcomeEq : outcome = (⟨pool.server, client.connection.write
          (snapshotHeader ++ getEmptyRdbBytes)⟩, .transferred) := by
        simp only [outcome, stage, Connection.turn]
      rw [outcomeEq, ServerPool.noted_of_ne (by rw [stage]; rintro ⟨⟩)]
      refine ⟨[], [], .transferred rfl unregistered once, buffered, ?_, ?_⟩
      · simp only [Connection.write, List.length_append]
        omega
      · simp only [inFlight, Connection.write, List.drop_append_of_le_length bound,
          List.append_nil]
        exact following
  | transferred stage unregistered once =>
      have noted : pool.noted client = some pool.propagated.length := by
        rw [ServerPool.noted, stage, unregistered]
      have outcomeEq : outcome.2 = .ready ∧ outcome.1.connection =
          { client.connection with isDownstreamReplica := true } := by
        simp only [outcome, stage, Connection.turn, and_self]
      rw [outcomeEq.1, outcomeEq.2, noted]
      exact ⟨[], [], .registered rfl rfl once, buffered, bound, following⟩
  | registered stage known once =>
      obtain ⟨empty, -⟩ := List.append_eq_nil_iff.mp buffered
      exact waits stage (by rw [empty]; rfl)

/-- The master writes the next byte string of the stream. -/
theorem Linked.forward (linked : Linked replid client attachment)
    (registered : client.registered ≠ none) (raw : Bytes) :
    Linked replid
      { client with
        connection := { client.connection.write raw with phase := .draining }
        forwarded := client.forwarded ++ [raw] } attachment := by
  obtain ⟨asked, unwritten, answering, buffered, bound, following⟩ := linked
  cases answering with
  | asked stage unregistered => exact absurd unregistered registered
  | announced stage unregistered => exact absurd unregistered registered
  | transferred stage unregistered => exact absurd unregistered registered
  | registered stage known once =>
      refine ⟨[], [], .registered stage known once, buffered, ?_, ?_⟩
      · simp only [Connection.write, List.length_append]
        omega
      · have forwarded := following.forward raw
        simp only [inFlight, Connection.write, List.drop_append_of_le_length bound,
          List.append_nil] at forwarded ⊢
        exact forwarded

/-- Bytes of the replica arrive at the master. -/
theorem Linked.deliver (linked : Linked replid client attachment)
    (count : Nat) :
    Linked replid
      { client with
        connection := { client.connection with
          buffer := client.connection.buffer ++ attachment.toMaster.take count
          phase := .draining } }
      { attachment with toMaster := attachment.toMaster.drop count } := by
  obtain ⟨asked, unwritten, answering, buffered, bound, following⟩ := linked
  refine ⟨asked, unwritten, answering.reconnect rfl rfl rfl, ?_, bound,
    following⟩
  rw [← buffered, List.append_assoc, List.take_append_drop]

end Link

section Steps

variable {pool next : ServerPool hasher} {channel : ChannelId}
  {client : Client} {attachment : Attachment replicaHasher}

/-- The open connection of a replica is in step with it. -/
def LinkedAt (replid : String) (pool : ServerPool hasher)
    (channel : ChannelId) (attachment : Attachment replicaHasher) : Prop :=
  HoldsAt (fun client => client.connection.phase ≠ .closed →
    Linked replid client attachment) pool.clients channel

theorem LinkedAt.process (linkedAt : LinkedAt replid pool channel attachment)
    (same : pool.server.replState.masterReplid = replid) {moment : Moment}
    {other : ChannelId}
    (taken : pool.step config (.process other moment) = some next) :
    LinkedAt replid next channel attachment := by
  obtain ⟨acting, isActing, acted⟩ := Option.bind_eq_some_iff.mp taken
  split at acted
  next draining =>
    cases acted
    refine HoldsAt.act linkedAt isActing fun own linked _ => ?_
    exact (linked (by rw [draining]; decide)).turn same moment other
  next => cases acted

/-- The master acts, other than by reading from the replica. -/
theorem LinkedAt.step (linkedAt : LinkedAt replid pool channel attachment)
    (delivering : pool.Delivering)
    (same : pool.server.replState.masterReplid = replid) {action : PoolAction}
    (unread : action.reader ≠ some channel)
    (taken : pool.step config action = some next) :
    LinkedAt replid next channel attachment := by
  cases ServerPool.transition_of_step taken with
  | accept fresh => exact HoldsAt.accept linkedAt fresh
  | hangUp own found stillOpen closed =>
      exact HoldsAt.act linkedAt found fun _ _ unclosed => absurd closed unclosed
  | fill found waiting nonempty =>
      refine HoldsAt.act linkedAt found fun own => ?_
      exact absurd (congrArg some own) unread
  | @forward other acting raw queue isActing waiting downstream queued =>
      refine HoldsAt.act linkedAt isActing fun own linked _ => ?_
      have delivered := delivering.clients other acting isActing
      refine (linked (by rw [waiting]; decide)).forward ?_ raw
      intro unregistered
      rw [delivered.downstream, unregistered] at downstream
      cases downstream
  | turn => exact linkedAt.process same taken
  | propagate rawResp => exact linkedAt
  | purge now samplePerShard => exact linkedAt

/-- The master reads from the replica. -/
theorem LinkedAt.deliver (linkedAt : LinkedAt replid pool channel attachment)
    {count : Nat}
    (taken : pool.step config
      (.read channel (attachment.toMaster.take count)) = some next) :
    LinkedAt replid next channel
      { attachment with toMaster := attachment.toMaster.drop count } := by
  obtain ⟨client, found, linked⟩ := linkedAt
  cases ServerPool.transition_of_step taken with
  | hangUp own isFound stillOpen closed =>
      cases own
      exact ⟨_, Function.update_self .., fun unclosed => absurd closed unclosed⟩
  | fill isFound waiting nonempty =>
      rw [isFound] at found
      cases found
      exact ⟨_, Function.update_self .., fun _ =>
        (linked (by rw [waiting]; decide)).deliver count⟩

end Steps

end ReplicatedPool

end RustiCache
