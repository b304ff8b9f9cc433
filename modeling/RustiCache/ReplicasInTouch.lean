import RustiCache.ReplicaLinks

/-!
# All replicas of a master

In every run of a master with its replicas, every replica on an open connection
stays in step with it.
-/

namespace RustiCache

namespace ReplicatedPool

open ServerPool (AsksOnce Logged)

variable {hasher replicaHasher : String → UInt64} {config : PoolConfig}
  {server : ServerState hasher}
  {system next : ReplicatedPool hasher replicaHasher}

/-- A step of the system is a step of the master, or leaves it alone. -/
theorem pool_of_step {action : ReplicationAction replicaHasher}
    (taken : system.step config action = some next) :
    next.pool = system.pool ∨
      ∃ poolAction, (action = .master poolAction ∨
          ∃ channel chunk, poolAction = .read channel chunk) ∧
        system.pool.step config poolAction = some next.pool := by
  cases transition_of_step config taken with
  | master unread acted => exact .inr ⟨_, .inl rfl, acted⟩
  | deliver attached acted => exact .inr ⟨_, .inr ⟨_, _, rfl⟩, acted⟩
  | attach => exact .inl rfl
  | receive => exact .inl rfl
  | follow => exact .inl rfl

/-- Only frames are propagated, and other tasks of a replica leave the id of the
master and the count of bytes to the replica's task. -/
def Sustains (system : ReplicatedPool hasher replicaHasher) :
    ReplicationAction replicaHasher → Prop
  | .master action => ServerPool.PropagatesFrames action
  | .others channel server =>
      ∀ attachment ∈ system.attachments channel,
        server.replState.masterReplid =
            attachment.follower.server.replState.masterReplid ∧
          server.replState.replicaBytesProcessed =
            attachment.follower.server.replState.replicaBytesProcessed
  | _ => True

/-- All replicas of a master are in step. -/
structure InTouch (server : ServerState hasher)
    (system : ReplicatedPool hasher replicaHasher) : Prop where
  delivering : system.pool.Delivering
  logged : Logged server system.pool
  linked : ∀ channel, ∀ attachment ∈ system.attachments channel,
    LinkedAt server.replState.masterReplid system.pool channel attachment

/-- What is written to a replica comes from the log. -/
theorem InTouch.mem_propagated (inTouch : InTouch server system)
    {channel : ChannelId} {client : Client}
    (found : system.pool.clients channel = some client)
    (stillOpen : client.connection.phase ≠ .closed)
    (once : client.registered ≠ none → AsksOnce client.connection)
    {raw : Bytes} (member : raw ∈ client.forwarded) :
    raw ∈ system.pool.propagated := by
  have delivered := inTouch.delivering.clients channel client found
  cases registered : client.registered with
  | none =>
      rw [delivered.unregistered registered] at member
      cases member
  | some since =>
      obtain ⟨queue, -, holds⟩ := delivered.live stillOpen
      rw [registered] at holds
      obtain ⟨-, split, -⟩ := holds (once (by simp [registered]))
      refine List.mem_of_mem_drop (?_ : raw ∈ system.pool.propagated.drop since)
      rw [← split]
      exact List.mem_append_left queue member

/-- One connection and its replica act. -/
theorem InTouch.act {pool : ServerPool hasher} {channel : ChannelId}
    {attachment : Attachment replicaHasher} (delivering : pool.Delivering)
    (logged : Logged server pool)
    (linkedAt : LinkedAt server.replState.masterReplid pool channel attachment)
    (rest : ∀ other, other ≠ channel →
      ∀ changed ∈ system.attachments other,
        LinkedAt server.replState.masterReplid pool other changed) :
    InTouch server ({ system with pool := pool }.put channel attachment) where
  delivering := delivering
  logged := logged
  linked other changed isChanged := by
    simp only [put, Option.mem_def] at isChanged
    rcases ServerPool.of_update_eq_some isChanged with
      ⟨rfl, rfl⟩ | ⟨differ, elsewhere⟩
    · exact linkedAt
    · exact rest other differ changed elsewhere

/-- A replica acts alone. -/
theorem InTouch.put (inTouch : InTouch server system) {channel : ChannelId}
    {attachment : Attachment replicaHasher}
    (linkedAt : LinkedAt server.replState.masterReplid system.pool channel
      attachment) : InTouch server (system.put channel attachment) :=
  InTouch.act inTouch.delivering inTouch.logged linkedAt
    fun other _ => inTouch.linked other

theorem InTouch.attach (inTouch : InTouch server system) {channel : ChannelId}
    {client : Client} (found : system.pool.clients channel = some client)
    (idle : client.isIdle = true) (masterHost : String) (masterPort : UInt16)
    (db : Db replicaHasher) :
    InTouch server (system.put channel (.new masterHost masterPort db
      client.connection.sent.length)) := by
  refine inTouch.put ⟨client, found, fun _ => ?_⟩
  have delivered := inTouch.delivering.clients channel client found
  simp only [Client.isIdle, Bool.and_eq_true, decide_eq_true_eq,
    List.all_eq_true] at idle
  obtain ⟨⟨⟨⟨-, empty⟩, stage⟩, unregistered⟩, others⟩ := idle
  have fresh : ∀ frame ∈ client.connection.handled,
      ¬ Command.IsPsync frame.2 := by
    intro frame member psync
    have other := others frame member
    rw [Command.asksPsync_of_isPsync psync] at other
    cases other
  refine ⟨_, _, .asked stage unregistered fresh, ?_, le_rfl, rfl, _,
    .line rfl, ?_⟩
  · rw [empty]
    rfl
  · have landed : inFlight client (.new masterHost masterPort db
        client.connection.sent.length : Attachment replicaHasher) = [] :=
      List.drop_length
    dsimp only
    rw [landed, delivered.unregistered unregistered, List.flatten_nil,
      List.append_nil, List.nil_append, List.nil_append]

theorem InTouch.deliver (inTouch : InTouch server system) {channel : ChannelId}
    {attachment : Attachment replicaHasher}
    (attached : system.attachments channel = some attachment) {count : Nat}
    {pool : ServerPool hasher}
    (acted : system.pool.step config
      (.read channel (attachment.toMaster.take count)) = some pool) :
    InTouch server ({ system with pool := pool }.put channel
      { attachment with toMaster := attachment.toMaster.drop count }) := by
  refine InTouch.act (ServerPool.delivering_step inTouch.delivering acted)
    (ServerPool.logged_step inTouch.logged (by trivial) acted)
    ((inTouch.linked channel attachment attached).deliver acted) ?_
  intro other differ changed isAttached
  refine (inTouch.linked other changed isAttached).step inTouch.delivering
    inTouch.logged.counts.replid ?_ acted
  intro reading
  exact differ (Option.some.inj reading).symm

theorem InTouch.receive (inTouch : InTouch server system) {channel : ChannelId}
    {client : Client} (found : system.pool.clients channel = some client)
    {attachment : Attachment replicaHasher}
    (attached : system.attachments channel = some attachment) {count : Nat}
    (some : 0 < count) (enough : count ≤ (inFlight client attachment).length)
    {follower : Follower replicaHasher}
    (received : attachment.follower.receive
      ((inFlight client attachment).take count) = .some follower) :
    InTouch server (system.put channel
      { attachment with
        follower := follower
        received := attachment.received + count }) := by
  obtain ⟨same, isFound, linked⟩ := inTouch.linked channel attachment attached
  rw [found] at isFound
  cases isFound
  refine inTouch.put ⟨client, found, fun stillOpen => ?_⟩
  obtain ⟨asked, unwritten, answering, buffered, bound, following⟩ :=
    linked stillOpen
  have nonempty : (inFlight client attachment).take count ≠ [] := by
    intro empty
    have length := congrArg List.length empty
    rw [List.length_take, List.length_nil] at length
    omega
  rw [← List.take_append_drop count (inFlight client attachment),
    List.append_assoc] at following
  have read := following.receive nonempty received
  rw [inFlight, List.drop_drop] at read
  refine ⟨asked, unwritten, answering, buffered, ?_, read⟩
  rw [inFlight, List.length_drop] at enough
  dsimp only
  omega

/-- A replica takes a step by itself. -/
theorem InTouch.follow (nonempty : server.replState.masterReplid ≠ "")
    (solid : ∀ character ∈ server.replState.masterReplid.toList,
      isWhitespace character = false)
    (inTouch : InTouch server system) {channel : ChannelId}
    {attachment : Attachment replicaHasher}
    (attached : system.attachments channel = some attachment)
    {action : ReplicationAction replicaHasher}
    (sustains : Sustains system action) {follower : Follower replicaHasher}
    (moves : FollowerMove channel attachment.follower action follower) :
    InTouch server
      (system.put channel { attachment with follower := follower }) := by
  obtain ⟨client, found, linked⟩ := inTouch.linked channel attachment attached
  refine inTouch.put ⟨client, found, fun stillOpen => ?_⟩
  obtain ⟨asked, unwritten, answering, buffered, bound, following⟩ :=
    linked stillOpen
  have framed : ∀ raw ∈ client.forwarded, Value.IsFrame raw :=
    fun raw member => inTouch.logged.framed raw
      (inTouch.mem_propagated found stillOpen answering.once member)
  refine ⟨asked, unwritten, answering, buffered, bound, ?_⟩
  cases moves with
  | advances advanced => exact following.advance nonempty solid advanced
  | replays replayed => exact following.replay framed replayed
  | others other =>
      obtain ⟨same, published⟩ := sustains attachment attached
      exact following.others same published

/-- Every step of the master and of its replicas keeps them in step. -/
theorem inTouch_step (nonempty : server.replState.masterReplid ≠ "")
    (solid : ∀ character ∈ server.replState.masterReplid.toList,
      isWhitespace character = false)
    (inTouch : InTouch server system)
    {action : ReplicationAction replicaHasher}
    (sustains : Sustains system action)
    (taken : system.step config action = some next) : InTouch server next := by
  cases transition_of_step config taken with
  | master unread acted =>
      refine ⟨ServerPool.delivering_step inTouch.delivering acted,
        ServerPool.logged_step inTouch.logged sustains acted, ?_⟩
      intro channel attachment attached
      refine (inTouch.linked channel attachment attached).step
        inTouch.delivering inTouch.logged.counts.replid ?_ acted
      intro reading
      rw [Option.mem_def, unread channel reading] at attached
      cases attached
  | attach masterHost masterPort db found unattached idle =>
      exact inTouch.attach found idle masterHost masterPort db
  | deliver attached acted => exact inTouch.deliver attached acted
  | receive found attached some enough received =>
      exact inTouch.receive found attached some enough received
  | follow attached moves =>
      exact inTouch.follow nonempty solid attached sustains moves

end ReplicatedPool

end RustiCache
