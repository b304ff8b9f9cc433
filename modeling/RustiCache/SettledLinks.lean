import RustiCache.MirroredReplicas

/-!
# What waits is not yet there

A connection that waits for bytes has no whole frame in its buffer, and it is not
in the middle of a frame.  A replica that waits for bytes of the stream has no
whole frame either, and one that has got its snapshot is replaying the stream.
-/

namespace RustiCache

open FrameDecoder (InStep)

/-- A connection that waits has handled what it has got. -/
def Client.Rested (client : Client) : Prop :=
  client.connection.phase = .waiting →
    client.stage = .ready ∧
      Value.attempt client.connection.buffer = .incomplete

theorem Client.rested_of_ne {client : Client}
    (busy : client.connection.phase ≠ .waiting) : client.Rested :=
  fun waiting => absurd waiting busy

namespace Connection

variable {hasher : String → UInt64} (config : ConnectionConfig)
  (moment : Moment) (server : ServerState hasher) {connection : Connection}
  (draining : connection.phase = .draining)

include draining

theorem begin_rested (registered : Option Nat) (forwarded : List Bytes) :
    let outcome := connection.begin config moment server
    Client.Rested ⟨outcome.1.connection, outcome.2, registered, forwarded⟩ := by
  intro outcome
  have busy : connection.phase ≠ .waiting := by
    rw [draining]
    decide
  cases found : Value.attempt connection.buffer with
  | complete value consumed =>
      apply Client.rested_of_ne
      simp only [outcome, begin, found]
      split
      next => exact busy
      next quits =>
        simp only [dispatch, quits]
        decide
      next => split <;> exact busy
      next reason refused =>
        simp only [dispatch, refused]
        exact busy
  | incomplete =>
      have waits : outcome = _ := begin_incomplete moment server found
      rw [waits]
      exact fun _ => ⟨rfl, found⟩
  | malformed fault =>
      have filled : connection.buffer ≠ [] :=
        Value.ne_nil_of_attempt (by simp [found])
      simp only [outcome, begin, found, drain, if_neg filled]
      cases fault with
      | parseError reason => exact fun _ => ⟨rfl, rfl⟩
      | panic =>
          intro waiting
          cases waiting

theorem turn_rested (stage : DispatchStage) (registered : Option Nat)
    (forwarded : List Bytes) :
    let outcome := connection.turn config moment server stage
    Client.Rested ⟨outcome.1.connection, outcome.2, registered, forwarded⟩ := by
  have busy : connection.phase ≠ .waiting := by
    rw [draining]
    decide
  cases stage with
  | ready => exact begin_rested config moment server draining registered forwarded
  | checked | announced | transferred => exact Client.rested_of_ne busy

end Connection

namespace ServerPool

variable {hasher : String → UInt64} {config : PoolConfig}
  {pool next : ServerPool hasher} {action : PoolAction}

/-- Every connection that waits has handled what it has got. -/
def Rested (pool : ServerPool hasher) : Prop :=
  ∀ channel client, pool.clients channel = some client → client.Rested

theorem Rested.step (rested : pool.Rested)
    (taken : pool.step config action = some next) : next.Rested := by
  cases transition_of_step taken with
  | accept fresh => exact forall_of_update rested rfl fun _ => ⟨rfl, rfl⟩
  | hangUp own found stillOpen closed =>
      exact forall_of_update rested rfl
        (Client.rested_of_ne (by rw [closed]; decide))
  | fill | forward =>
      exact forall_of_update rested rfl (Client.rested_of_ne (by simp))
  | @turn channel moment client _ _ _ found draining _ =>
      rw [ServerPool.step, found, Option.bind_some, if_pos draining] at taken
      exact forall_of_update rested
        (congrArg ServerPool.clients (Option.some.inj taken)).symm
        (Connection.turn_rested _ moment pool.server draining _ _ _)
  | propagate | purge => exact rested

end ServerPool

/-- A replica that waits for the stream has handled what it has got, and one that
has got its snapshot is on the stream. -/
def Follower.Awake {hasher : String → UInt64} : Follower hasher → Prop
  | syncing _ task => task.stage ≠ .streaming
  | streaming state =>
      state.phase = .reading → Value.attempt state.buffer = .incomplete

namespace ReplicatedPool

variable {hasher replicaHasher : String → UInt64} {config : PoolConfig}
  {server : ServerState hasher}
  {system next : ReplicatedPool hasher replicaHasher}

section Follower

variable {replid : String} {forwarded : List Bytes} {pending : Bytes}
  {follower after : Follower replicaHasher}

theorem awake_receive (awake : follower.Awake) {chunk : Bytes}
    (nonempty : chunk ≠ []) (received : follower.receive chunk = some after) :
    after.Awake := by
  cases follower with
  | syncing server task =>
      obtain ⟨replica, read, rfl⟩ := Option.map_eq_some_iff.mp received
      rw [ReplicationLink.receive_cases nonempty read]
      exact awake
  | streaming state =>
      obtain ⟨later, read, rfl⟩ := Option.map_eq_some_iff.mp received
      simp only [ReplicaStream.step, ReplicaStream.receive,
        if_neg nonempty] at read
      split at read
      next =>
        cases read
        intro reading
        cases reading
      next => cases read

theorem awake_advance (advanced : follower.advance = some after) :
    after.Awake := by
  cases follower with
  | syncing server task =>
      obtain ⟨replica, read, rfl⟩ := Option.map_eq_some_iff.mp advanced
      split
      next =>
        intro reading
        cases reading
      next early => exact early
  | streaming state => cases advanced

theorem awake_replay {moment : Moment}
    (framed : ∀ raw ∈ forwarded, Value.IsFrame raw)
    (following : Following replid forwarded pending follower)
    (replayed : follower.replay moment = some after) : after.Awake := by
  cases follower with
  | syncing server task => cases replayed
  | streaming state =>
      obtain ⟨later, read, rfl⟩ := Option.map_eq_some_iff.mp replayed
      simp only [ReplicaStream.step] at read
      split at read
      next draining =>
        cases read
        rcases ReplicaStream.drain_cases (accepts_frameOf framed)
            following.inStep moment with
          ⟨frame, value, others, tail, -, -, -, drained⟩ | ⟨more, drained⟩
        · rw [drained, ReplicaStream.absorb_eq]
          intro reading
          exact absurd (draining.symm.trans reading) (by decide)
        · rw [drained]
          exact fun _ => more
      next => cases read

theorem awake_others (awake : follower.Awake)
    (server : ServerState replicaHasher) : (follower.others server).Awake := by
  cases follower <;> exact awake

end Follower

/-- All replicas of a master are in step, and whoever waits has handled what it
has got. -/
structure Lively (server : ServerState hasher)
    (system : ReplicatedPool hasher replicaHasher) : Prop where
  inTouch : InTouch server system
  rested : system.pool.Rested
  awake : ∀ channel client attachment,
    system.pool.clients channel = some client →
    client.connection.phase ≠ .closed →
    system.attachments channel = some attachment → attachment.follower.Awake

theorem lively_start (nobody : server.replState.downstreamSenders = []) :
    Lively server (start server : ReplicatedPool hasher replicaHasher) where
  inTouch := inTouch_start nobody
  rested _ _ found := by cases found
  awake _ _ _ found := by cases found

/-- What is written to a replica are frames. -/
theorem InTouch.framed (inTouch : InTouch server system) {channel : ChannelId}
    {client : Client} (found : system.pool.clients channel = some client)
    (stillOpen : client.connection.phase ≠ .closed) {replid : String}
    {asked unwritten : Bytes}
    (answering : Answering replid client asked unwritten) :
    ∀ raw ∈ client.forwarded, Value.IsFrame raw :=
  fun raw member => inTouch.logged.framed raw
    (inTouch.mem_propagated found stillOpen answering.once member)

/-- Where the replica on an open connection stands. -/
theorem InTouch.link (inTouch : InTouch server system) {channel : ChannelId}
    {client : Client} {attachment : Attachment replicaHasher}
    (found : system.pool.clients channel = some client)
    (stillOpen : client.connection.phase ≠ .closed)
    (attached : system.attachments channel = some attachment) :
    Linked server.replState.masterReplid client attachment := by
  obtain ⟨same, isFound, linked⟩ := inTouch.linked channel attachment attached
  rw [found] at isFound
  cases isFound
  exact linked stillOpen

section Log

open ServerPool (RegisteredAfter)

variable {channel : ChannelId} {client : Client}
  {attachment : Attachment replicaHasher} {prior : List Bytes}
  (inTouch : InTouch server system)
  (since : RegisteredAfter prior channel system.pool)
  (found : system.pool.clients channel = some client)
  (stillOpen : client.connection.phase ≠ .closed)
  (attached : system.attachments channel = some attachment)

include inTouch since found stillOpen attached

/-- What is written to a registered replica is the beginning of the log since its
registration. -/
theorem InTouch.log_since : ∃ queue,
    client.forwarded ++ queue = system.pool.propagated.drop prior.length := by
  obtain ⟨-, same, isFound, registered⟩ := since
  cases found.symm.trans isFound
  obtain ⟨asked, unwritten, answering, -⟩ :=
    inTouch.link found stillOpen attached
  obtain ⟨queue, -, holds⟩ :=
    (inTouch.delivering.clients channel client found).live stillOpen
  rw [registered] at holds
  obtain ⟨-, split, -⟩ := holds (answering.once (by simp [registered]))
  exact ⟨queue, split⟩

/-- What a replica has handled is the beginning of the log since its
registration. -/
theorem InTouch.handled_first :
    attachment.follower.handled.map Prod.fst <+:
      system.pool.propagated.drop prior.length := by
  obtain ⟨queue, split⟩ := inTouch.log_since since found stillOpen attached
  obtain ⟨asked, unwritten, -, -, -, following⟩ :=
    inTouch.link found stillOpen attached
  rw [← split]
  refine List.IsPrefix.trans ?_ (List.prefix_append _ _)
  cases streaming : attachment.follower with
  | syncing server task => exact List.nil_prefix
  | streaming state =>
      rw [streaming] at following
      obtain ⟨remaining, whole, -⟩ := following.inStep
      have firsts := congrArg (List.map Prod.fst) whole
      rw [List.map_append, List.map_map] at firsts
      refine ⟨remaining.map Prod.fst, firsts.symm.trans ?_⟩
      exact List.map_id _

end Log

/-- The master acts, and the replicas are left alone. -/
theorem Lively.awake_pool (lively : Lively server system) {action : PoolAction}
    {pool : ServerPool hasher}
    (acted : system.pool.step config action = some pool) {channel : ChannelId}
    {client : Client} {attachment : Attachment replicaHasher}
    (found : pool.clients channel = some client)
    (stillOpen : client.connection.phase ≠ .closed)
    (attached : system.attachments channel = some attachment) :
    attachment.follower.Awake := by
  obtain ⟨before, isBefore, -⟩ :=
    lively.inTouch.linked channel attachment attached
  exact lively.awake channel before attachment isBefore
    (ServerPool.open_of_step acted isBefore found stillOpen) attached

theorem Lively.awake_step (lively : Lively server system)
    {action : ReplicationAction replicaHasher}
    (taken : system.step config action = some next) :
    ∀ channel client attachment, next.pool.clients channel = some client →
      client.connection.phase ≠ .closed →
      next.attachments channel = some attachment →
        attachment.follower.Awake := by
  intro channel client attachment found stillOpen attached
  cases transition_of_step config taken with
  | master unread acted => exact lively.awake_pool acted found stillOpen attached
  | attach masterHost masterPort db isFound unattached idle =>
      rcases ServerPool.of_update_eq_some attached with
        ⟨-, rfl⟩ | ⟨-, elsewhere⟩
      · intro stage
        cases stage
      · exact lively.awake channel client attachment found stillOpen elsewhere
  | @deliver _ count before pool isAttached acted =>
      rcases ServerPool.of_update_eq_some attached with
        ⟨rfl, rfl⟩ | ⟨-, elsewhere⟩
      · change before.follower.Awake
        exact lively.awake_pool acted found stillOpen isAttached
      · exact lively.awake_pool acted found stillOpen elsewhere
  | @receive _ count acting before after isFound isAttached some enough
      received =>
      rcases ServerPool.of_update_eq_some attached with
        ⟨rfl, rfl⟩ | ⟨-, elsewhere⟩
      · cases isFound.symm.trans found
        have awake := lively.awake channel client before isFound stillOpen
          isAttached
        refine awake_receive awake ?_ received
        intro empty
        have length := congrArg List.length empty
        rw [List.length_take, List.length_nil] at length
        omega
      · exact lively.awake channel client attachment found stillOpen elsewhere
  | @follow _ other before after isAttached moves =>
      rcases ServerPool.of_update_eq_some attached with
        ⟨rfl, rfl⟩ | ⟨-, elsewhere⟩
      · have awake := lively.awake channel client before found stillOpen
          isAttached
        cases moves with
        | advances advanced => exact awake_advance advanced
        | others server => exact awake_others awake server
        | replays replayed =>
            obtain ⟨asked, unwritten, answering, -, -, following⟩ :=
              lively.inTouch.link found stillOpen isAttached
            exact awake_replay
              (lively.inTouch.framed found stillOpen answering) following
              replayed
      · exact lively.awake channel client attachment found stillOpen elsewhere

theorem lively_step (nonempty : server.replState.masterReplid ≠ "")
    (solid : ∀ character ∈ server.replState.masterReplid.toList,
      isWhitespace character = false)
    (lively : Lively server system)
    {action : ReplicationAction replicaHasher}
    (sustains : Sustains system action)
    (taken : system.step config action = some next) : Lively server next where
  inTouch := inTouch_step nonempty solid lively.inTouch sustains taken
  rested := by
    rcases pool_of_step taken with same | ⟨poolAction, -, acted⟩
    · rw [same]
      exact lively.rested
    · exact lively.rested.step acted
  awake := lively.awake_step taken

theorem lively_of_reaches (nonempty : server.replState.masterReplid ≠ "")
    (solid : ∀ character ∈ server.replState.masterReplid.toList,
      isWhitespace character = false)
    (lively : Lively server system)
    {actions : List (ReplicationAction replicaHasher)}
    (reaches : Reaches (step config) Sustains system actions next) :
    Lively server next :=
  reaches.invariant (fun lively sustains taken =>
    lively_step nonempty solid lively sustains taken) lively

end ReplicatedPool

end RustiCache
