import RustiCache.LinkWork
import RustiCache.LoopRounds

/-!
# A replica catches up

Once nothing more is written, a master and a replica on one of its connections
have a bounded number of steps left, whatever the other connections do.  As long
as the connection is open and the replica has not replayed all that has been
propagated to it, one of these steps can be taken.
-/

namespace RustiCache

namespace ReplicatedPool

open ServerPool (HoldsAt)

variable {hasher replicaHasher : String → UInt64} {config : PoolConfig}
  {server : ServerState hasher}
  {system next : ReplicatedPool hasher replicaHasher} {channel : ChannelId}

/-- An open connection with a replica on it, and what waits to be written to
it. -/
structure OnLink (system : ReplicatedPool hasher replicaHasher)
    (channel : ChannelId) (client : Client)
    (attachment : Attachment replicaHasher) (queue : List Bytes) : Prop where
  found : system.pool.clients channel = some client
  stillOpen : client.connection.phase ≠ .closed
  attached : system.attachments channel = some attachment
  queued : system.pool.server.channels channel = some queue

/-- What is left to be done for the replica on a connection. -/
def catchUpWork (system : ReplicatedPool hasher replicaHasher)
    (channel : ChannelId) : Nat :=
  match system.pool.clients channel, system.attachments channel,
    system.pool.server.channels channel with
  | some client, some attachment, some queue =>
      linkWork system.pool.server.replState.masterReplid queue client attachment
  | _, _, _ => 0

/-- A step of the master's connection, of the replica on it, or of what is on its
way between them. -/
def isLinkAction (channel : ChannelId) :
    ReplicationAction replicaHasher → Bool
  | .master (.process acting _) => acting == channel
  | .master (.replicate acting) => acting == channel
  | .deliver acting _ => acting == channel
  | .receive acting _ => acting == channel
  | .advance acting => acting == channel
  | .replay acting _ => acting == channel
  | _ => false

/-- The step propagates nothing and does not close the connection. -/
structure Quiet (config : PoolConfig) (channel : ChannelId)
    (system : ReplicatedPool hasher replicaHasher)
    (action : ReplicationAction replicaHasher) : Prop where
  sustains : Sustains system action
  unwritten : ∀ next, system.step config action = some next →
    next.pool.propagated = system.pool.propagated
  runs : action ≠ .master (.shutdown channel)
  connected : action ≠ .master (.disconnect channel)

section Link

variable {client : Client} {attachment : Attachment replicaHasher}
  {queue : List Bytes}

theorem OnLink.catchUpWork_eq
    (onLink : OnLink system channel client attachment queue)
    (inTouch : InTouch server system) :
    system.catchUpWork channel =
      linkWork server.replState.masterReplid queue client attachment := by
  simp only [catchUpWork, onLink.found, onLink.attached, onLink.queued,
    inTouch.logged.counts.replid]

theorem InTouch.onLink (inTouch : InTouch server system)
    (found : system.pool.clients channel = some client)
    (stillOpen : client.connection.phase ≠ .closed)
    (attached : system.attachments channel = some attachment) :
    ∃ queue, OnLink system channel client attachment queue := by
  obtain ⟨queue, queued, -⟩ :=
    (inTouch.delivering.clients channel client found).live stillOpen
  exact ⟨queue, found, stillOpen, attached, queued⟩

theorem OnLink.put (onLink : OnLink system channel client attachment queue)
    (after : Attachment replicaHasher) :
    OnLink (system.put channel after) channel client after queue :=
  ⟨onLink.found, onLink.stillOpen, Function.update_self .., onLink.queued⟩

theorem OnLink.put_of_ne
    (onLink : OnLink system channel client attachment queue)
    {other : ChannelId} (differ : other ≠ channel)
    (after : Attachment replicaHasher) :
    OnLink (system.put other after) channel client attachment queue :=
  ⟨onLink.found, onLink.stillOpen,
    (Function.update_of_ne differ.symm ..).trans onLink.attached, onLink.queued⟩

/-- Another connection of the master acts. -/
theorem OnLink.pool (onLink : OnLink system channel client attachment queue)
    (inTouch : InTouch server system) {action : PoolAction}
    {pool : ServerPool hasher}
    (acted : system.pool.step config action = some pool)
    (other : ServerPool.actor action ≠ some channel)
    (unwritten : pool.propagated = system.pool.propagated) :
    OnLink { system with pool := pool } channel client attachment queue := by
  obtain ⟨asked, reply, answering, -⟩ :=
    inTouch.link onLink.found onLink.stillOpen onLink.attached
  have found : pool.clients channel = some client :=
    (ServerPool.clients_of_ne acted other).trans onLink.found
  have queued := ServerPool.channels_eq inTouch.delivering
    (ServerPool.delivering_step inTouch.delivering acted) onLink.found found
    onLink.stillOpen answering.once unwritten
  exact ⟨found, onLink.stillOpen, onLink.attached, queued.trans onLink.queued⟩

/-- The connection and the replica go on, with no more work than before, and with
less if some of it has been done. -/
def GoesOn (replid : String) (channel : ChannelId) (work done : Nat)
    (next : ReplicatedPool hasher replicaHasher) : Prop :=
  ∃ client attachment queue, OnLink next channel client attachment queue ∧
    linkWork replid queue client attachment + done ≤ work

theorem OnLink.process
    (onLink : OnLink system channel client attachment queue)
    (inTouch : InTouch server system) {moment : Moment}
    {pool : ServerPool hasher}
    (acted : system.pool.step config (.process channel moment) = some pool) :
    GoesOn server.replState.masterReplid channel
      (linkWork server.replState.masterReplid queue client attachment) 1
      { system with pool := pool } := by
  rw [ServerPool.step, onLink.found, Option.bind_some] at acted
  split at acted
  next draining =>
    cases acted
    obtain ⟨channels, stillOpen, less⟩ := linkWork_turn
      (inTouch.link onLink.found onLink.stillOpen onLink.attached)
      inTouch.logged.counts.replid draining moment channel queue
    exact ⟨_, attachment, queue, ⟨Function.update_self .., stillOpen,
      onLink.attached, (congrFun channels channel).trans onLink.queued⟩, less⟩
  next => cases acted

theorem OnLink.replicate
    (onLink : OnLink system channel client attachment queue)
    (inTouch : InTouch server system) {pool : ServerPool hasher}
    (acted : system.pool.step config (.replicate channel) = some pool) :
    GoesOn server.replState.masterReplid channel
      (linkWork server.replState.masterReplid queue client attachment) 1
      { system with pool := pool } := by
  obtain ⟨-, -, -, -, bound, -⟩ :=
    inTouch.link onLink.found onLink.stillOpen onLink.attached
  rw [ServerPool.step, onLink.found, Option.bind_some] at acted
  split at acted
  next waiting =>
    obtain ⟨session, forwarded, rfl⟩ := Option.map_eq_some_iff.mp acted
    simp only [Connection.forward] at forwarded
    split at forwarded
    next =>
      split at forwarded
      next raw rest queued =>
        have isQueue := onLink.queued.symm.trans queued
        cases isQueue
        cases forwarded
        refine ⟨_, attachment, rest, ⟨Function.update_self .., by simp,
          onLink.attached, Function.update_self ..⟩, ?_⟩
        rw [onLink.queued]
        exact linkWork_forward bound waiting raw rest
      next => cases forwarded
    next => cases forwarded
  next => cases acted

theorem OnLink.deliver
    (onLink : OnLink system channel client attachment queue)
    (inTouch : InTouch server system)
    (fits : HandshakeCommand.psync.bytes.length ≤ config.maxPayloadSize)
    {count : Nat} (taken : system.step config (.deliver channel count) = some next) :
    GoesOn server.replState.masterReplid channel
      (linkWork server.replState.masterReplid queue client attachment) 1
      next := by
  obtain ⟨asked, unwritten, answering, buffered, -⟩ :=
    inTouch.link onLink.found onLink.stillOpen onLink.attached
  have short : asked.length ≤ HandshakeCommand.psync.bytes.length := by
    cases answering with
    | asked => exact Nat.le_refl _
    | announced | transferred | registered => exact Nat.zero_le _
  rw [step, onLink.attached, Option.bind_some] at taken
  split at taken
  next counts =>
    obtain ⟨pool, acted, rfl⟩ := Option.map_eq_some_iff.mp taken
    rw [ServerPool.step, onLink.found, Option.bind_some] at acted
    split at acted
    next waiting =>
      have whole := congrArg List.length buffered
      rw [List.length_append] at whole
      have fitting : (client.connection.buffer ++
          attachment.toMaster.take count).length ≤
            (config.ofChannel channel).maxPayloadSize := by
        rw [List.length_append, List.length_take]
        change _ ≤ config.maxPayloadSize
        omega
      have some : attachment.toMaster.take count ≠ [] := by
        intro empty
        have lengths := congrArg List.length empty
        rw [List.length_take, List.length_nil] at lengths
        omega
      rw [Connection.receive_fitting _ _ some fitting] at acted
      cases acted
      exact ⟨_, _, queue, ⟨Function.update_self .., by simp,
        Function.update_self .., onLink.queued⟩,
        linkWork_deliver counts.1 counts.2 waiting queue⟩
    next => cases acted
  next => cases taken

theorem OnLink.receive
    (onLink : OnLink system channel client attachment queue)
    (replid : String) {count : Nat} {follower : Follower replicaHasher}
    (some : 0 < count) (enough : count ≤ (inFlight client attachment).length)
    (received : attachment.follower.receive
      ((inFlight client attachment).take count) = .some follower) :
    GoesOn replid channel (linkWork replid queue client attachment) 1
      (system.put channel
        { attachment with
          follower := follower
          received := attachment.received + count }) := by
  refine ⟨client, _, queue, onLink.put _, ?_⟩
  have length : ((inFlight client attachment).take count).length = count := by
    rw [List.length_take]
    omega
  have nonempty : (inFlight client attachment).take count ≠ [] := by
    rw [← List.length_pos_iff]
    omega
  have most := followerWork_receive nonempty received
  simp only [linkWork, inFlight, List.length_drop] at length most enough ⊢
  omega

theorem OnLink.follow
    (onLink : OnLink system channel client attachment queue)
    (inTouch : InTouch server system)
    (nonempty : server.replState.masterReplid ≠ "")
    (solid : ∀ character ∈ server.replState.masterReplid.toList,
      isWhitespace character = false)
    {action : ReplicationAction replicaHasher}
    {follower : Follower replicaHasher}
    (moves : FollowerMove channel attachment.follower action follower) :
    GoesOn server.replState.masterReplid channel
      (linkWork server.replState.masterReplid queue client attachment)
      (if isLinkAction channel action then 1 else 0)
      (system.put channel { attachment with follower := follower }) := by
  obtain ⟨asked, unwritten, answering, -, -, following⟩ :=
    inTouch.link onLink.found onLink.stillOpen onLink.attached
  refine ⟨client, _, queue, onLink.put _, ?_⟩
  cases moves with
  | advances advanced =>
      rw [isLinkAction, beq_self_eq_true, if_pos rfl]
      exact linkWork_follow
        (followerWork_advance nonempty solid following advanced) queue
  | replays replayed =>
      rw [isLinkAction, beq_self_eq_true, if_pos rfl]
      exact linkWork_follow
        (followerWork_replay
          (inTouch.framed onLink.found onLink.stillOpen answering) following
          replayed) queue
  | others server =>
      simp only [isLinkAction, Bool.false_eq_true, if_false, linkWork, inFlight,
        followerWork_others]
      exact Nat.le_refl _

/-- The master takes a step. -/
theorem OnLink.master
    (onLink : OnLink system channel client attachment queue)
    (inTouch : InTouch server system) {action : PoolAction}
    (quiet : Quiet config channel system (.master action))
    (unread : ∀ reader, action.reader = some reader →
      system.attachments reader = none)
    {pool : ServerPool hasher}
    (acted : system.pool.step config action = some pool)
    (unwritten : pool.propagated = system.pool.propagated) :
    GoesOn server.replState.masterReplid channel
      (linkWork server.replState.masterReplid queue client attachment)
      (if isLinkAction channel
        (.master action : ReplicationAction replicaHasher) then 1 else 0)
      { system with pool := pool } := by
  by_cases own : ServerPool.actor action = some channel
  · cases action with
    | accept acting =>
        cases own
        rw [ServerPool.step, onLink.found] at acted
        cases acted
    | shutdown acting =>
        cases own
        exact absurd rfl quiet.runs
    | disconnect acting =>
        cases own
        exact absurd rfl quiet.connected
    | read acting chunk =>
        cases own
        cases onLink.attached.symm.trans (unread channel rfl)
    | replicate acting =>
        cases own
        rw [isLinkAction, beq_self_eq_true, if_pos rfl]
        exact onLink.replicate inTouch acted
    | process acting moment =>
        cases own
        rw [isLinkAction, beq_self_eq_true, if_pos rfl]
        exact onLink.process inTouch acted
    | propagate | purge => cases own
  · have elsewhere : isLinkAction channel
        (.master action : ReplicationAction replicaHasher) = false := by
      cases action with
      | process acting | replicate acting =>
          exact beq_eq_false_iff_ne.mpr fun same => own (congrArg some same)
      | _ => rfl
    rw [elsewhere, if_neg Bool.false_ne_true]
    exact ⟨client, attachment, queue,
      onLink.pool inTouch acted own unwritten, Nat.le_refl _⟩

/-- Every step that is taken leaves the replica no more work than before, and a
step of the link leaves it less. -/
theorem OnLink.goesOn (onLink : OnLink system channel client attachment queue)
    (inTouch : InTouch server system)
    (nonempty : server.replState.masterReplid ≠ "")
    (solid : ∀ character ∈ server.replState.masterReplid.toList,
      isWhitespace character = false)
    (fits : HandshakeCommand.psync.bytes.length ≤ config.maxPayloadSize)
    {action : ReplicationAction replicaHasher}
    (quiet : Quiet config channel system action)
    (taken : system.step config action = some next) :
    GoesOn server.replState.masterReplid channel
      (linkWork server.replState.masterReplid queue client attachment)
      (if isLinkAction channel action then 1 else 0) next := by
  have unwritten := quiet.unwritten next taken
  have isOther {acting : ChannelId} (differ : acting ≠ channel) :
      (acting == channel) = false :=
    beq_eq_false_iff_ne.mpr differ
  cases transition_of_step config taken with
  | master unread acted =>
      exact onLink.master inTouch quiet unread acted unwritten
  | @attach acting _ masterHost masterPort db found unattached idle =>
      have differ : acting ≠ channel := by
        rintro rfl
        cases onLink.attached.symm.trans unattached
      exact ⟨client, attachment, queue, onLink.put_of_ne differ _,
        Nat.le_refl _⟩
  | @deliver acting count before pool attached acted =>
      by_cases own : acting = channel
      · subst own
        rw [isLinkAction, beq_self_eq_true, if_pos rfl]
        exact onLink.deliver inTouch fits taken
      · rw [isLinkAction, isOther own, if_neg Bool.false_ne_true]
        have moved := onLink.pool inTouch acted
          (fun same => own (Option.some.inj same)) unwritten
        exact ⟨client, attachment, queue, moved.put_of_ne own _, Nat.le_refl _⟩
  | @receive acting count _ before _ found attached some enough received =>
      by_cases own : acting = channel
      · subst own
        cases onLink.found.symm.trans found
        cases onLink.attached.symm.trans attached
        rw [isLinkAction, beq_self_eq_true, if_pos rfl]
        exact onLink.receive _ some enough received
      · rw [isLinkAction, isOther own, if_neg Bool.false_ne_true]
        exact ⟨client, attachment, queue, onLink.put_of_ne own _,
          Nat.le_refl _⟩
  | @follow _ acting before after attached moves =>
      by_cases own : acting = channel
      · subst own
        cases onLink.attached.symm.trans attached
        exact onLink.follow inTouch nonempty solid moves
      · have elsewhere : isLinkAction channel action = false := by
          cases moves with
          | advances | replays => exact isOther own
          | others => rfl
        rw [elsewhere, if_neg Bool.false_ne_true]
        exact ⟨client, attachment, queue, onLink.put_of_ne own _,
          Nat.le_refl _⟩

/-- A step of the link can be taken. -/
def Acts (config : PoolConfig) (channel : ChannelId)
    (system : ReplicatedPool hasher replicaHasher) : Prop :=
  ∃ action next, isLinkAction channel action = true ∧
    Quiet config channel system action ∧ system.step config action = some next

theorem acts_of_step {action : ReplicationAction replicaHasher}
    (taken : system.step config action = some next)
    (link : isLinkAction channel action = true)
    (unwritten : next.pool.propagated = system.pool.propagated) :
    Acts config channel system := by
  refine ⟨action, next, link, ⟨?_, fun other isNext => ?_, ?_, ?_⟩, taken⟩
  · cases action with
    | master poolAction =>
        cases poolAction with
        | propagate rawResp => cases link
        | _ => trivial
    | others acting server => cases link
    | _ => trivial
  · cases taken.symm.trans isNext
    exact unwritten
  · rintro rfl
    cases link
  · rintro rfl
    cases link

/-- The master can take a step, other than by reading. -/
theorem acts_of_master {action : PoolAction} {pool : ServerPool hasher}
    (acted : system.pool.step config action = some pool)
    (link : isLinkAction channel
      (.master action : ReplicationAction replicaHasher) = true)
    (unwritten : pool.propagated = system.pool.propagated) :
    Acts config channel system := by
  have unread : action.reader = none := by
    cases action with
    | read acting chunk => cases link
    | _ => rfl
  have taken : system.step config (.master action) =
      some { system with pool := pool } := by
    rw [step, unread, acted]
    rfl
  exact acts_of_step taken link unwritten

/-- A connection that handles what it has got can go on. -/
theorem OnLink.acts_of_draining
    (onLink : OnLink system channel client attachment queue)
    (inTouch : InTouch server system)
    (draining : client.connection.phase = .draining) :
    Acts config channel system := by
  obtain ⟨asked, unwritten, answering, -⟩ :=
    inTouch.link onLink.found onLink.stillOpen onLink.attached
  have silent : ServerPool.propagation config system.pool.server client = [] := by
    cases answering with
    | asked stage | announced stage | transferred stage | registered stage =>
        rw [ServerPool.propagation, stage]
  obtain ⟨pool, acted, same⟩ : ∃ pool, system.pool.step config
      (.process channel ⟨fun _ => 0, .front⟩) = some pool ∧
        pool.propagated = system.pool.propagated ++ [] := by
    rw [ServerPool.step, onLink.found, Option.bind_some, if_pos draining,
      ← silent]
    exact ⟨_, rfl, rfl⟩
  rw [List.append_nil] at same
  exact acts_of_master acted (beq_self_eq_true channel) same

/-- Bytes of the replica can be delivered to a connection that waits. -/
theorem OnLink.acts_of_toMaster
    (onLink : OnLink system channel client attachment queue)
    (waiting : client.connection.phase = .waiting)
    (left : attachment.toMaster ≠ []) : Acts config channel system := by
  have counts : 0 < attachment.toMaster.length ∧
      attachment.toMaster.length ≤ attachment.toMaster.length :=
    ⟨List.length_pos_iff.mpr left, Nat.le_refl _⟩
  obtain ⟨next, taken, same⟩ : ∃ next, system.step config
      (.deliver channel attachment.toMaster.length) = some next ∧
        next.pool.propagated = system.pool.propagated := by
    rw [step, onLink.attached, Option.bind_some, if_pos counts, ServerPool.step,
      onLink.found, Option.bind_some, if_pos waiting]
    exact ⟨_, rfl, rfl⟩
  exact acts_of_step taken (beq_self_eq_true channel) same

/-- What waits for a replica can be written to it. -/
theorem OnLink.acts_of_queue {raw : Bytes} {rest : List Bytes}
    (onLink : OnLink system channel client attachment (raw :: rest))
    (waiting : client.connection.phase = .waiting)
    (downstream : client.connection.isDownstreamReplica = true) :
    Acts config channel system := by
  have queued : system.pool.server.channels (config.ofChannel channel).channel =
      some (raw :: rest) := onLink.queued
  obtain ⟨pool, acted, same⟩ : ∃ pool,
      system.pool.step config (.replicate channel) = some pool ∧
        pool.propagated = system.pool.propagated := by
    rw [ServerPool.step, onLink.found, Option.bind_some, if_pos waiting,
      Connection.forward, if_pos downstream, queued]
    exact ⟨_, rfl, rfl⟩
  exact acts_of_master acted (beq_self_eq_true channel) same

/-- What is on its way can be received by a replica that waits for it. -/
theorem OnLink.acts_of_inFlight
    (onLink : OnLink system channel client attachment queue)
    (left : inFlight client attachment ≠ [])
    (waits : (attachment.follower.receive (inFlight client attachment)).isSome) :
    Acts config channel system := by
  obtain ⟨follower, received⟩ := Option.isSome_iff_exists.mp waits
  have counts : 0 < (inFlight client attachment).length ∧
      (inFlight client attachment).length ≤
        (inFlight client attachment).length :=
    ⟨List.length_pos_iff.mpr left, Nat.le_refl _⟩
  obtain ⟨next, taken, same⟩ : ∃ next, system.step config
      (.receive channel (inFlight client attachment).length) = some next ∧
        next.pool = system.pool := by
    rw [step, onLink.found, Option.bind_some, onLink.attached,
      Option.bind_some, if_pos counts, List.take_length, received]
    exact ⟨_, rfl, rfl⟩
  exact acts_of_step taken (beq_self_eq_true channel) (by rw [same])

/-- The replica can take a step by itself. -/
theorem acts_of_follow (action : ReplicationAction replicaHasher)
    (link : isLinkAction channel action = true)
    {act : Follower replicaHasher → Option (Follower replicaHasher)}
    (follows : system.step config action = system.follow channel act)
    (attached : system.attachments channel = some attachment)
    (moves : (act attachment.follower).isSome) :
    Acts config channel system := by
  obtain ⟨follower, moved⟩ := Option.isSome_iff_exists.mp moves
  have taken : system.step config action =
      some (system.put channel { attachment with follower := follower }) := by
    rw [follows, follow, attached, Option.bind_some, moved]
    rfl
  exact acts_of_step taken link rfl

/-- As long as the replica has not replayed all that has been propagated to it,
a step of the link can be taken. -/
theorem OnLink.acts_or_caughtUp
    (onLink : OnLink system channel client attachment queue)
    (lively : Lively server system)
    (nonempty : server.replState.masterReplid ≠ "")
    (solid : ∀ character ∈ server.replState.masterReplid.toList,
      isWhitespace character = false) :
    Acts config channel system ∨
      client.registered ≠ none ∧ (system.caughtUp channel).isSome := by
  have inTouch := lively.inTouch
  have linked := inTouch.link onLink.found onLink.stillOpen onLink.attached
  cases phase : client.connection.phase with
  | closed => exact absurd phase onLink.stillOpen
  | draining => exact .inl (onLink.acts_of_draining inTouch phase)
  | waiting =>
      obtain ⟨ready, more⟩ := lively.rested channel client onLink.found phase
      obtain ⟨asked, unwritten, answering, buffered, -, following⟩ := linked
      have framed := inTouch.framed onLink.found onLink.stillOpen answering
      cases answering with
      | announced stage | transferred stage =>
          exact absurd (ready.symm.trans stage) (by decide)
      | asked stage unregistered fresh =>
          refine .inl (onLink.acts_of_toMaster phase fun arrived => ?_)
          -- the whole command has arrived, so the connection would not wait
          rw [arrived, List.append_nil] at buffered
          have accepted : Value.decoder.Accepts HandshakeCommand.psync.bytes
              HandshakeCommand.psync.value :=
            HandshakeCommand.accepts (by decide)
          have incomplete : Value.decoder.attempt client.connection.buffer = _ :=
            more
          rw [buffered, accepted] at incomplete
          cases incomplete
      | registered stage known once =>
          have downstream : client.connection.isDownstreamReplica = true := by
            rw [(inTouch.delivering.clients channel client
              onLink.found).downstream, known]
            rfl
          cases queue with
          | cons raw rest =>
              exact .inl (onLink.acts_of_queue phase downstream)
          | nil =>
              rw [List.append_nil] at following
              rcases follower_moves nonempty solid framed following
                  (lively.awake channel client attachment onLink.found
                    onLink.stillOpen onLink.attached) with
                advances | replays | ⟨left, waits⟩ |
                  ⟨arrived, state, streaming, empty⟩
              · exact .inl (acts_of_follow (.advance channel)
                  (beq_self_eq_true channel) rfl onLink.attached advances)
              · exact .inl (acts_of_follow (.replay channel ⟨fun _ => 0, .front⟩)
                  (beq_self_eq_true channel) rfl onLink.attached (replays _))
              · exact .inl (onLink.acts_of_inFlight left (waits _ left))
              · refine .inr ⟨by simp [known], ?_⟩
                obtain ⟨follower, toMaster, received⟩ := attachment
                cases streaming
                simp only [caughtUp, onLink.found, onLink.attached]
                rw [if_pos ⟨onLink.stillOpen, onLink.queued, arrived, empty⟩]
                rfl

/-- What a registered replica has replayed when it has caught up. -/
theorem InTouch.caughtUp_handled (inTouch : InTouch server system)
    (found : system.pool.clients channel = some client)
    (stillOpen : client.connection.phase ≠ .closed)
    (attached : system.attachments channel = some attachment) {since : Nat}
    (registered : client.registered = some since)
    {state : ReplicaStream replicaHasher}
    (done : system.caughtUp channel = some state) :
    state.handled = (system.pool.propagated.drop since).map frameOf ∧
      state.server.replState.replicaBytesProcessed =
        UInt64.ofNat (system.pool.propagated.drop since).flatten.length := by
  obtain ⟨asked, unwritten, answering, -⟩ :=
    inTouch.link found stillOpen attached
  obtain ⟨queue, -, holds⟩ :=
    (inTouch.delivering.clients channel client found).live stillOpen
  rw [registered] at holds
  obtain ⟨early, -⟩ := holds (answering.once (by simp [registered]))
  have length : (system.pool.propagated.take since).length = since := by
    rw [List.length_take]
    omega
  have after : ServerPool.RegisteredAfter (system.pool.propagated.take since)
      channel system.pool :=
    ⟨List.take_prefix _ _, client, found, by rw [length]; exact registered⟩
  have handled := inTouch.handled_eq after done
  rwa [length] at handled

end Link

/-- A replica is on an open connection of a master whose replicas are in
step. -/
def Replicates (server : ServerState hasher) (channel : ChannelId)
    (system : ReplicatedPool hasher replicaHasher) : Prop :=
  Lively server system ∧
    ∃ client attachment queue, OnLink system channel client attachment queue

section Runs

variable (nonempty : server.replState.masterReplid ≠ "")
  (solid : ∀ character ∈ server.replState.masterReplid.toList,
    isWhitespace character = false)
  (fits : HandshakeCommand.psync.bytes.length ≤ config.maxPayloadSize)

include nonempty solid fits

theorem Replicates.goesOn (replicates : Replicates server channel system)
    {action : ReplicationAction replicaHasher}
    (quiet : Quiet config channel system action)
    (taken : system.step config action = some next) :
    Replicates server channel next ∧
      next.catchUpWork channel +
          (if isLinkAction channel action then 1 else 0) ≤
        system.catchUpWork channel := by
  obtain ⟨lively, client, attachment, queue, onLink⟩ := replicates
  have livelyNext := lively_step nonempty solid lively quiet.sustains taken
  obtain ⟨_, _, _, onLinkNext, less⟩ :=
    onLink.goesOn lively.inTouch nonempty solid fits quiet taken
  rw [onLink.catchUpWork_eq lively.inTouch,
    onLinkNext.catchUpWork_eq livelyNext.inTouch]
  exact ⟨⟨livelyNext, _, _, _, onLinkNext⟩, less⟩

/-- Once nothing more is written and as long as a replica's connection is not
closed, the connection and the replica take no more than a known number of steps,
in every order with those of others.  Until the replica has handled and counted
exactly what has been propagated since its registration, one of these steps can be
taken. -/
theorem catches_up (nobody : server.replState.downstreamSenders = [])
    {past later : List (ReplicationAction replicaHasher)}
    {final : ReplicatedPool hasher replicaHasher} {client : Client}
    {attachment : Attachment replicaHasher}
    (before : Reaches (step config) Sustains (start server) past system)
    (found : system.pool.clients channel = some client)
    (stillOpen : client.connection.phase ≠ .closed)
    (attached : system.attachments channel = some attachment)
    (after : Reaches (step config) (Quiet config channel) system later final) :
    later.countP (isLinkAction channel) ≤ system.catchUpWork channel ∧
      (Acts config channel final ∨
        ∃ state since, final.caughtUp channel = some state ∧
          HoldsAt (fun client => client.registered = some since)
            final.pool.clients channel ∧
          state.handled = (system.pool.propagated.drop since).map frameOf ∧
          state.server.replState.replicaBytesProcessed = UInt64.ofNat
            (system.pool.propagated.drop since).flatten.length) := by
  have lively := lively_of_reaches nonempty solid (lively_start nobody) before
  obtain ⟨queue, onLink⟩ := lively.inTouch.onLink found stillOpen attached
  have replicates : Replicates server channel system :=
    ⟨lively, client, attachment, queue, onLink⟩
  have kept {state following : ReplicatedPool hasher replicaHasher}
      {action : ReplicationAction replicaHasher}
      (replicates : Replicates server channel state)
      (quiet : Quiet config channel state action)
      (taken : state.step config action = some following) :
      Replicates server channel following :=
    (replicates.goesOn nonempty solid fits quiet taken).1
  have silent {state following : ReplicatedPool hasher replicaHasher}
      {action : ReplicationAction replicaHasher}
      (same : state.pool.propagated = system.pool.propagated)
      (quiet : Quiet config channel state action)
      (taken : state.step config action = some following) :
      following.pool.propagated = system.pool.propagated :=
    (quiet.unwritten following taken).trans same
  have unwritten : final.pool.propagated = system.pool.propagated :=
    after.invariant silent rfl
  constructor
  · have counted := (after.strengthen kept replicates).countP_add_le
      (fun state => state.catchUpWork channel) fun meets taken =>
        (meets.1.goesOn nonempty solid fits meets.2 taken).2
    omega
  · obtain ⟨livelyLast, last, held, waiting, onLinkLast⟩ :=
      after.invariant kept replicates
    rcases onLinkLast.acts_or_caughtUp livelyLast nonempty solid with
      acts | ⟨known, done⟩
    · exact .inl acts
    · right
      obtain ⟨since, registered⟩ := Option.ne_none_iff_exists'.mp known
      obtain ⟨state, done⟩ := Option.isSome_iff_exists.mp done
      have handled := livelyLast.inTouch.caughtUp_handled onLinkLast.found
        onLinkLast.stillOpen onLinkLast.attached registered done
      rw [unwritten] at handled
      exact ⟨state, since, done, ⟨last, onLinkLast.found, registered⟩, handled⟩

end Runs

section Examples

/-- A test for steps that propagate nothing and close no connection. -/
def isQuiet (config : PoolConfig)
    (system : ReplicatedPool hasher replicaHasher)
    (action : ReplicationAction replicaHasher) : Bool :=
  action.isPlain &&
    ((system.step config action).all fun next =>
      next.pool.propagated == system.pool.propagated) &&
    match action with
    | .master (.shutdown _) => false
    | .master (.disconnect _) => false
    | _ => true

theorem quiet_of_isQuiet {action : ReplicationAction replicaHasher}
    (checked : isQuiet config system action = true) (channel : ChannelId) :
    Quiet config channel system action := by
  obtain ⟨plain, unwritten, kept⟩ := by
    simpa only [isQuiet, Bool.and_eq_true, and_assoc] using checked
  refine ⟨?_, fun next taken => ?_, ?_, ?_⟩
  · cases action with
    | master poolAction =>
        cases poolAction with
        | propagate rawResp => cases plain
        | _ => trivial
    | others acting server => cases plain
    | _ => trivial
  · rw [taken] at unwritten
    exact eq_of_beq unwritten
  · rintro rfl
    cases kept
  · rintro rfl
    cases kept

/-- A replica is attached and registered, and a client of the master sets a
key. -/
def unsentActions : List (ReplicationAction fun _ => 0) :=
  attachActions ++ [.master (.process 0 ⟨fun _ => 0, .front⟩),
    .master (.process 0 ⟨fun _ => 0, .front⟩)] ++ writeActions

/-- The write reaches the replica, which replays it. -/
theorem catches_up_unsentActions :
    ∃ system final : ReplicatedPool (fun _ => 0) fun _ => 0,
      Reaches (step ⟨none, 1024⟩) Sustains (start ServerPool.emptyMaster)
        unsentActions system ∧
      Reaches (step ⟨none, 1024⟩) (Quiet ⟨none, 1024⟩ 0) system
        (.master (.replicate 0) :: catchUpActions 176 1) final ∧
      7 ≤ system.catchUpWork 0 ∧
      (Acts ⟨none, 1024⟩ 0 final ∨
        ∃ state since, final.caughtUp 0 = some state ∧
          HoldsAt (fun client => client.registered = some since)
            final.pool.clients 0 ∧
          state.handled = (system.pool.propagated.drop since).map frameOf ∧
          state.server.replState.replicaBytesProcessed = UInt64.ofNat
            (system.pool.propagated.drop since).flatten.length) := by
  have ran : ((runActions (step ⟨none, 1024⟩)
      (start ServerPool.emptyMaster : ReplicatedPool _ fun _ => 0)
      unsentActions).bind fun system =>
        if (system.pool.clients 0).map (fun client =>
              client.connection.phase) = some .waiting ∧
            (system.attachments 0).isSome then
          (runActions (fun state action =>
              if isQuiet ⟨none, 1024⟩ state action then
                state.step ⟨none, 1024⟩ action
              else none) system
            (.master (.replicate 0) :: catchUpActions 176 1)).map fun _ => true
        else none) = some true := by
    decide +kernel
  obtain ⟨system, first, rest⟩ := Option.bind_eq_some_iff.mp ran
  split at rest
  next checked =>
    obtain ⟨final, last, -⟩ := Option.map_eq_some_iff.mp rest
    obtain ⟨client, found, phase⟩ := Option.map_eq_some_iff.mp checked.1
    obtain ⟨attachment, attached⟩ := Option.isSome_iff_exists.mp checked.2
    have before := reaches_of_isPlain (by decide) first
    have after : Reaches (step ⟨none, 1024⟩) (Quiet ⟨none, 1024⟩ 0) system
        (.master (.replicate 0) :: catchUpActions 176 1) final :=
      reaches_of_checked (fun _ checked => quiet_of_isQuiet checked 0)
        (fun _ _ _ => trivial) trivial last
    have caught := catches_up (by decide) (solid_of_all _ (by decide))
      (by decide) rfl before found (by rw [phase]; decide) attached after
    exact ⟨system, final, before, after,
      Nat.le_trans (by decide) caught.1, caught.2⟩
  next => cases rest

end Examples

end ReplicatedPool

end RustiCache
