import RustiCache.AuthenticationGuard
import RustiCache.ServerPool

/-!
# What the connections of a server do

The steps of a connection that drains its buffer, and the steps of the whole
server.  If no other connection acts in between, the steps that a connection
takes to handle a frame amount to one round of the drain loop.
-/

namespace RustiCache

namespace Connection

variable {hasher : String → UInt64} (config : ConnectionConfig)

/-- What a step of a draining connection can do.  Here `handled` is what has been
cut off the buffer. -/
inductive Turn (server : ServerState hasher) (connection : Connection) :
    DispatchStage → ServerState hasher → Connection → DispatchStage → Prop where
  | settle {next : Connection}
      (authenticated : next.isAuthenticated = connection.isAuthenticated)
      (downstream :
        next.isDownstreamReplica = connection.isDownstreamReplica)
      (stillOpen : next.phase ≠ .closed)
      (handled : connection.handled <+: next.handled) :
      Turn server connection .ready server next .ready
  | hangUp {next : Connection}
      (authenticated : next.isAuthenticated = connection.isAuthenticated)
      (downstream :
        next.isDownstreamReplica = connection.isDownstreamReplica)
      (closed : next.phase = .closed)
      (handled : connection.handled <+: next.handled) :
      Turn server connection .ready
        { server with
          channels := Function.update server.channels config.channel none }
        next .ready
  | check {rawCmd tail : Bytes} {value : Value} {cmd : Command}
      (cut : connection.buffer = rawCmd ++ tail)
      (accepted : Value.decoder.Accepts rawCmd value)
      (decoded : Command.fromValue value = .ok cmd)
      (passed : redirect server.cluster connection.isAuthenticated cmd = none) :
      Turn server connection .ready server
        { connection with
          buffer := tail
          handled := connection.handled ++ [(rawCmd, value)] }
        (.checked rawCmd cmd)
  | announce {rawCmd tail : Bytes} {value : Value}
      (cut : connection.buffer = rawCmd ++ tail)
      (accepted : Value.decoder.Accepts rawCmd value)
      (psync : Command.IsPsync value) :
      Turn server connection .ready server
        { connection with
          buffer := tail
          handled := connection.handled ++ [(rawCmd, value)]
          sent := connection.sent ++ resyncLine server.replState.masterReplid }
        .announced
  | finish (moment : Moment) (rawCmd : Bytes) (cmd : Command) :
      Turn server connection (.checked rawCmd cmd)
        (connection.finish config moment server rawCmd cmd).server
        (connection.finish config moment server rawCmd cmd).connection .ready
  | transfer :
      Turn server connection .announced server
        (connection.write (snapshotHeader ++ getEmptyRdbBytes)) .transferred
  | register :
      Turn server connection .transferred
        { server with
          replState := server.replState.registerDownstream config.channel }
        { connection with isDownstreamReplica := true } .ready

theorem begin_turn (moment : Moment) (server : ServerState hasher)
    {connection : Connection} (draining : connection.phase = .draining) :
    let outcome := connection.begin config moment server
    Turn config server connection .ready outcome.1.server outcome.1.connection
      outcome.2 := by
  intro outcome
  have unclosed : connection.phase ≠ .closed := by
    rw [draining]
    decide
  simp only [outcome, begin]
  cases found : Value.attempt connection.buffer with
  | complete value consumed =>
      have bounds := Value.attempt_bounds found
      have accepted := Value.accepts_take found
      have whole := (List.take_append_drop consumed connection.buffer).symm
      dsimp only
      split
      next replId offset decoded =>
        exact .announce whole accepted ⟨replId, offset, decoded⟩
      next decoded =>
        simp only [dispatch, decoded]
        exact .hangUp rfl rfl rfl (List.prefix_append _ _)
      next cmd decoded =>
        split
        next =>
          exact .settle rfl rfl unclosed (List.prefix_append _ _)
        next passed => exact .check whole accepted decoded passed
      next reason decoded =>
        simp only [dispatch, decoded]
        exact .settle rfl rfl unclosed (List.prefix_append _ _)
  | incomplete =>
      have waits : connection.drain config moment server =
          ⟨server, { connection with phase := .waiting }⟩ := by
        rw [drain, found]
        split <;> rfl
      dsimp only
      rw [waits]
      exact .settle rfl rfl (by simp) List.prefix_rfl
  | malformed fault =>
      have filled : connection.buffer ≠ [] :=
        Value.ne_nil_of_attempt (by simp [found])
      simp only [drain, if_neg filled, found]
      cases fault with
      | parseError reason =>
          exact .settle rfl rfl (by simp) List.prefix_rfl
      | panic => exact .hangUp rfl rfl rfl List.prefix_rfl

theorem turn_cases (moment : Moment) (server : ServerState hasher)
    {connection : Connection} (draining : connection.phase = .draining)
    (stage : DispatchStage) :
    let outcome := connection.turn config moment server stage
    Turn config server connection stage outcome.1.server outcome.1.connection
      outcome.2 := by
  cases stage with
  | ready => exact begin_turn config moment server draining
  | checked rawCmd cmd => exact .finish moment rawCmd cmd
  | announced => exact .transfer
  | transferred => exact .register

section Ordinary

variable {value : Value} {cmd : Command}
  (decoded : Command.fromValue value = .ok cmd)
  (notPsync : ∀ replId offset, cmd ≠ .psync replId offset)
  (notQuit : cmd ≠ .quit)

include decoded notPsync notQuit

theorem begin_ordinary (moment : Moment) (server : ServerState hasher)
    {connection : Connection} {consumed : Nat}
    (found : Value.attempt connection.buffer = .complete value consumed) :
    let rawCmd := connection.buffer.take consumed
    let cut := { connection with
      buffer := connection.buffer.drop consumed
      handled := connection.handled ++ [(rawCmd, value)] }
    begin config moment server connection =
      match redirect server.cluster connection.isAuthenticated cmd with
      | some reply => (⟨server, cut.write reply⟩, .ready)
      | none => (⟨server, cut⟩, .checked rawCmd cmd) := by
  intro rawCmd cut
  rw [begin, found]
  dsimp only
  rw [decoded]
  cases cmd with
  | psync replId offset => exact absurd rfl (notPsync replId offset)
  | quit => exact absurd rfl notQuit
  | _ => rfl

end Ordinary

/-- Without interference, the steps for a frame are one round of the drain
loop. -/
theorem drain_eq_turns (moment : Moment) (server : ServerState hasher)
    (connection : Connection) :
    ∃ count, (fun state : Session hasher × DispatchStage =>
        turn config moment state.1.server state.1.connection state.2)^[count]
          (⟨server, connection⟩, .ready) =
      (connection.drain config moment server, .ready) := by
  cases found : Value.attempt connection.buffer with
  | complete value consumed =>
      have filled : connection.buffer ≠ [] :=
        Value.ne_nil_of_attempt (by simp [found])
      cases decoded : Command.fromValue value with
      | error reason =>
          exact ⟨1, by simp [turn, begin, drain, filled, found, decoded]⟩
      | ok cmd =>
          by_cases psync : ∃ replId offset, cmd = .psync replId offset
          · obtain ⟨replId, offset, rfl⟩ := psync
            refine ⟨3, ?_⟩
            simp [turn, begin, drain, filled, found, decoded, dispatch,
              fullResync_eq, write, ReplicationState.getReplid]
          by_cases quits : cmd = .quit
          · subst quits
            exact ⟨1, by simp [turn, begin, drain, filled, found, decoded]⟩
          have notPsync : ∀ replId offset, cmd ≠ .psync replId offset :=
            fun replId offset same => psync ⟨replId, offset, same⟩
          have first := begin_ordinary config decoded notPsync quits moment
            server found
          simp only [drain, if_neg filled, found,
            dispatch_ordinary config decoded notPsync quits, serve]
          -- a check that passes leaves the execution to the next step
          cases redirected : redirect server.cluster
              connection.isAuthenticated cmd with
          | some reply =>
              rw [redirected] at first
              exact ⟨1, first⟩
          | none =>
              rw [redirected] at first
              refine ⟨2, ?_⟩
              rw [Function.iterate_succ_apply]
              simp only [turn, first]
              rfl
  | incomplete => exact ⟨1, by simp [turn, begin, found]⟩
  | malformed fault => exact ⟨1, by simp [turn, begin, found]⟩

end Connection

namespace ServerPool

variable {hasher : String → UInt64} {config : PoolConfig}

/-- Replace the state of the server and of one connection. -/
def update (pool : ServerPool hasher) (server : ServerState hasher)
    (channel : ChannelId) (client : Client) : ServerPool hasher :=
  ⟨server, Function.update pool.clients channel (some client), pool.propagated⟩

section Updates

variable {α β : Type} [DecidableEq α] {table : α → Option β} {key other : α}
  {new found : β}

theorem of_update_eq_some
    (stored : Function.update table key (some new) other = some found) :
    other = key ∧ found = new ∨ other ≠ key ∧ table other = some found := by
  by_cases same : other = key
  · rw [same, Function.update_self] at stored
    exact Or.inl ⟨same, (Option.some.inj stored).symm⟩
  · rw [Function.update_of_ne same] at stored
    exact Or.inr ⟨same, stored⟩

theorem of_update_eq_none
    (absent : Function.update table key (some new) other = none) :
    other ≠ key ∧ table other = none := by
  by_cases same : other = key
  · rw [same, Function.update_self] at absent
    cases absent
  · rw [Function.update_of_ne same] at absent
    exact ⟨same, absent⟩

/-- What all entries have, and the new one, all have afterwards. -/
theorem forall_of_update {property : β → Prop} {changed : α → Option β}
    (all : ∀ key found, table key = some found → property found)
    (stored : changed = Function.update table key (some new))
    (own : property new) :
    ∀ other found, changed other = some found → property found := by
  intro other found isFound
  rw [stored] at isFound
  rcases of_update_eq_some isFound with ⟨-, rfl⟩ | ⟨-, elsewhere⟩
  · exact own
  · exact all other found elsewhere

end Updates

/-- The connection of a channel has a property. -/
def HoldsAt (property : Client → Prop) (clients : ChannelId → Option Client)
    (channel : ChannelId) : Prop :=
  ∃ client, clients channel = some client ∧ property client

/-- A connection acts: that one, or another. -/
theorem HoldsAt.update {property : Client → Prop}
    {clients : ChannelId → Option Client} {channel other : ChannelId}
    {changed : Client} (holdsAt : HoldsAt property clients channel)
    (own : ∀ client, other = channel → clients channel = some client →
      property client → property changed) :
    HoldsAt property (Function.update clients other (some changed))
      channel := by
  obtain ⟨client, found, holds⟩ := holdsAt
  by_cases same : other = channel
  · refine ⟨changed, ?_, own client same found holds⟩
    rw [same, Function.update_self]
  · refine ⟨client, ?_, holds⟩
    rw [Function.update_of_ne (Ne.symm same)]
    exact found

/-- A connection that is known acts: that one, or another. -/
theorem HoldsAt.act {property : Client → Prop}
    {clients : ChannelId → Option Client} {channel other : ChannelId}
    {acting acted : Client} (holdsAt : HoldsAt property clients channel)
    (found : clients other = some acting)
    (kept : other = channel → property acting → property acted) :
    HoldsAt property (Function.update clients other (some acted)) channel := by
  refine holdsAt.update fun client own isFound holds => kept own ?_
  rw [own, isFound] at found
  cases found
  exact holds

/-- A new connection does not take the place of another. -/
theorem HoldsAt.accept {property : Client → Prop}
    {clients : ChannelId → Option Client} {channel other : ChannelId}
    {accepted : Client} (holdsAt : HoldsAt property clients channel)
    (fresh : clients other = none) :
    HoldsAt property (Function.update clients other (some accepted))
      channel := by
  refine holdsAt.update fun client own found _ => ?_
  rw [← own, fresh] at found
  cases found

/-- A connection propagates in the step that executes a command. -/
theorem propagation_eq_nil {server : ServerState hasher} {client : Client}
    {stage : DispatchStage} (begun : client.stage = stage)
    (other : ∀ rawCmd cmd, stage ≠ .checked rawCmd cmd) :
    propagation config server client = [] := by
  rw [propagation, begun]
  split
  next rawCmd cmd => exact absurd rfl (other rawCmd cmd)
  next => rfl

/-- The connection that acts. -/
def actor : PoolAction → Option ChannelId
  | .accept channel => some channel
  | .shutdown channel => some channel
  | .disconnect channel => some channel
  | .replicate channel => some channel
  | .read channel _ => some channel
  | .process channel _ => some channel
  | .propagate _ => none
  | .purge _ _ => none

/-- What a step can do, with the conditions under which it can happen. -/
inductive Transition (config : PoolConfig) (pool : ServerPool hasher) :
    PoolAction → ServerPool hasher → Prop where
  | accept {channel : ChannelId} (fresh : pool.clients channel = none) :
      Transition config pool (.accept channel)
        (pool.update
          { pool.server with
            channels :=
              Function.update pool.server.channels channel (some []) }
          channel
          ⟨Connection.new (config.ofChannel channel), .ready, none, []⟩)
  | hangUp {action : PoolAction} {channel : ChannelId} {client : Client}
      {next : Connection} (own : actor action = some channel)
      (found : pool.clients channel = some client)
      (stillOpen : client.connection.phase ≠ .closed)
      (closed : next.phase = .closed)
      (authenticated : next.isAuthenticated =
        client.connection.isAuthenticated)
      (downstream : next.isDownstreamReplica =
        client.connection.isDownstreamReplica)
      (handled : next.handled = client.connection.handled) :
      Transition config pool action
        (pool.update
          { pool.server with
            channels := Function.update pool.server.channels channel none }
          channel { client with connection := next })
  | fill {channel : ChannelId} {client : Client} {chunk : Bytes}
      (found : pool.clients channel = some client)
      (waiting : client.connection.phase = .waiting) (nonempty : chunk ≠ []) :
      Transition config pool (.read channel chunk)
        (pool.update pool.server channel
          { client with
            connection := { client.connection with
              buffer := client.connection.buffer ++ chunk
              phase := .draining } })
  | forward {channel : ChannelId} {client : Client} {replicatedBytes : Bytes}
      {queue : List Bytes} (found : pool.clients channel = some client)
      (waiting : client.connection.phase = .waiting)
      (downstream : client.connection.isDownstreamReplica = true)
      (queued : pool.server.channels channel =
        some (replicatedBytes :: queue)) :
      Transition config pool (.replicate channel)
        (pool.update
          { pool.server with
            channels :=
              Function.update pool.server.channels channel (some queue) }
          channel
          { client with
            connection := { client.connection.write replicatedBytes with
              phase := .draining }
            forwarded := client.forwarded ++ [replicatedBytes] })
  | turn {channel : ChannelId} {moment : Moment} {client : Client}
      {server : ServerState hasher} {next : Connection} {stage : DispatchStage}
      (found : pool.clients channel = some client)
      (draining : client.connection.phase = .draining)
      (turned : client.connection.Turn (config.ofChannel channel) pool.server
        client.stage server next stage) :
      Transition config pool (.process channel moment)
        { pool.update server channel
            { client with
              connection := next
              stage := stage
              registered := pool.noted client } with
          propagated :=
            pool.propagated ++ propagation config pool.server client }
  | propagate (rawResp : Bytes) :
      Transition config pool (.propagate rawResp)
        { pool with
          server := { pool.server with
            replState := (Command.propagateAll pool.server [rawResp]).1
            channels := (Command.propagateAll pool.server [rawResp]).2 }
          propagated := pool.propagated ++ [rawResp] }
  | purge (now : Instant) (samplePerShard : Nat) :
      Transition config pool (.purge now samplePerShard)
        { pool with
          server := { pool.server with
            db := (pool.server.db.purgeExpiredSample now samplePerShard).2 } }

theorem transition_of_step {pool next : ServerPool hasher} {action : PoolAction}
    (taken : pool.step config action = some next) :
    Transition config pool action next := by
  cases action with
  | accept channel =>
      simp only [step] at taken
      split at taken
      next => cases taken
      next fresh =>
        cases taken
        exact .accept fresh
  | shutdown channel =>
      obtain ⟨client, found, acted⟩ := Option.bind_eq_some_iff.mp taken
      split at acted
      next waiting =>
        cases acted
        exact .hangUp rfl found (by rw [waiting]; decide) rfl rfl rfl rfl
      next => cases acted
  | disconnect channel =>
      obtain ⟨client, found, acted⟩ := Option.bind_eq_some_iff.mp taken
      split at acted
      next => cases acted
      next stillOpen =>
        cases acted
        exact .hangUp rfl found stillOpen rfl rfl rfl rfl
  | replicate channel =>
      obtain ⟨client, found, acted⟩ := Option.bind_eq_some_iff.mp taken
      split at acted
      next waiting =>
        obtain ⟨session, forwarded, rfl⟩ := Option.map_eq_some_iff.mp acted
        rw [Connection.forward] at forwarded
        split at forwarded
        next downstream =>
          split at forwarded
          next replicatedBytes queue queued =>
            change pool.server.channels channel = _ at queued
            cases forwarded
            rw [queued]
            exact .forward found waiting downstream queued
          next => cases forwarded
        next => cases forwarded
      next => cases acted
  | read channel chunk =>
      obtain ⟨client, found, acted⟩ := Option.bind_eq_some_iff.mp taken
      split at acted
      next waiting =>
        cases acted
        have stillOpen : client.connection.phase ≠ .closed := by
          rw [waiting]
          decide
        rw [Connection.receive]
        split
        next => exact .hangUp rfl found stillOpen rfl rfl rfl rfl
        next nonempty =>
          dsimp only
          split
          next => exact .hangUp rfl found stillOpen rfl rfl rfl rfl
          next => exact .fill found waiting nonempty
      next => cases acted
  | process channel moment =>
      obtain ⟨client, found, acted⟩ := Option.bind_eq_some_iff.mp taken
      split at acted
      next draining =>
        cases acted
        exact .turn found draining
          (Connection.turn_cases _ moment pool.server draining client.stage)
      next => cases acted
  | propagate rawResp =>
      cases taken
      exact .propagate rawResp
  | purge now samplePerShard =>
      cases taken
      exact .purge now samplePerShard

end ServerPool

end RustiCache
