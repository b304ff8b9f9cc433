import RustiCache.ReplicaDelivery

/-!
# The log of what has been propagated

Connections propagate the raw bytes of the commands that they execute.  So every
byte string in the log is a frame, and the offset of the master is the number of
bytes in the log, modulo the size of a word.
-/

namespace RustiCache

/-- The value of a frame. -/
def Value.ofFrame (raw : Bytes) : Value :=
  match Value.attempt raw with
  | .complete value _ => value
  | _ => .bulkString none

/-- The byte string is one frame. -/
def Value.IsFrame (raw : Bytes) : Prop :=
  Value.decoder.Accepts raw (Value.ofFrame raw)

theorem Value.ofFrame_of_accepts {raw : Bytes} {value : Value}
    (accepted : Value.decoder.Accepts raw value) :
    Value.ofFrame raw = value := by
  have found : Value.attempt raw = .complete value raw.length := accepted
  rw [ofFrame, found]

theorem Value.isFrame_of_accepts {raw : Bytes} {value : Value}
    (accepted : Value.decoder.Accepts raw value) : Value.IsFrame raw := by
  rw [IsFrame, ofFrame_of_accepts accepted]
  exact accepted

/-- The state differs by the bytes counted, and by who is registered. -/
structure ReplicationState.Counts (raws : List Bytes)
    (before after : ReplicationState) : Prop where
  replid : after.masterReplid = before.masterReplid
  role : after.role = before.role
  offset : after.masterReplOffset =
    before.masterReplOffset + UInt64.ofNat raws.flatten.length

theorem ReplicationState.Counts.refl (state : ReplicationState) :
    Counts [] state state :=
  ⟨rfl, rfl, (UInt64.add_zero _).symm⟩

theorem ReplicationState.Counts.trans {first second : List Bytes}
    {before middle after : ReplicationState}
    (earlier : Counts first before middle)
    (later : Counts second middle after) :
    Counts (first ++ second) before after where
  replid := later.replid.trans earlier.replid
  role := later.role.trans earlier.role
  offset := by
    rw [later.offset, earlier.offset, List.flatten_append, List.length_append,
      UInt64.ofNat_add, UInt64.add_assoc]

namespace Command

variable {hasher : String → UInt64}

theorem counts_propagateAll (server : ServerState hasher) (raws : List Bytes) :
    ReplicationState.Counts raws server.replState
      (propagateAll server raws).1 := by
  simp only [propagateAll]
  induction raws generalizing server with
  | nil => exact .refl _
  | cons raw raws ih =>
      have first : ReplicationState.Counts [raw] server.replState
          (server.replState.propagateDownstream server.channels raw).1 :=
        ⟨rfl, rfl, by rw [List.flatten_singleton]; rfl⟩
      exact first.trans (ih
        { server with
          replState :=
            (server.replState.propagateDownstream server.channels raw).1
          channels :=
            (server.replState.propagateDownstream server.channels raw).2 })

/-- What is propagated is the command itself. -/
theorem eq_of_mem_propagation {server : ServerState hasher} {rawCmd raw : Bytes}
    {requirepass : Option String} {isAuthenticated : Bool} {cmd : Command}
    (member : raw ∈ cmd.propagation server rawCmd requirepass
      isAuthenticated) : raw = rawCmd := by
  cases cmd with
  | set key value pxMs =>
      rw [propagation] at member
      split at member
      next => cases member
      next => exact List.mem_singleton.mp member
  | del names =>
      rw [propagation] at member
      split at member
      next => cases member
      next => exact List.mem_singleton.mp member
  | _ => cases member

end Command

namespace ServerPool

variable {hasher : String → UInt64} {config : PoolConfig}
  {pool next : ServerPool hasher} {server : ServerState hasher}

/-- A command that is to be executed has been decoded from its frame. -/
def Decoded (stage : DispatchStage) : Prop :=
  ∀ rawCmd cmd, stage = .checked rawCmd cmd →
    Value.IsFrame rawCmd ∧
      Command.fromValue (Value.ofFrame rawCmd) = .ok cmd

/-- The log accounts for what the master has done since a state of it. -/
structure Logged (server : ServerState hasher) (pool : ServerPool hasher) :
    Prop where
  counts : ReplicationState.Counts pool.propagated server.replState
    pool.server.replState
  framed : ∀ raw ∈ pool.propagated, Value.IsFrame raw
  decoded : ∀ channel client, pool.clients channel = some client →
    Decoded client.stage

/-- Only frames are propagated. -/
def PropagatesFrames : PoolAction → Prop
  | .propagate rawResp => Value.IsFrame rawResp
  | _ => True

/-- One connection acts and propagates frames. -/
theorem Logged.act (logged : Logged server pool) {raws : List Bytes}
    {acted : ServerState hasher} {channel : ChannelId} {client : Client}
    (counts : ReplicationState.Counts raws pool.server.replState
      acted.replState)
    (framed : ∀ raw ∈ raws, Value.IsFrame raw)
    (decoded : Decoded client.stage) :
    Logged server ⟨acted, Function.update pool.clients channel (some client),
      pool.propagated ++ raws⟩ where
  counts := logged.counts.trans counts
  framed := List.forall_mem_append.mpr ⟨logged.framed, framed⟩
  decoded other present isPresent := by
    rcases of_update_eq_some isPresent with ⟨-, rfl⟩ | ⟨-, elsewhere⟩
    · exact decoded
    · exact logged.decoded other present elsewhere

/-- One connection acts and propagates nothing. -/
theorem Logged.move (logged : Logged server pool)
    {acted : ServerState hasher} {channel : ChannelId} {client : Client}
    (counts : ReplicationState.Counts [] pool.server.replState acted.replState)
    (decoded : Decoded client.stage) :
    Logged server ⟨acted, Function.update pool.clients channel (some client),
      pool.propagated⟩ := by
  have moved : Logged server ⟨acted,
      Function.update pool.clients channel (some client),
      pool.propagated ++ []⟩ :=
    logged.act counts (by simp) decoded
  rwa [List.append_nil] at moved

/-- The step of a connection that drains its buffer. -/
theorem Logged.turn (logged : Logged server pool) {channel : ChannelId}
    {client : Client} (found : pool.clients channel = some client)
    {acted : ServerState hasher} {next : Connection} {stage : DispatchStage}
    (turned : client.connection.Turn (config.ofChannel channel) pool.server
      client.stage acted next stage) :
    Logged server ⟨acted,
      Function.update pool.clients channel
        (some { client with
          connection := next
          stage := stage
          registered := pool.noted client }),
      pool.propagated ++ propagation config pool.server client⟩ := by
  generalize begun : client.stage = before at turned
  cases turned with
  | @check rawCmd tail value cmd cut accepted decoded passed =>
      rw [propagation_eq_nil begun (by rintro _ _ ⟨⟩), List.append_nil]
      refine logged.move (.refl _) ?_
      rintro _ _ ⟨⟩
      refine ⟨Value.isFrame_of_accepts accepted, ?_⟩
      rw [Value.ofFrame_of_accepts accepted]
      exact decoded
  | finish moment rawCmd cmd =>
      have state := Command.execute_propagation moment pool.server rawCmd
        config.requirepass client.connection.isAuthenticated cmd
      have counts := Command.counts_propagateAll pool.server
        (cmd.propagation pool.server rawCmd config.requirepass
          client.connection.isAuthenticated)
      dsimp only at state
      rw [← state] at counts
      simp only [propagation, begun]
      refine logged.act counts (fun raw member => ?_) (by rintro _ _ ⟨⟩)
      rw [Command.eq_of_mem_propagation member]
      exact (logged.decoded channel client found rawCmd cmd begun).1
  | _ =>
      rw [propagation_eq_nil begun (by rintro _ _ ⟨⟩), List.append_nil]
      exact logged.move ⟨rfl, rfl, (UInt64.add_zero _).symm⟩
        (by rintro _ _ ⟨⟩)

/-- Every step of the server is accounted for. -/
theorem logged_step {action : PoolAction} (logged : Logged server pool)
    (frames : PropagatesFrames action)
    (taken : pool.step config action = some next) : Logged server next := by
  cases transition_of_step taken with
  | accept fresh => exact logged.move (.refl _) nofun
  | hangUp own found stillOpen closed authenticated downstream handled =>
      have decoded := logged.decoded _ _ found
      exact logged.move (.refl _) decoded
  | fill found waiting nonempty =>
      have decoded := logged.decoded _ _ found
      exact logged.move (.refl _) decoded
  | forward found waiting downstream queued =>
      have decoded := logged.decoded _ _ found
      exact logged.move (.refl _) decoded
  | turn found draining turned => exact logged.turn found turned
  | propagate rawResp =>
      exact
        { counts := logged.counts.trans
            (Command.counts_propagateAll pool.server [rawResp])
          framed := by
            simp only [List.forall_mem_append, List.forall_mem_singleton]
            exact ⟨logged.framed, frames⟩
          decoded := logged.decoded }
  | purge now samplePerShard =>
      exact ⟨logged.counts, logged.framed, logged.decoded⟩

theorem logged_start (server : ServerState hasher) :
    Logged server (start server) where
  counts := .refl _
  framed := nofun
  decoded channel client found := by
    rw [start] at found
    cases found

end ServerPool

end RustiCache
