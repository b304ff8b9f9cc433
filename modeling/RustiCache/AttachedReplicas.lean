import RustiCache.ReplicatedPool

/-!
# What travels between a master and its replicas

A master answers `PSYNC` with the resynchronization line and the snapshot, and
what it writes to the connection afterwards is the stream.  The replica reads
the reply part by part and then handles the frames of the stream in order.
-/

namespace RustiCache

open FrameDecoder (stream InStep)

theorem FrameDecoder.InStep.extend {α V : Type}
    {frames handled : List (List α × V)} {buffer unread : List α}
    (inStep : InStep frames handled buffer unread) (frame : List α × V) :
    InStep (frames ++ [frame]) handled buffer (unread ++ frame.1) := by
  obtain ⟨remaining, split, pending⟩ := inStep
  refine ⟨remaining ++ [frame], by rw [split, List.append_assoc], ?_⟩
  rw [← List.append_assoc, pending, stream_append, stream_cons, stream_nil,
    List.append_nil]

namespace Connection

variable {hasher : String → UInt64} {config : ConnectionConfig}
  {connection : Connection} (moment : Moment) (server : ServerState hasher)

/-- A connection waits if its buffer holds no whole frame. -/
theorem begin_incomplete
    (found : Value.attempt connection.buffer = .incomplete) :
    connection.begin config moment server =
      (⟨server, { connection with phase := .waiting }⟩, .ready) := by
  rw [begin, found]
  dsimp only
  rw [drain, found]
  split <;> rfl

theorem begin_psync
    (whole : connection.buffer = HandshakeCommand.psync.bytes) :
    connection.begin config moment server =
      (⟨server,
        { connection with
          buffer := []
          handled := connection.handled ++
            [(HandshakeCommand.psync.bytes, HandshakeCommand.psync.value)]
          sent := connection.sent ++
            resyncLine server.replState.masterReplid }⟩, .announced) := by
  have accepted : Value.decoder.Accepts HandshakeCommand.psync.bytes
      HandshakeCommand.psync.value :=
    HandshakeCommand.accepts (by decide)
  have found : Value.attempt HandshakeCommand.psync.bytes =
      .complete HandshakeCommand.psync.value
        HandshakeCommand.psync.bytes.length :=
    accepted
  have decoded := HandshakeCommand.fromValue_value .psync
  rw [begin, whole, found]
  simp only [decoded, HandshakeCommand.command, List.drop_length,
    List.take_length]
  rfl

end Connection

namespace ReplicatedPool

open ReplicationLink (Resync)

variable {hasher replicaHasher : String → UInt64} {config : PoolConfig}

/-- A byte string of the stream with its value. -/
def frameOf (raw : Bytes) : Bytes × Value :=
  (raw, Value.ofFrame raw)

theorem stream_frameOf (raws : List Bytes) :
    stream (raws.map frameOf) = raws.flatten := by
  induction raws with
  | nil => rfl
  | cons raw raws ih =>
      rw [List.map_cons, frameOf, FrameDecoder.stream_cons, ih,
        List.flatten_cons]

theorem accepts_frameOf {raws : List Bytes}
    (framed : ∀ raw ∈ raws, Value.IsFrame raw) :
    ∀ frame ∈ raws.map frameOf, Value.decoder.Accepts frame.1 frame.2 := by
  intro frame member
  obtain ⟨raw, inRaws, rfl⟩ := List.mem_map.mp member
  exact framed raw inRaws

/-- How far the master is with the `PSYNC` of a connection: what it has still to
read of it, and what it has still to write of the reply. -/
inductive Answering (replid : String) (client : Client) :
    Bytes → Bytes → Prop where
  | asked (stage : client.stage = .ready)
      (unregistered : client.registered = none)
      (fresh : ∀ frame ∈ client.connection.handled,
        ¬ Command.IsPsync frame.2) :
      Answering replid client HandshakeCommand.psync.bytes
        (resyncLine replid ++ (snapshotHeader ++ getEmptyRdbBytes))
  | announced (stage : client.stage = .announced)
      (unregistered : client.registered = none)
      (once : ServerPool.AsksOnce client.connection) :
      Answering replid client [] (snapshotHeader ++ getEmptyRdbBytes)
  | transferred (stage : client.stage = .transferred)
      (unregistered : client.registered = none)
      (once : ServerPool.AsksOnce client.connection) :
      Answering replid client [] []
  | registered {since : Nat} (stage : client.stage = .ready)
      (registered : client.registered = some since)
      (once : ServerPool.AsksOnce client.connection) :
      Answering replid client [] []

/-- The replica has replayed what it has handled of the stream. -/
structure Streaming (frames : List (Bytes × Value)) (pending : Bytes)
    (state : ReplicaStream replicaHasher) : Prop where
  running : state.phase ≠ .stopped
  inStep : InStep frames state.handled state.buffer pending
  counted : state.totalBytesProcessed =
    UInt64.ofNat (stream state.handled).length
  published : state.server.replState.replicaBytesProcessed =
    state.totalBytesProcessed

/-- What is pending for a replica is the rest of the reply to `PSYNC`, and the
frames of the stream that it has not handled. -/
def Following (replid : String) (forwarded : List Bytes) (pending : Bytes) :
    Follower replicaHasher → Prop
  | .syncing _ task =>
      task.replState.replicaBytesProcessed = 0 ∧
        ∃ owed, Resync replid task owed ∧
          task.buffer ++ pending = owed ++ forwarded.flatten
  | .streaming state => Streaming (forwarded.map frameOf) pending state

section Follower

variable {replid : String} {forwarded : List Bytes} {pending : Bytes}
  {follower next : Follower replicaHasher}

/-- The stream grows. -/
theorem Following.forward (following : Following replid forwarded pending follower)
    (raw : Bytes) :
    Following replid (forwarded ++ [raw]) (pending ++ raw) follower := by
  cases follower with
  | syncing server task =>
      obtain ⟨fresh, owed, resync, whole⟩ := following
      refine ⟨fresh, owed, resync, ?_⟩
      rw [← List.append_assoc, whole, List.append_assoc, List.flatten_append,
        List.flatten_singleton]
  | streaming state =>
      have extended := following.inStep.extend (frameOf raw)
      rw [← List.map_singleton, ← List.map_append] at extended
      exact { following with inStep := extended }

theorem Following.receive {chunk : Bytes}
    (following : Following replid forwarded (chunk ++ pending) follower)
    (nonempty : chunk ≠ []) (received : follower.receive chunk = some next) :
    Following replid forwarded pending next := by
  cases follower with
  | syncing server task =>
      obtain ⟨fresh, owed, resync, whole⟩ := following
      obtain ⟨replica, read, rfl⟩ := Option.map_eq_some_iff.mp received
      rw [ReplicationLink.receive_cases nonempty read]
      exact ⟨fresh, owed, resync.refill _, by rw [List.append_assoc, whole]⟩
  | streaming state =>
      obtain ⟨after, read, rfl⟩ := Option.map_eq_some_iff.mp received
      simp only [ReplicaStream.step, ReplicaStream.receive,
        if_neg nonempty] at read
      split at read
      next =>
        cases read
        exact
          { running := by rintro ⟨⟩
            inStep := following.inStep.receive
            counted := following.counted
            published := following.published }
      next => cases read

theorem Following.advance (nonempty : replid ≠ "")
    (solid : ∀ character ∈ replid.toList, isWhitespace character = false)
    (following : Following replid forwarded pending follower)
    (advanced : follower.advance = some next) :
    Following replid forwarded pending next := by
  cases follower with
  | streaming state => cases advanced
  | syncing server task =>
      obtain ⟨fresh, owed, resync, whole⟩ := following
      obtain ⟨replica, read, rfl⟩ := Option.map_eq_some_iff.mp advanced
      rcases resync.next nonempty solid with
        ⟨stage, -⟩ |
          ⟨piece, later, stage, replState, rfl, -, readsOff, rest, published⟩
      · rw [ReplicaTask.advance, stage] at read
        cases read
      · rw [List.append_assoc] at whole
        rcases readsOff whole with ⟨missing, -⟩ | ⟨tail, pendingTail, found⟩
        · rw [missing] at read
          cases read
        · rw [found] at read
          cases read
          split
          next done =>
            dsimp only at done
            subst done
            have nothing : later = [] := by
              cases rest tail [] with
              | streaming => rfl
              | line other => cases other
              | header other => cases other
              | payload other => cases other
            rw [nothing, List.nil_append, ← stream_frameOf] at pendingTail
            exact
              { running := by rintro ⟨⟩
                inStep := InStep.init pendingTail
                counted := rfl
                published := published.trans fresh }
          next =>
            exact ⟨published.trans fresh, later, rest tail _, pendingTail⟩

/-- A round of the loop over the stream absorbs the next frame, or waits for
more. -/
theorem replay_cases {moment : Moment}
    (framed : ∀ raw ∈ forwarded, Value.IsFrame raw)
    (following : Following replid forwarded pending follower)
    (replayed : follower.replay moment = some next) :
    ∃ state, follower = .streaming state ∧
      ((∃ raw ∈ forwarded, ∃ tail,
          InStep (forwarded.map frameOf) (state.handled ++ [frameOf raw]) tail
            pending ∧
          next = .streaming ({ state with
              buffer := tail
              handled := state.handled ++ [frameOf raw] }.absorb moment
            raw.length (Value.ofFrame raw))) ∨
        next = .streaming { state with phase := .reading }) := by
  cases follower with
  | syncing server task => cases replayed
  | streaming state =>
      refine ⟨state, rfl, ?_⟩
      obtain ⟨after, read, rfl⟩ := Option.map_eq_some_iff.mp replayed
      simp only [ReplicaStream.step] at read
      split at read
      next draining =>
        cases read
        rcases ReplicaStream.drain_cases (accepts_frameOf framed)
            following.inStep moment with
          ⟨frame, value, others, tail, split, -, rest, drained⟩ | ⟨-, drained⟩
        · have member : (frame, value) ∈ forwarded.map frameOf := by
            rw [split]
            simp
          obtain ⟨raw, inForwarded, same⟩ := List.mem_map.mp member
          cases same
          exact .inl ⟨frame, inForwarded, tail, rest, by rw [drained]; rfl⟩
        · exact .inr (by rw [drained])
      next => cases read

theorem Following.replay {moment : Moment}
    (framed : ∀ raw ∈ forwarded, Value.IsFrame raw)
    (following : Following replid forwarded pending follower)
    (replayed : follower.replay moment = some next) :
    Following replid forwarded pending next := by
  obtain ⟨state, rfl, moved⟩ := replay_cases framed following replayed
  rcases moved with ⟨raw, -, tail, rest, rfl⟩ | rfl
  · rw [ReplicaStream.absorb_eq]
    exact
      { running := following.running
        inStep := rest
        counted := by
          dsimp only
          rw [following.counted, FrameDecoder.stream_append, List.length_append,
            UInt64.ofNat_add, frameOf, FrameDecoder.stream_cons,
            FrameDecoder.stream_nil, List.append_nil]
        published := rfl }
  · exact { following with running := nofun }

theorem Following.others
    (following : Following replid forwarded pending follower)
    {server : ServerState replicaHasher}
    (same : server.replState.masterReplid =
      follower.server.replState.masterReplid)
    (published : server.replState.replicaBytesProcessed =
      follower.server.replState.replicaBytesProcessed) :
    Following replid forwarded pending (follower.others server) := by
  cases follower with
  | syncing old task =>
      obtain ⟨fresh, owed, resync, whole⟩ := following
      refine ⟨published.trans fresh, owed, ?_, whole⟩
      cases resync with
      | line stage => exact .line stage
      | header stage learned => exact .header stage (same.trans learned)
      | payload stage learned => exact .payload stage (same.trans learned)
      | streaming stage learned => exact .streaming stage (same.trans learned)
  | streaming state =>
      exact { following with published := published.trans following.published }

end Follower

end ReplicatedPool

end RustiCache
