import RustiCache.ReplicasInTouch

/-!
# The offsets of a master and its replicas

A master counts the bytes it propagates from its start, and a replica counts the
bytes it has processed from its own `PSYNC`.  The reply to `PSYNC` announces the
offset 0, whatever the master has counted, so the two agree only for a replica
that has been registered when the master's count was 0.
-/

namespace RustiCache

open FrameDecoder (stream)

namespace ServerPool

variable {hasher : String → UInt64} {config : PoolConfig}
  {pool next : ServerPool hasher} {channel : ChannelId}

/-- A connection has been registered after a log. -/
def RegisteredAfter (log : List Bytes) (channel : ChannelId)
    (pool : ServerPool hasher) : Prop :=
  log <+: pool.propagated ∧
    HoldsAt (fun client => client.registered = some log.length) pool.clients
      channel

theorem noted_of_registered {client : Client} {since : Nat}
    (registered : client.registered = some since) :
    pool.noted client = some since := by
  rw [noted, registered]
  split
  next unregistered => cases unregistered
  next => rfl

/-- The first registration stays. -/
theorem registeredAfter_step {log : List Bytes} {action : PoolAction}
    (registeredAfter : RegisteredAfter log channel pool)
    (taken : pool.step config action = some next) :
    RegisteredAfter log channel next := by
  obtain ⟨earlier, registered⟩ := registeredAfter
  cases transition_of_step taken with
  | accept fresh => exact ⟨earlier, registered.accept fresh⟩
  | hangUp own found =>
      exact ⟨earlier, registered.act found fun _ known => known⟩
  | fill found => exact ⟨earlier, registered.act found fun _ known => known⟩
  | forward found => exact ⟨earlier, registered.act found fun _ known => known⟩
  | turn found =>
      exact ⟨earlier.trans (List.prefix_append _ _),
        registered.act found fun _ known => noted_of_registered known⟩
  | propagate rawResp =>
      exact ⟨earlier.trans (List.prefix_append _ _), registered⟩
  | purge now samplePerShard => exact ⟨earlier, registered⟩

end ServerPool

/-- The action is a step of the program that sustains the replicas in any
state. -/
def ReplicationAction.isPlain {replicaHasher : String → UInt64} :
    ReplicationAction replicaHasher → Bool
  | .master (.propagate _) => false
  | .others _ _ => false
  | _ => true

namespace ReplicatedPool

open ServerPool (RegisteredAfter)

variable {hasher replicaHasher : String → UInt64} {config : PoolConfig}
  {server : ServerState hasher}
  {system next : ReplicatedPool hasher replicaHasher} {channel : ChannelId}

/-- The replica on an open connection, if it has processed all that has been
propagated to it. -/
def caughtUp (system : ReplicatedPool hasher replicaHasher)
    (channel : ChannelId) : Option (ReplicaStream replicaHasher) :=
  match system.pool.clients channel, system.attachments channel with
  | some client, some ⟨.streaming state, toMaster, received⟩ =>
      if client.connection.phase ≠ .closed ∧
          system.pool.server.channels channel = some [] ∧
          inFlight client ⟨.streaming state, toMaster, received⟩ = [] ∧
          state.buffer = [] then
        some state
      else
        none
  | _, _ => none

theorem caughtUp_cases {state : ReplicaStream replicaHasher}
    (done : system.caughtUp channel = some state) :
    ∃ client attachment, system.pool.clients channel = some client ∧
      client.connection.phase ≠ .closed ∧
      system.attachments channel = some attachment ∧
      attachment.follower = .streaming state ∧
      system.pool.server.channels channel = some [] ∧
      inFlight client attachment = [] ∧ state.buffer = [] := by
  rw [caughtUp] at done
  split at done
  next client streaming toMaster received found attached =>
    split at done
    next holds =>
      cases done
      exact ⟨client, _, found, holds.1, attached, rfl, holds.2⟩
    next => cases done
  next => cases done

/-- What a replica has handled then is the log since its registration. -/
theorem InTouch.handled_eq (inTouch : InTouch server system)
    {log : List Bytes} (registered : RegisteredAfter log channel system.pool)
    {state : ReplicaStream replicaHasher}
    (done : system.caughtUp channel = some state) :
    state.handled =
        (system.pool.propagated.drop log.length).map frameOf ∧
      state.server.replState.replicaBytesProcessed =
        UInt64.ofNat
          (system.pool.propagated.drop log.length).flatten.length := by
  obtain ⟨client, attachment, found, stillOpen, attached, streaming, queue,
    arrived, empty⟩ := caughtUp_cases done
  obtain ⟨-, same, isFound, known⟩ := registered
  rw [found] at isFound
  cases isFound
  obtain ⟨same, isFound, linked⟩ := inTouch.linked channel attachment attached
  rw [found] at isFound
  cases isFound
  obtain ⟨asked, unwritten, answering, -, -, following⟩ := linked stillOpen
  have once := answering.once (by rw [known]; simp)
  have framed : ∀ raw ∈ client.forwarded, Value.IsFrame raw :=
    fun raw member => inTouch.logged.framed raw
      (inTouch.mem_propagated found stillOpen (fun _ => once) member)
  -- a registered connection has nothing left to write of the reply
  have written : unwritten = [] := by
    cases answering with
    | asked _ unregistered => exact absurd (known.symm.trans unregistered) nofun
    | announced _ unregistered =>
        exact absurd (known.symm.trans unregistered) nofun
    | transferred => rfl
    | registered => rfl
  rw [streaming, arrived, written, List.append_nil] at following
  obtain ⟨-, inStep, counted, published⟩ := following
  obtain ⟨waiting, alive, holds⟩ :=
    (inTouch.delivering.clients channel client found).live stillOpen
  rw [queue] at alive
  cases alive
  rw [known] at holds
  obtain ⟨-, forwarded, -⟩ := holds once
  rw [List.append_nil] at forwarded
  have handled : state.handled = client.forwarded.map frameOf := by
    rcases inStep.next (accepts_frameOf framed) with
      ⟨frame, value, others, tail, -, -, nonempty, -⟩ | ⟨-, last⟩
    · exact absurd empty nonempty
    · exact (last rfl).2
  rw [← forwarded]
  refine ⟨handled, ?_⟩
  rw [published, counted, handled, stream_frameOf]

theorem inTouch_start
    (nobody : server.replState.downstreamSenders = []) :
    InTouch server (start server : ReplicatedPool hasher replicaHasher) where
  delivering := ServerPool.delivering_start nobody
  logged := ServerPool.logged_start server
  linked _ _ attached := by cases attached

/-- The step that registers a replica. -/
def Registers (config : PoolConfig)
    (system : ReplicatedPool hasher replicaHasher) (channel : ChannelId)
    (moment : Moment) (next : ReplicatedPool hasher replicaHasher) : Prop :=
  (∃ client, system.pool.clients channel = some client ∧
    client.stage = .transferred ∧ client.registered = none) ∧
    system.step config (.master (.process channel moment)) = some next

theorem Registers.registeredAfter {moment : Moment}
    (registers : Registers config system channel moment next) :
    RegisteredAfter system.pool.propagated channel next.pool := by
  obtain ⟨⟨client, found, stage, unregistered⟩, taken⟩ := registers
  obtain ⟨pool, acted, rfl⟩ := Option.map_eq_some_iff.mp taken
  simp only [ServerPool.step, found, Option.bind_some] at acted
  split at acted
  next =>
    cases acted
    refine ⟨List.prefix_append _ _, _, Function.update_self .., ?_⟩
    simp only [ServerPool.noted, stage, unregistered]
  next => cases acted

theorem inTouch_of_reaches (nonempty : server.replState.masterReplid ≠ "")
    (solid : ∀ character ∈ server.replState.masterReplid.toList,
      isWhitespace character = false)
    (inTouch : InTouch server system)
    {actions : List (ReplicationAction replicaHasher)}
    (reaches : Reaches (step config) Sustains system actions next) :
    InTouch server next :=
  reaches.invariant (fun inTouch sustains taken =>
    inTouch_step nonempty solid inTouch sustains taken) inTouch

/-- The registration of a replica stays whatever happens. -/
theorem registeredAfter_of_reaches {log : List Bytes}
    (registered : RegisteredAfter log channel system.pool)
    {allowed : ReplicatedPool hasher replicaHasher →
      ReplicationAction replicaHasher → Prop}
    {actions : List (ReplicationAction replicaHasher)}
    (reaches : Reaches (step config) allowed system actions next) :
    RegisteredAfter log channel next.pool := by
  have kept {before after : ReplicatedPool hasher replicaHasher}
      {action : ReplicationAction replicaHasher}
      (known : RegisteredAfter log channel before.pool)
      (_ : allowed before action)
      (taken : before.step config action = some after) :
      RegisteredAfter log channel after.pool := by
    rcases pool_of_step taken with same | ⟨poolAction, -, acted⟩
    · rw [same]
      exact known
    · exact ServerPool.registeredAfter_step known acted
  exact reaches.invariant kept registered

/-- A replica that has processed all that has been propagated to it has counted
as many bytes as its master exactly if the master's count was 0 when it
registered the replica. -/
theorem offsets_agree_iff
    (nobody : server.replState.downstreamSenders = [])
    (nonempty : server.replState.masterReplid ≠ "")
    (solid : ∀ character ∈ server.replState.masterReplid.toList,
      isWhitespace character = false)
    {middle registered final : ReplicatedPool hasher replicaHasher}
    {past later : List (ReplicationAction replicaHasher)}
    (before : Reaches (step config) Sustains (start server) past middle)
    {moment : Moment}
    (registers : Registers config middle channel moment registered)
    (after : Reaches (step config) Sustains registered later final)
    {state : ReplicaStream replicaHasher}
    (done : final.caughtUp channel = some state) :
    state.server.replState.replicaBytesProcessed =
        final.pool.server.replState.masterReplOffset ↔
      middle.pool.server.replState.masterReplOffset = 0 := by
  have inTouch := inTouch_of_reaches nonempty solid (inTouch_start nobody) before
  have inTouchNext := inTouch_step nonempty solid inTouch (by trivial)
    registers.2
  have inTouchLast := inTouch_of_reaches nonempty solid inTouchNext after
  have since := registeredAfter_of_reaches registers.registeredAfter after
  have offset : final.pool.server.replState.masterReplOffset =
      middle.pool.server.replState.masterReplOffset +
        UInt64.ofNat (final.pool.propagated.drop
          middle.pool.propagated.length).flatten.length := by
    obtain ⟨rest, split⟩ := since.1
    rw [inTouchLast.logged.counts.offset, inTouch.logged.counts.offset,
      ← split, List.drop_left, List.flatten_append, List.length_append,
      UInt64.ofNat_add, UInt64.add_assoc]
  rw [(inTouchLast.handled_eq since done).2, offset]
  exact UInt64.right_eq_add

theorem reaches_of_isPlain
    {actions : List (ReplicationAction replicaHasher)}
    (plain : actions.all ReplicationAction.isPlain = true)
    (ran : runActions (step config) system actions = some next) :
    Reaches (step config) Sustains system actions next := by
  refine reaches_of_always (fun action member state => ?_) ran
  have checked := List.all_eq_true.mp plain action member
  cases action with
  | master poolAction =>
      cases poolAction with
      | propagate rawResp => cases checked
      | _ => trivial
  | others channel server => cases checked
  | _ => trivial

section Runs

/-- A client of the master sets a key. -/
def writeActions : List (ReplicationAction fun _ => 0) :=
  let moment : Moment := ⟨fun _ => 0, .front⟩
  [.master (.accept 1),
    .master (.read 1 (asBytes "*3\r\n$3\r\nSET\r\n$1\r\nk\r\n$1\r\nv\r\n")),
    .master (.process 1 moment), .master (.process 1 moment)]

/-- A replica attaches, and its `PSYNC` is answered. -/
def attachActions : List (ReplicationAction fun _ => 0) :=
  let moment : Moment := ⟨fun _ => 0, .front⟩
  [.master (.accept 0), .attach 0 "localhost" 6379 (.withConfig _ 1 0),
    .deliver 0 HandshakeCommand.psync.bytes.length,
    .master (.process 0 moment), .master (.process 0 moment)]

/-- The replica reads what has been written to it and replays the stream. -/
def catchUpActions (count frames : Nat) :
    List (ReplicationAction fun _ => 0) :=
  [.receive 0 count, .advance 0, .advance 0, .advance 0] ++
    List.replicate (frames + 1) (.replay 0 ⟨fun _ => 0, .front⟩)

/-- A write after the registration is counted on both sides. -/
theorem offsets_agree_iff_laterWrite :
    ∃ middle registered final : ReplicatedPool (fun _ => 0) fun _ => 0,
      ∃ state, Reaches (step ⟨none, 1024⟩) Sustains
          (start ServerPool.emptyMaster) attachActions middle ∧
        Registers ⟨none, 1024⟩ middle 0 ⟨fun _ => 0, .front⟩ registered ∧
        Reaches (step ⟨none, 1024⟩) Sustains registered
          (.master (.process 0 ⟨fun _ => 0, .front⟩) :: (writeActions ++
            .master (.replicate 0) :: catchUpActions 176 1)) final ∧
        final.caughtUp 0 = some state ∧
        state.server.replState.replicaBytesProcessed =
          final.pool.server.replState.masterReplOffset := by
  have ran : ((runActions (step ⟨none, 1024⟩)
      (start ServerPool.emptyMaster : ReplicatedPool _ fun _ => 0)
      attachActions).bind fun middle =>
        if (middle.pool.clients 0).map (fun client =>
              (client.stage, client.registered)) =
            some (.transferred, none) ∧
            middle.pool.server.replState.masterReplOffset = 0 then
          (middle.step ⟨none, 1024⟩
            (.master (.process 0 ⟨fun _ => 0, .front⟩))).bind fun registered =>
              (runActions (step ⟨none, 1024⟩) registered
                (.master (.process 0 ⟨fun _ => 0, .front⟩) :: (writeActions ++
                  .master (.replicate 0) :: catchUpActions 176 1))).map
                fun final => (final.caughtUp 0).isSome
        else none) = some true := by
    decide +kernel
  obtain ⟨middle, first, rest⟩ := Option.bind_eq_some_iff.mp ran
  split at rest
  next checked =>
    obtain ⟨registered, taken, rest⟩ := Option.bind_eq_some_iff.mp rest
    obtain ⟨final, last, done⟩ := Option.map_eq_some_iff.mp rest
    obtain ⟨state, done⟩ := Option.isSome_iff_exists.mp done
    obtain ⟨client, found, fields⟩ := Option.map_eq_some_iff.mp checked.1
    simp only [Prod.mk.injEq] at fields
    have before := reaches_of_isPlain (by decide) first
    have after := reaches_of_isPlain (by decide) last
    have registers : Registers ⟨none, 1024⟩ middle 0 ⟨fun _ => 0, .front⟩
        registered :=
      ⟨⟨client, found, fields.1, fields.2⟩, taken⟩
    refine ⟨middle, registered, final, state, before, registers, after, done, ?_⟩
    exact (offsets_agree_iff rfl (by decide) (solid_of_all _ (by decide)) before
      registers after done).mpr checked.2
  next => cases rest

/-- A write before the registration is counted on the master only. -/
theorem earlier_write_uncounted :
    ∃ final : ReplicatedPool (fun _ => 0) fun _ => 0,
      ∃ state, Reaches (step ⟨none, 1024⟩) Sustains
          (start ServerPool.emptyMaster)
          (writeActions ++ attachActions ++
            [.master (.process 0 ⟨fun _ => 0, .front⟩)] ++
            catchUpActions 149 0) final ∧
        final.caughtUp 0 = some state ∧
        state.server.replState.replicaBytesProcessed = 0 ∧
        final.pool.server.replState.masterReplOffset = 27 := by
  have ran : (runActions (step ⟨none, 1024⟩)
      (start ServerPool.emptyMaster : ReplicatedPool _ fun _ => 0)
      (writeActions ++ attachActions ++
        [.master (.process 0 ⟨fun _ => 0, .front⟩)] ++
        catchUpActions 149 0)).map (fun final => ((final.caughtUp 0).map
          fun state => state.server.replState.replicaBytesProcessed,
        final.pool.server.replState.masterReplOffset)) =
        some (some 0, 27) := by
    decide +kernel
  obtain ⟨final, reached, shown⟩ := Option.map_eq_some_iff.mp ran
  simp only [Prod.mk.injEq] at shown
  obtain ⟨state, done, processed⟩ := Option.map_eq_some_iff.mp shown.1
  exact ⟨final, state, reaches_of_isPlain (by decide) reached, done, processed,
    shown.2⟩

end Runs

end ReplicatedPool

end RustiCache
