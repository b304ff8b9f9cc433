import RustiCache.MirroredReplicas

/-!
# What a full resynchronization transfers

The snapshot in the reply to `PSYNC` is that of an empty store, and the replica
discards it.  A replica ends up with the keys of its master exactly if, when it
was registered, the two agreed on every key that has not been written since.
-/

namespace RustiCache

open Command (frameWrites)

/-- The keys that frames of the log write. -/
def Command.keysWritten (raws : List Bytes) : List String :=
  (raws.flatMap frameWrites).map KeyWrite.key

namespace ReplicatedPool

open ServerPool (Relayed RegisteredAfter)

variable {hasher replicaHasher : String → UInt64} {config : PoolConfig}
  {server : ServerState hasher}
  {system next : ReplicatedPool hasher replicaHasher} {channel : ChannelId}
  {base : TimedMap String Bytes Instant} {log : List Bytes}
  {bases : TimedMap String Bytes Instant → Prop}

/-- The master's store is what the log makes of it, and the replica on a channel
mirrors what it has handled of the log. -/
structure Mirroring (server : ServerState hasher)
    (base : TimedMap String Bytes Instant) (log : List Bytes)
    (bases : TimedMap String Bytes Instant → Prop) (channel : ChannelId)
    (system : ReplicatedPool hasher replicaHasher) : Prop where
  inTouch : InTouch server system
  relayed : Relayed base log system.pool.server.db system.pool.propagated
  free : system.attachments channel = none → ∀ base, bases base
  mirroredAt : MirroredAt bases channel system

/-- What is attached stays attached. -/
theorem unattached_of_step {action : ReplicationAction replicaHasher}
    (unattached : next.attachments channel = none)
    (taken : system.step config action = some next) :
    system.attachments channel = none := by
  cases transition_of_step config taken with
  | master unread acted => exact unattached
  | attach => exact (ServerPool.of_update_eq_none unattached).2
  | deliver => exact (ServerPool.of_update_eq_none unattached).2
  | receive => exact (ServerPool.of_update_eq_none unattached).2
  | follow => exact (ServerPool.of_update_eq_none unattached).2

section Runs

variable (nonempty : server.replState.masterReplid ≠ "")
  (solid : ∀ character ∈ server.replState.masterReplid.toList,
    isWhitespace character = false)
  (master : server.replState.isReplica = false)

include nonempty solid master

theorem mirroring_step (mirroring : Mirroring server base log bases channel system)
    {action : ReplicationAction replicaHasher}
    (allowed : WithoutExpiry system action)
    (taken : system.step config action = some next) :
    Mirroring server base log bases channel next where
  inTouch := inTouch_step nonempty solid mirroring.inTouch
    (sustains_of_withoutExpiry allowed) taken
  relayed := by
    have role : system.pool.server.replState.isReplica = false := by
      rw [ReplicationState.isReplica, mirroring.inTouch.logged.counts.role]
      exact master
    rcases pool_of_step taken with same | ⟨poolAction, kind, acted⟩
    · rw [same]
      exact mirroring.relayed
    · refine ServerPool.relayed_step mirroring.relayed mirroring.inTouch.logged
        role ?_ acted
      rcases kind with rfl | ⟨reader, chunk, rfl⟩
      · exact allowed
      · trivial
  free unattached := mirroring.free (unattached_of_step unattached taken)
  mirroredAt := mirroredAt_step mirroring.inTouch mirroring.relayed.written
    mirroring.free mirroring.mirroredAt allowed taken

theorem mirroring_of_reaches
    (mirroring : Mirroring server base log bases channel system)
    {actions : List (ReplicationAction replicaHasher)}
    (reaches : Reaches (step config) WithoutExpiry system actions next) :
    Mirroring server base log bases channel next :=
  reaches.invariant (fun mirroring allowed taken =>
    mirroring_step nonempty solid master mirroring allowed taken) mirroring

end Runs

theorem mirroring_start (nobody : server.replState.downstreamSenders = [])
    (unbounded : server.db.maxMemoryBytes = 0)
    (lasting : server.db.contents.Lasting) :
    Mirroring server server.db.contents [] (fun _ => True) channel
      (start server : ReplicatedPool hasher replicaHasher) where
  inTouch := inTouch_start nobody
  relayed := ⟨List.prefix_rfl, rfl, unbounded, lasting, nofun⟩
  free _ _ := trivial
  mirroredAt _ _ found := by cases found

/-- A replica that has not been registered has handled nothing. -/
theorem InTouch.handled_nil (inTouch : InTouch server system) {client : Client}
    (found : system.pool.clients channel = some client)
    (stillOpen : client.connection.phase ≠ .closed)
    (unregistered : client.registered = none)
    {attachment : Attachment replicaHasher}
    (attached : system.attachments channel = some attachment) :
    attachment.follower.handled = [] := by
  obtain ⟨same, isFound, linked⟩ := inTouch.linked channel attachment attached
  rw [found] at isFound
  cases isFound
  obtain ⟨asked, unwritten, -, -, -, following⟩ := linked stillOpen
  have delivered := inTouch.delivering.clients channel client found
  rw [delivered.unregistered unregistered] at following
  cases streaming : attachment.follower with
  | syncing server task => rfl
  | streaming state =>
      rw [streaming] at following
      obtain ⟨remaining, split, -⟩ := following.inStep
      exact (List.append_eq_nil_iff.mp split.symm).1

/-- At the registration, the contents on both sides are a base for the rest of
the run. -/
theorem Mirroring.register {moment : Moment}
    (mirroring : Mirroring server base log bases channel system)
    (registers : Registers config system channel moment next)
    {attachment : Attachment replicaHasher}
    (attached : system.attachments channel = some attachment) :
    Mirroring server system.pool.server.db.contents system.pool.propagated
      (fun base => base = attachment.follower.server.db.contents) channel
      system where
  inTouch := mirroring.inTouch
  relayed := mirroring.relayed.rebase
  free unattached := by
    rw [attached] at unattached
    cases unattached
  mirroredAt client isAttached found stillOpen same := by
    obtain ⟨⟨registering, isFound, -, unregistered⟩, -⟩ := registers
    rw [found] at isFound
    cases isFound
    rw [attached] at same
    cases same
    obtain ⟨first, -, mirrored⟩ :=
      mirroring.mirroredAt client attachment found stillOpen attached
    have nothing := mirroring.inTouch.handled_nil found stillOpen unregistered
      attached
    refine ⟨_, rfl, ?_, mirrored.unbounded⟩
    rw [nothing]
    rfl

/-- A replica that has processed all that has been propagated to it stores what
its master stores exactly if the two agreed, when it was registered, on every key
that has not been written since. -/
theorem keyspaces_agree_iff
    (nobody : server.replState.downstreamSenders = [])
    (nonempty : server.replState.masterReplid ≠ "")
    (solid : ∀ character ∈ server.replState.masterReplid.toList,
      isWhitespace character = false)
    (master : server.replState.isReplica = false)
    (unbounded : server.db.maxMemoryBytes = 0)
    (lasting : server.db.contents.Lasting)
    {middle registered final : ReplicatedPool hasher replicaHasher}
    {past later : List (ReplicationAction replicaHasher)}
    (before : Reaches (step config) WithoutExpiry (start server) past middle)
    {attachment : Attachment replicaHasher}
    (attached : middle.attachments channel = some attachment)
    {moment : Moment}
    (registers : Registers config middle channel moment registered)
    (after : Reaches (step config) WithoutExpiry registered later final)
    {state : ReplicaStream replicaHasher}
    (done : final.caughtUp channel = some state) :
    state.server.db.contents = final.pool.server.db.contents ↔
      ∀ key, key ∉ Command.keysWritten
          (final.pool.propagated.drop middle.pool.propagated.length) →
        attachment.follower.server.db.contents key =
          middle.pool.server.db.contents key := by
  have early : Mirroring server server.db.contents [] (fun _ => True) channel
      middle :=
    mirroring_of_reaches nonempty solid master
      (mirroring_start nobody unbounded lasting) before
  have unexpiring : WithoutExpiry middle (.master (.process channel moment)) := by
    intro client rawCmd key value pxMs found stage
    obtain ⟨⟨registering, isFound, transferred, -⟩, -⟩ := registers
    rw [found] at isFound
    cases isFound
    rw [transferred] at stage
    cases stage
  have rebased := mirroring_step nonempty solid master
    (early.register registers attached) unexpiring registers.2
  have late := mirroring_of_reaches nonempty solid master rebased after
  have since := registeredAfter_of_reaches registers.registeredAfter after
  have handled := (late.inTouch.handled_eq since done).1
  obtain ⟨client, last, found, stillOpen, isLast, streaming, -⟩ :=
    caughtUp_cases done
  obtain ⟨_, rfl, mirrored⟩ :=
    late.mirroredAt client last found stillOpen isLast
  have contents := mirrored.contents
  rw [streaming] at contents
  simp only [Follower.handled, handled, List.flatMap_map, frameOf] at contents
  change state.server.db.contents = _ at contents
  rw [contents, late.relayed.contents]
  exact KeyWrite.applyAll_eq_iff

/-- The step sets no expiry and bounds no memory. -/
def isUnexpiring (system : ReplicatedPool hasher replicaHasher) :
    ReplicationAction replicaHasher → Bool
  | .master (.process channel _) =>
      (system.pool.clients channel).all fun client =>
        match client.stage with
        | .checked _ (.set _ _ (some _)) => false
        | _ => true
  | .master (.propagate _) => false
  | .attach _ _ _ db => db.maxMemoryBytes == 0
  | .others _ _ => false
  | _ => true

theorem withoutExpiry_of_check {action : ReplicationAction replicaHasher}
    (checked : isUnexpiring system action = true) :
    WithoutExpiry system action := by
  cases action with
  | master action =>
      cases action with
      | process channel moment =>
          intro client rawCmd key value pxMs found stage
          simp only [isUnexpiring, found, Option.all_some, stage] at checked
          cases pxMs with
          | none => rfl
          | some ms => cases checked
      | propagate rawResp => cases checked
      | _ => trivial
  | attach channel masterHost masterPort db => exact beq_iff_eq.mp checked
  | others channel server => cases checked
  | _ => trivial

theorem reaches_of_unexpiring
    {actions : List (ReplicationAction replicaHasher)}
    (ran : runActions (fun system action =>
        if isUnexpiring system action then step config system action else none)
      system actions = some next) :
    Reaches (step config) WithoutExpiry system actions next := by
  have sound {system : ReplicatedPool hasher replicaHasher}
      {action : ReplicationAction replicaHasher} (_ : True)
      (checked : isUnexpiring system action = true) :
      WithoutExpiry system action :=
    withoutExpiry_of_check checked
  exact reaches_of_checked sound (fun _ _ _ => trivial) trivial ran

/-- The checked steps of a run. -/
def checkedStep (system : ReplicatedPool (fun _ => 0) fun _ => 0)
    (action : ReplicationAction fun _ => 0) :
    Option (ReplicatedPool (fun _ => 0) fun _ => 0) :=
  if isUnexpiring system action then system.step ⟨none, 1024⟩ action else none

/-- A write after the registration reaches the replica. -/
theorem keyspaces_agree_iff_laterWrite :
    ∃ middle registered final : ReplicatedPool (fun _ => 0) fun _ => 0,
      ∃ attachment state, Reaches (step ⟨none, 1024⟩) WithoutExpiry
          (start ServerPool.emptyMaster) attachActions middle ∧
        middle.attachments 0 = some attachment ∧
        Registers ⟨none, 1024⟩ middle 0 ⟨fun _ => 0, .front⟩ registered ∧
        Reaches (step ⟨none, 1024⟩) WithoutExpiry registered
          (.master (.process 0 ⟨fun _ => 0, .front⟩) :: (writeActions ++
            .master (.replicate 0) :: catchUpActions 176 1)) final ∧
        final.caughtUp 0 = some state ∧
        state.server.db.contents "k" = some (asBytes "v", none) ∧
        (state.server.db.contents = final.pool.server.db.contents ↔
          ∀ key, key ∉ Command.keysWritten
              (final.pool.propagated.drop middle.pool.propagated.length) →
            attachment.follower.server.db.contents key =
              middle.pool.server.db.contents key) := by
  have ran : ((runActions checkedStep (start ServerPool.emptyMaster)
      attachActions).bind fun middle =>
        if (middle.pool.clients 0).map (fun client =>
              (client.stage, client.registered)) =
            some (.transferred, none) ∧ (middle.attachments 0).isSome then
          (middle.step ⟨none, 1024⟩
            (.master (.process 0 ⟨fun _ => 0, .front⟩))).bind fun registered =>
              (runActions checkedStep registered
                (.master (.process 0 ⟨fun _ => 0, .front⟩) :: (writeActions ++
                  .master (.replicate 0) :: catchUpActions 176 1))).map
                fun final => (final.caughtUp 0).map fun state =>
                  state.server.db.contents "k"
        else none) = some (some (some (asBytes "v", none))) := by
    decide +kernel
  obtain ⟨middle, first, rest⟩ := Option.bind_eq_some_iff.mp ran
  split at rest
  next checked =>
    obtain ⟨registered, taken, rest⟩ := Option.bind_eq_some_iff.mp rest
    obtain ⟨final, last, shown⟩ := Option.map_eq_some_iff.mp rest
    obtain ⟨state, done, stored⟩ := Option.map_eq_some_iff.mp shown
    obtain ⟨client, found, fields⟩ := Option.map_eq_some_iff.mp checked.1
    obtain ⟨attachment, attached⟩ := Option.isSome_iff_exists.mp checked.2
    simp only [Prod.mk.injEq] at fields
    have before := reaches_of_unexpiring first
    have after := reaches_of_unexpiring last
    have registers : Registers ⟨none, 1024⟩ middle 0 ⟨fun _ => 0, .front⟩
        registered :=
      ⟨⟨client, found, fields.1, fields.2⟩, taken⟩
    have lasting : ServerPool.emptyMaster.db.contents.Lasting := by
      rw [ServerPool.emptyMaster, Db.contents_withConfig]
      exact nofun
    refine ⟨middle, registered, final, attachment, state, before, attached,
      registers, after, done, stored, ?_⟩
    exact keyspaces_agree_iff rfl (by decide) (solid_of_all _ (by decide)) rfl
      rfl lasting before attached registers after done
  next => cases rest

/-- A write before the registration does not reach the replica. -/
theorem earlier_write_untransferred :
    ∃ final : ReplicatedPool (fun _ => 0) fun _ => 0,
      ∃ state, Reaches (step ⟨none, 1024⟩) WithoutExpiry
          (start ServerPool.emptyMaster)
          (writeActions ++ attachActions ++
            [.master (.process 0 ⟨fun _ => 0, .front⟩)] ++
            catchUpActions 149 0) final ∧
        final.caughtUp 0 = some state ∧
        state.server.db.contents "k" = none ∧
        final.pool.server.db.contents "k" = some (asBytes "v", none) := by
  have ran : (runActions checkedStep (start ServerPool.emptyMaster)
      (writeActions ++ attachActions ++
        [.master (.process 0 ⟨fun _ => 0, .front⟩)] ++
        catchUpActions 149 0)).map (fun final => decide (
          (final.caughtUp 0).map (fun state => state.server.db.contents "k") =
            some none ∧
          final.pool.server.db.contents "k" = some (asBytes "v", none))) =
        some true := by
    decide +kernel
  obtain ⟨final, reached, checked⟩ := Option.map_eq_some_iff.mp ran
  obtain ⟨shown, stored⟩ := of_decide_eq_true checked
  obtain ⟨state, done, missing⟩ := Option.map_eq_some_iff.mp shown
  exact ⟨final, state, reaches_of_unexpiring reached, done, missing, stored⟩

end ReplicatedPool

end RustiCache
