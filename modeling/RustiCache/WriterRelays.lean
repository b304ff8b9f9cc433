import RustiCache.StreamReplays

/-!
# The writers on a master as a relay

The writers on a master form a relay in the sense of `Relay`: the store of the
relay is the master's store, and its replica is what replaying the frames of one
registered channel yields.  Every step of the one is a step of the other.
-/

namespace RustiCache

namespace WriterSystem

variable {hasher replicaHasher : String → UInt64} (tx : ChannelId)
  (moments : Nat → Moment) (replica : ServerState replicaHasher)

/-- What has been sent on the channel. -/
def sent (system : WriterSystem hasher) : List Bytes :=
  (system.server.channels tx).getD []

/-- The replica once it has applied what has been sent. -/
def replayed (system : WriterSystem hasher) : ServerState replicaHasher :=
  Command.replayFrames moments replica (system.sent tx)

/-- The writers as a relay to the replica. -/
def relay (system : WriterSystem hasher) :
    Relay Nat String (Bytes × Option Instant) :=
  ⟨system.server.db.contents, (system.replayed tx moments replica).db.contents,
    Option.map Writer.progress ∘ system.writers⟩

def shown : WriterAction → RelayAction Nat String (Bytes × Option Instant)
  | .issue client rawCmd => .issue client ((Command.writesOf rawCmd).getD [])
  | .operate client _ => .write client
  | .propagate client => .relay client

/-- A master without memory bound that propagates to the channel, and writers
that are in the middle of their raw commands. -/
structure Relaying (system : WriterSystem hasher) : Prop where
  master : system.server.replState.isReplica = false
  registered : system.server.replState.downstreamSenders.count tx = 1
  alive : system.server.channels tx = some (system.sent tx)
  unbounded : system.server.db.maxMemoryBytes = 0
  replicaUnbounded : (system.replayed tx moments replica).db.maxMemoryBytes = 0
  coherent : ∀ {client writer}, system.writers client = some writer →
    Command.writesOf writer.rawCmd =
      some (writer.written ++ writer.stage.remaining)

variable {tx moments replica} {system next : WriterSystem hasher}

theorem coherent_update {writers : Nat → Option Writer} {client : Nat}
    {changed : Option Writer}
    (coherent : ∀ {client writer}, writers client = some writer →
      Command.writesOf writer.rawCmd =
        some (writer.written ++ writer.stage.remaining))
    (own : ∀ writer ∈ changed, Command.writesOf writer.rawCmd =
      some (writer.written ++ writer.stage.remaining)) {other : Nat}
    {writer : Writer}
    (busy : Function.update writers client changed other = some writer) :
    Command.writesOf writer.rawCmd =
      some (writer.written ++ writer.stage.remaining) := by
  by_cases same : other = client
  · rw [same, Function.update_self] at busy
    exact own writer busy
  · rw [Function.update_of_ne same] at busy
    exact coherent busy

/-- Propagation sends the raw command and changes nothing else that matters. -/
theorem propagate_relaying (relaying : system.Relaying tx moments replica)
    (rawCmd : Bytes) :
    let server := Command.propagate system.server (some rawCmd)
    server.db = system.server.db ∧ server.replState.isReplica = false ∧
      server.replState.downstreamSenders.count tx = 1 ∧
      server.channels tx = some (system.sent tx ++ [rawCmd]) := by
  obtain ⟨received, kept⟩ := ReplicationState.retainSending_alive rawCmd
    system.server.replState.downstreamSenders relaying.alive
  rw [relaying.registered] at received kept
  simp only [Command.propagate, relaying.master, Bool.false_eq_true, if_false]
  exact ⟨trivial, relaying.master, kept, received⟩

theorem issue_simulates (relaying : system.Relaying tx moments replica)
    {client : Nat} {rawCmd : Bytes}
    (taken : system.step (.issue client rawCmd) = some next) :
    next.Relaying tx moments replica ∧
      (system.relay tx moments replica).step (shown (.issue client rawCmd)) =
        some (next.relay tx moments replica) := by
  simp only [step] at taken
  split at taken
  next stage idle isWrite =>
    cases taken
    have raw : Command.writesOf rawCmd = some stage.remaining := by
      rw [Command.writesOf, isWrite]
      rfl
    have fresh : stage.counted = false := by
      obtain ⟨cmd, -, ofCommand⟩ := Option.bind_eq_some_iff.mp isWrite
      unfold WriteStage.ofCommand at ofCommand
      split at ofCommand <;> cases ofCommand <;> rfl
    constructor
    · refine { relaying with coherent := coherent_update relaying.coherent ?_ }
      rintro writer ⟨⟩
      exact raw
    · simp [shown, Relay.step, relay, idle, raw, Function.comp_update,
        Writer.progress, fresh, replayed, sent]
  next => cases taken

theorem operate_simulates (relaying : system.Relaying tx moments replica)
    {client : Nat} {moment : Moment}
    (taken : system.step (.operate client moment) = some next) :
    next.Relaying tx moments replica ∧
      (system.relay tx moments replica).step (shown (.operate client moment)) =
        some (next.relay tx moments replica) := by
  simp only [step] at taken
  split at taken
  next rawCmd key value written busy =>
    cases taken
    obtain ⟨contents, unbounded⟩ := Command.contents_set_unbounded
      relaying.unbounded moment key value
    have raw := relaying.coherent busy
    constructor
    · refine { relaying with
        unbounded := unbounded
        coherent := coherent_update relaying.coherent ?_ }
      rintro writer ⟨⟩
      simpa [WriteStage.remaining] using raw
    · simp [shown, Relay.step, relay, busy, Function.comp_update,
        Writer.progress, WriteStage.remaining, WriteStage.counted,
        KeyWrite.counts, contents, replayed, sent]
  next rawCmd key names count written busy =>
    cases taken
    have raw := relaying.coherent busy
    have contents := system.server.db.contents_del key
    have counted : (decide (0 < count) ||
        (system.server.db.contents key).isSome) =
        decide (0 < if (system.server.db.del key).1 then count + 1
          else count) := by
      rw [← system.server.db.del_answer key]
      cases (system.server.db.del key).1 <;> simp
    constructor
    · refine { relaying with
        unbounded := (system.server.db.maxMemoryBytes_call
          ⟨.del key, 0, .front⟩).trans relaying.unbounded
        coherent := coherent_update relaying.coherent ?_ }
      rintro writer ⟨⟩
      simpa [WriteStage.remaining] using raw
    · simp only [shown, Relay.step, relay, Function.comp_apply, busy,
        Option.map_some, Writer.progress, WriteStage.remaining, List.map_cons,
        WriteStage.counted, KeyWrite.counts, counted, contents,
        Function.comp_update]
      rfl
  next => cases taken

/-- The frames sent grow by one that has the writes of its command. -/
theorem relayed_frame (relaying : system.Relaying tx moments replica)
    {writers : Nat → Option Writer} {rawCmd : Bytes} {writes : List StoreWrite}
    (raw : Command.writesOf rawCmd = some writes)
    (coherent : ∀ {client writer}, writers client = some writer →
      Command.writesOf writer.rawCmd =
        some (writer.written ++ writer.stage.remaining)) :
    let next : WriterSystem hasher :=
      ⟨Command.propagate system.server (some rawCmd), writers⟩
    next.Relaying tx moments replica ∧
      (Command.propagate system.server (some rawCmd)).db = system.server.db ∧
      (next.replayed tx moments replica).db.contents =
        KeyWrite.applyAll (system.replayed tx moments replica).db.contents
          writes := by
  obtain ⟨sameDb, master, registered, alive⟩ :=
    propagate_relaying relaying rawCmd
  have grown : sent tx (⟨Command.propagate system.server (some rawCmd),
      writers⟩ : WriterSystem hasher) = system.sent tx ++ [rawCmd] := by
    rw [sent, alive]
    rfl
  obtain ⟨contents, unbounded⟩ := Command.replayFrame_writes raw
    relaying.replicaUnbounded (moments (system.sent tx).length)
  rw [replayed, ← Command.replayFrames_snoc, ← grown] at contents unbounded
  refine ⟨⟨master, registered, ?_, ?_, unbounded, coherent⟩, sameDb, contents⟩
  · rw [grown]
    exact alive
  · rw [sameDb]
    exact relaying.unbounded

theorem propagate_simulates (relaying : system.Relaying tx moments replica)
    {client : Nat} (taken : system.step (.propagate client) = some next) :
    next.Relaying tx moments replica ∧
      (system.relay tx moments replica).step (shown (.propagate client)) =
        some (next.relay tx moments replica) := by
  have released : ∀ {other : Nat} {writer : Writer},
      Function.update system.writers client none other = some writer →
      Command.writesOf writer.rawCmd =
        some (writer.written ++ writer.stage.remaining) :=
    coherent_update relaying.coherent (by simp)
  simp only [step] at taken
  split at taken
  next rawCmd written busy =>
    cases taken
    have raw := relaying.coherent busy
    simp only [WriteStage.remaining, List.append_nil] at raw
    obtain ⟨relayingNext, sameDb, contents⟩ :=
      relayed_frame relaying raw released
    refine ⟨relayingNext, ?_⟩
    simp only [shown, Relay.step, relay, Function.comp_apply, busy,
      Option.map_some, Writer.progress, WriteStage.remaining,
      WriteStage.counted, if_true, contents, sameDb, Function.comp_update,
      Option.map_none]
  next rawCmd count written busy =>
    cases taken
    have raw := relaying.coherent busy
    simp only [WriteStage.remaining, List.map_nil, List.append_nil] at raw
    by_cases counts : 0 < count
    · obtain ⟨relayingNext, sameDb, contents⟩ :=
        relayed_frame relaying raw released
      simp only [if_pos counts]
      refine ⟨relayingNext, ?_⟩
      simp only [shown, Relay.step, relay, Function.comp_apply, busy,
        Option.map_some, Writer.progress, WriteStage.remaining, List.map_nil,
        WriteStage.counted, decide_eq_true counts, if_true, contents, sameDb,
        Function.comp_update, Option.map_none]
    · simp only [if_neg counts]
      refine ⟨{ relaying with coherent := released }, ?_⟩
      simp only [shown, Relay.step, relay, Function.comp_apply, busy,
        Option.map_some, Writer.progress, WriteStage.remaining, List.map_nil,
        WriteStage.counted, decide_eq_false counts, Bool.false_eq_true,
        if_false, Function.comp_update, Option.map_none]
      rfl
  next => cases taken

/-- Every step of the writers is a step of the relay. -/
theorem step_simulates (relaying : system.Relaying tx moments replica)
    {action : WriterAction} (taken : system.step action = some next) :
    next.Relaying tx moments replica ∧
      (system.relay tx moments replica).step (shown action) =
        some (next.relay tx moments replica) := by
  cases action with
  | issue client rawCmd => exact issue_simulates relaying taken
  | operate client moment => exact operate_simulates relaying taken
  | propagate client => exact propagate_simulates relaying taken

theorem undisturbed_shown {action : WriterAction}
    (undisturbed : system.Undisturbed action) :
    (system.relay tx moments replica).Undisturbed (shown action) := by
  cases action with
  | issue client rawCmd => trivial
  | propagate client => trivial
  | operate client moment =>
      intro progress busy
      obtain ⟨writer, found, rfl⟩ := Option.map_eq_some_iff.mp busy
      exact undisturbed writer found

end WriterSystem

end RustiCache
