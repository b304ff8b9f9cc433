import RustiCache.ReplicaReplay

/-!
# Exact replay and exact offsets

The whole of the replication stream is replayed, and every acknowledgement
carries the offset at which its request ends.
-/

namespace RustiCache

open FrameDecoder (stream InStep)

/-- The stream executes all commands but `REPLCONF`. -/
theorem Command.executable_eq_some_iff {value : Value} {cmd : Command} :
    executable value = some cmd ↔
      fromValue value = .ok cmd ∧ ∀ args, cmd ≠ .replConf args := by
  rw [executable]
  split
  next args decoded =>
    constructor
    · rintro ⟨⟩
    · rintro ⟨same, ordinary⟩
      cases decoded.symm.trans same
      exact absurd rfl (ordinary args)
  next other notReplConf decoded =>
    constructor
    · rintro ⟨⟩
      exact ⟨decoded, notReplConf⟩
    · rintro ⟨same, -⟩
      cases decoded.symm.trans same
      rfl
  next reason decoded =>
    constructor
    · rintro ⟨⟩
    · rintro ⟨same, -⟩
      cases decoded.symm.trans same

namespace ReplicaStream

variable {hasher : String → UInt64} {frames : List (Bytes × Value)}

/-- Reading with nothing more to come means that all frames are handled. -/
theorem Replayed.finished {state : ReplicaStream hasher}
    (accepted : ∀ frame ∈ frames, Value.decoder.Accepts frame.1 frame.2)
    (replayed : Replayed frames [] state) (reading : state.phase = .reading) :
    state.buffer = [] ∧ state.handled = frames := by
  rcases replayed.inStep.next accepted with
    ⟨frame, value, others, tail, -, -, -, found, -⟩ | ⟨-, last⟩
  · change Value.attempt state.buffer = _ at found
    rw [replayed.settled reading] at found
    cases found
  · exact last rfl

/-- The published count and the buffer account for the bytes received. -/
theorem Replayed.accounted {state : ReplicaStream hasher}
    {received unread : Bytes} (bounded : (stream frames).length < 2 ^ 64)
    (replayed : Replayed frames unread state)
    (delivered : received ++ unread = stream frames) :
    state.server.replState.replicaBytesProcessed.toNat + state.buffer.length =
      received.length := by
  have lengths := replayed.inStep.length_eq
  have whole := congrArg List.length delivered
  rw [List.length_append] at whole
  have small : (stream state.handled).length < 2 ^ 64 := by omega
  rw [replayed.published, replayed.counted, UInt64.toNat_ofNat_of_lt' small]
  omega

/-- What a round of the loop makes of the replica when it cuts a frame off the
buffer.  A command other than `REPLCONF` is executed, without bytes to propagate,
and the store changes by that; other frames leave the store alone.  All frames are
counted, and the server changes in nothing else. -/
structure Replays (moment : Moment) (state : ReplicaStream hasher)
    (frame : Bytes × Value) (tail : Bytes) (next : ReplicaStream hasher) :
    Prop where
  buffer : next.buffer = tail
  handled : next.handled = state.handled ++ [frame]
  phase : next.phase = state.phase
  counted : next.totalBytesProcessed =
    state.totalBytesProcessed + UInt64.ofNat frame.1.length
  replies : next.replies = state.replies ++
    if Command.requestsAck frame.2 then [ackReply next.totalBytesProcessed]
    else []
  server : next.server = { state.server with
    db := next.server.db
    replState := { state.server.replState with
      replicaBytesProcessed := next.totalBytesProcessed } }
  executes : ∀ cmd, Command.fromValue frame.2 = .ok cmd →
    (∀ args, cmd ≠ .replConf args) →
    next.server.db = (cmd.execute moment { state.server with cluster := none }
        none none true).server.db ∧
      next.executed = state.executed ++ [cmd]
  skips : (∀ cmd, Command.fromValue frame.2 = .ok cmd →
      ∃ args, cmd = .replConf args) →
    next.server.db = state.server.db ∧ next.executed = state.executed

theorem replays_absorb (moment : Moment) (state : ReplicaStream hasher)
    (frame : Bytes × Value) (tail : Bytes) :
    Replays moment state frame tail ({ state with
      buffer := tail
      handled := state.handled ++ [frame] }.absorb moment frame.1.length
        frame.2) := by
  rw [absorb_eq]
  constructor
  case buffer | handled | phase | counted | replies => rfl
  case server =>
    cases executable : Command.executable frame.2 with
    | none => simp only [Command.replay, executable]
    | some cmd =>
        have channels := Command.apply_channels moment state.server cmd
        simp only [Command.replay, executable, channels]
        rfl
  case executes =>
    intro cmd decoded ordinary
    have executable :=
      Command.executable_eq_some_iff.mpr ⟨decoded, ordinary⟩
    simp only [Command.replay, executable]
    exact ⟨rfl, rfl⟩
  case skips =>
    intro silent
    have none : Command.executable frame.2 = none := by
      rw [Option.eq_none_iff_forall_ne_some]
      intro cmd executable
      obtain ⟨decoded, ordinary⟩ :=
        Command.executable_eq_some_iff.mp executable
      obtain ⟨args, same⟩ := silent cmd decoded
      exact ordinary args same
    constructor
    · simp only [Command.replay, none]
    · simp only [none, Option.toList_none, List.append_nil]

/-- A round of the loop replays exactly the next of the remaining frames, or goes
back to reading if the buffer holds no whole frame. -/
def Absorbs (remaining : List (Bytes × Value)) (state : ReplicaStream hasher) :
    Prop :=
  ∀ moment,
    (∃ frame others tail next, remaining = frame :: others ∧
        state.buffer = frame.1 ++ tail ∧
        state.step (.process moment) = some next ∧
        Replays moment state frame tail next) ∨
      Value.attempt state.buffer = .incomplete ∧
        state.step (.process moment) = some { state with phase := .reading }

theorem absorbs_of_inStep {state : ReplicaStream hasher}
    {remaining : List (Bytes × Value)} {unread : Bytes}
    (accepted : ∀ frame ∈ state.handled ++ remaining,
      Value.decoder.Accepts frame.1 frame.2)
    (inStep : InStep (state.handled ++ remaining) state.handled state.buffer
      unread)
    (draining : state.phase = .draining) : Absorbs remaining state := by
  intro moment
  have taken : state.step (.process moment) = some (state.drain moment) := by
    simp [step, draining]
  rw [taken]
  rcases drain_cases accepted inStep moment with
    ⟨frame, value, others, tail, first, front, -, drained⟩ | ⟨more, drained⟩
  · left
    refine ⟨(frame, value), others, tail, _, List.append_cancel_left first,
      front, rfl, ?_⟩
    rw [drained]
    exact replays_absorb moment state (frame, value) tail
  · right
    rw [drained]
    exact ⟨more, rfl⟩

/-- Nothing is propagated: the channels and all of the replication state but the
published count stay as they are. -/
structure Quiet (before after : ServerState hasher) : Prop where
  channels : after.channels = before.channels
  replState : after.replState = { before.replState with
    replicaBytesProcessed := after.replState.replicaBytesProcessed }

theorem quiet_absorb (moment : Moment) (state : ReplicaStream hasher)
    (consumed : Nat) (value : Value) :
    Quiet state.server (state.absorb moment consumed value).server := by
  rw [absorb_eq]
  refine ⟨?_, rfl⟩
  simp only [Command.replay]
  split
  · exact Command.apply_channels moment state.server _
  · rfl

theorem quiet_process {state next : ReplicaStream hasher} {moment : Moment}
    (taken : state.step (.process moment) = some next) :
    Quiet state.server next.server := by
  cases transition_of_step taken
  rw [drain]
  split
  next => exact ⟨rfl, rfl⟩
  next =>
    split
    next value consumed _ =>
      exact quiet_absorb moment
        { state with
          buffer := state.buffer.drop consumed
          handled := state.handled ++
            [(state.buffer.take consumed, value)] } consumed value
    next => exact ⟨rfl, rfl⟩
    next => exact ⟨rfl, rfl⟩
    next => exact ⟨rfl, rfl⟩

section Delivery

variable
  (accepted : ∀ frame ∈ frames, Value.decoder.Accepts frame.1 frame.2)
  (bounded : (stream frames).length < 2 ^ 64)

include accepted bounded in
/-- The loop over the buffer ends, whatever the clock and the tables do. -/
theorem drain_ends {state : ReplicaStream hasher} {unread : Bytes}
    (replayed : Replayed frames unread state) (moments : List Moment)
    (enough : state.buffer.length < moments.length) :
    ∃ count last, runActions step state
        ((moments.take count).map StreamEvent.process) = some last ∧
      Replayed frames unread last ∧ last.phase = .reading := by
  have progress : ∀ {state : ReplicaStream hasher}
      {event : StreamEvent hasher}, Replayed frames unread state →
      ¬ state.phase = .reading → (∃ moment, event = .process moment) →
      ∃ next, state.step event = some next ∧ Replayed frames unread next ∧
        (next.phase = .reading ∨ next.buffer.length < state.buffer.length) := by
    rintro state event replayed notReading ⟨moment, rfl⟩
    have draining : state.phase = .draining := by
      have running := replayed.running
      cases found : state.phase with
      | draining => rfl
      | reading => exact absurd found notReading
      | stopped => exact absurd found running
    refine ⟨state.drain moment, by simp [step, draining],
      replayed.drain accepted bounded draining moment, ?_⟩
    rcases drain_cases accepted replayed.inStep moment with
      ⟨frame, value, others, tail, first, front, -, drained⟩ | ⟨-, drained⟩
    · right
      have positive : 0 < frame.length := List.length_pos_iff.mpr
        (accepted (frame, value) (by rw [first]; simp)).ne_nil
      rw [drained, absorb_eq, front, List.length_append]
      exact Nat.lt_add_of_pos_left positive
    · left
      rw [drained]
  have rounds : ∀ event ∈ moments.map (fun moment =>
      (.process moment : StreamEvent hasher)),
      ∃ moment, event = .process moment := by
    intro event member
    obtain ⟨moment, -, rfl⟩ := List.mem_map.mp member
    exact ⟨moment, rfl⟩
  obtain ⟨count, last, ran, outcome⟩ := runActions_ends
    (fun state : ReplicaStream hasher => state.buffer.length) progress replayed
    rounds (by rw [List.length_map]; exact enough)
  exact ⟨count, last, by rw [List.map_take]; exact ran, outcome⟩

/-- Reading the chunks that carry the rest of the frames. -/
structure Ready (frames : List (Bytes × Value)) (chunks : List Bytes)
    (state : ReplicaStream hasher) : Prop where
  nonempty : ∀ chunk ∈ chunks, chunk ≠ []
  reading : state.phase = .reading
  replayed : Replayed frames chunks.flatten state

include accepted bounded in
/-- The loop can be run to its end. -/
theorem drain_ready {state : ReplicaStream hasher} {chunks : List Bytes}
    (nonempty : ∀ chunk ∈ chunks, chunk ≠ [])
    (replayed : Replayed frames chunks.flatten state) :
    ∃ moments : List Moment, ∃ last,
      runActions step state (moments.map StreamEvent.process) = some last ∧
        Ready frames chunks last := by
  obtain ⟨count, last, ran, replayedLast, reading⟩ := drain_ends accepted
    bounded replayed
    (List.replicate (state.buffer.length + 1) ⟨fun _ => 0, .front⟩)
    (by rw [List.length_replicate]; exact Nat.lt_succ_self _)
  exact ⟨_, last, ran, nonempty, reading, replayedLast⟩

include accepted bounded in
/-- Every chunking can be delivered to the end. -/
theorem deliver_chunks {chunks : List Bytes} {state : ReplicaStream hasher}
    (ready : Ready frames chunks state) :
    ∃ events last, runActions step state events = some last ∧
      (∀ event ∈ events, ∀ state, event.Sustains state) ∧
      StreamEvent.reads events = chunks ∧ Ready frames [] last := by
  apply runActions_deliver StreamEvent.chunk? _ ready
  intro chunk chunks state ready
  have full : chunk ≠ [] := ready.nonempty chunk (by simp)
  have taken : state.step (.read chunk) = some (state.receive chunk) := by
    simp [step, ready.reading]
  obtain ⟨moments, last, ran, readyLast⟩ := drain_ready accepted bounded
    (fun other member => ready.nonempty other (List.mem_cons_of_mem _ member))
    (ready.replayed.receive full)
  have none : StreamEvent.reads (moments.map fun moment =>
      (.process moment : StreamEvent hasher)) = [] :=
    StreamEvent.reads_process moments
  refine ⟨.read chunk :: moments.map .process, last, ?_, ?_, ?_, readyLast⟩
  · rw [runActions, taken]
    exact ran
  · intro event member state
    rcases List.mem_cons.mp member with rfl | processed
    · exact full
    · obtain ⟨_, -, rfl⟩ := List.mem_map.mp processed
      trivial
  · simp only [StreamEvent.reads, List.filterMap_cons,
      StreamEvent.chunk?] at none ⊢
    rw [none]

end Delivery

/-- However the frames of the stream are cut into chunks, the replica executes
exactly their commands on its store, in order and without propagating them,
accounts for every byte it has received, and acknowledges exact offsets. -/
theorem replays_exactly (server : ServerState hasher) (leftover : Bytes)
    (accepted : ∀ frame ∈ frames, Value.decoder.Accepts frame.1 frame.2)
    (bounded : (stream frames).length < 2 ^ 64)
    (fresh : server.replState.replicaBytesProcessed = 0) :
    (∀ {events state unread},
      Reaches step (fun state event => event.Sustains state)
          (start server leftover) events state →
        leftover ++ (StreamEvent.reads events).flatten ++ unread =
          stream frames →
        state.phase ≠ .stopped ∧
          (∃ remaining, frames = state.handled ++ remaining ∧
            state.buffer ++ unread = stream remaining ∧
            (state.phase = .draining → Absorbs remaining state) ∧
            (state.phase = .reading → unread = [] →
              remaining = [] ∧ state.buffer = [])) ∧
          state.executed = state.handled.filterMap
            (fun frame => Command.executable frame.2) ∧
          state.replies = acks 0 state.handled ∧
          state.server.replState.replicaBytesProcessed.toNat +
              state.buffer.length =
            (leftover ++ (StreamEvent.reads events).flatten).length ∧
          (∀ moment next, state.step (.process moment) = some next →
            Quiet state.server next.server) ∧
          ∀ moments : List Moment, state.buffer.length < moments.length →
            ∃ count last, runActions step state
                ((moments.take count).map .process) = some last ∧
              last.phase = .reading) ∧
      (∀ chunks : List Bytes, (∀ chunk ∈ chunks, chunk ≠ []) →
        leftover ++ chunks.flatten = stream frames →
        ∃ events state,
          Reaches step (fun state event => event.Sustains state)
              (start server leftover) events state ∧
            StreamEvent.reads events = chunks ∧ state.phase = .reading ∧
            state.handled = frames ∧ state.buffer = []) ∧
      ∀ offset < 2 ^ 64, Value.decoder.Accepts
        (ackValue offset).serialize (ackValue offset) := by
  refine ⟨?_, ?_, fun offset fits => accepts_ackValue fits⟩
  · intro events state unread reaches delivered
    have replayed :=
      replayed_of_reaches accepted bounded fresh reaches delivered
    obtain ⟨remaining, split, pending⟩ := replayed.inStep
    refine ⟨replayed.running, ⟨remaining, split, pending, ?_, ?_⟩,
      replayed.executed, replayed.acknowledged,
      replayed.accounted bounded delivered,
      fun moment next taken => quiet_process taken, ?_⟩
    · intro draining
      have inStep := replayed.inStep
      rw [split] at accepted inStep
      exact absorbs_of_inStep accepted inStep draining
    · intro reading exhausted
      subst exhausted
      obtain ⟨empty, allHandled⟩ := replayed.finished accepted reading
      rw [allHandled] at split
      exact ⟨List.self_eq_append_right.mp split, empty⟩
    · intro moments enough
      obtain ⟨count, last, ran, -, reading⟩ :=
        drain_ends accepted bounded replayed moments enough
      exact ⟨count, last, ran, reading⟩
  · intro chunks nonempty cut
    obtain ⟨moments, first, ranFirst, ready⟩ := drain_ready accepted bounded
      nonempty (replayed_start fresh cut)
    obtain ⟨events, state, ran, sustains, reads, readyLast⟩ :=
      deliver_chunks accepted bounded ready
    obtain ⟨empty, allHandled⟩ :=
      readyLast.replayed.finished accepted readyLast.reading
    refine ⟨moments.map .process ++ events, state, ?_, ?_, readyLast.reading,
      allHandled, empty⟩
    · apply reaches_of_always
      · intro event member state
        rcases List.mem_append.mp member with early | late
        · obtain ⟨_, -, rfl⟩ := List.mem_map.mp early
          trivial
        · exact sustains event late state
      · rw [runActions_append, ranFirst]
        exact ran
    · have none : StreamEvent.reads (moments.map fun moment =>
          (.process moment : StreamEvent hasher)) = [] :=
        StreamEvent.reads_process moments
      rw [StreamEvent.reads] at none reads ⊢
      rw [List.filterMap_append, none, reads]
      rfl

/-- A write, a request for an acknowledgement and an unknown command. -/
def setGetAckFrames : List (Bytes × Value) :=
  [["SET", "k", "v"], ["REPLCONF", "getack", "*"], ["NOSUCH"]].map
    Value.wordsFrame

theorem replays_exactly_setGetAck :
    let server : ServerState (fun _ => 0) :=
      ⟨.withConfig _ 4 0, .newReplica "localhost" 6379, fun _ => none, none⟩
    let bytes := stream setGetAckFrames
    ∃ events state,
      Reaches step (fun state event => event.Sustains state)
          (start server (bytes.take 5)) events state ∧
        StreamEvent.reads events = [(bytes.drop 5).take 40, bytes.drop 45] ∧
        state.executed = [.set "k" (asBytes "v") none] ∧
        state.replies = [(ackValue 64).serialize] ∧
        state.server.replState.replicaBytesProcessed.toNat = 80 := by
  have accepted : ∀ frame ∈ setGetAckFrames,
      Value.decoder.Accepts frame.1 frame.2 := by
    decide
  have exact_ := replays_exactly
    (⟨.withConfig _ 4 0, .newReplica "localhost" 6379, fun _ => none, none⟩ :
      ServerState (fun _ => 0))
    ((stream setGetAckFrames).take 5) accepted (by decide) rfl
  obtain ⟨events, state, reaches, reads, -, handled, empty⟩ := exact_.2.1
    [((stream setGetAckFrames).drop 5).take 40,
      (stream setGetAckFrames).drop 45] (by decide) (by decide)
  have whole : (stream setGetAckFrames).take 5 ++
      (StreamEvent.reads events).flatten ++ [] = stream setGetAckFrames := by
    rw [reads]
    decide
  obtain ⟨-, -, executed, replies, accounted, -⟩ := exact_.1 reaches whole
  rw [handled] at executed replies
  rw [List.append_nil] at whole
  rw [empty, whole] at accounted
  exact ⟨events, state, reaches, reads, executed.trans (by decide),
    replies.trans (by decide), accounted.trans (by decide)⟩

end ReplicaStream

end RustiCache
