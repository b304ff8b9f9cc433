import RustiCache.AuthenticationNoninterference

/-!
# `PSYNC` without the password

The connection serves `PSYNC` before the password is checked.  Delivering frames
one by one reaches the first `PSYNC` that no earlier frame cuts off, so the
absence of such a frame is exactly what noninterference needs.
-/

namespace RustiCache

open FrameDecoder (stream)

namespace Session

variable {hasher : String → UInt64} {config : ConnectionConfig}
  {pass : String} {frames : List (Bytes × Value)}

/-- Between frames: waiting, with nothing buffered. -/
structure Idle (session : Session hasher) : Prop where
  waiting : session.connection.phase = .waiting
  empty : session.connection.buffer = []

/-- A frame that arrives in one chunk is dispatched by the next round of the
drain loop. -/
theorem step_frame {session : Session hasher} (idle : session.Idle)
    {frame : Bytes × Value} (accepted : Value.decoder.Accepts frame.1 frame.2)
    (fits : frame.1.length ≤ config.maxPayloadSize) (moment : Moment) :
    ∃ received, session.step config (.read frame.1) = some received ∧
      received.server = session.server ∧
      received.step config (.process moment) =
        some (Connection.dispatch config moment session.server
          { session.connection with
            phase := .draining
            handled := session.connection.handled ++ [frame] }
          frame.1 frame.2) := by
  have nonempty : frame.1 ≠ [] := accepted.ne_nil
  have small : ¬ config.maxPayloadSize < frame.1.length := Nat.not_lt.mpr fits
  refine ⟨⟨session.server,
    { session.connection with buffer := frame.1, phase := .draining }⟩,
    ?_, rfl, ?_⟩
  · simp [step, idle.waiting, Connection.receive, nonempty, idle.empty, small]
  · change Value.attempt frame.1 = _ at accepted
    simp [step, Connection.drain, nonempty, accepted, idle.empty]

/-- After a frame other than `QUIT` the connection is idle again. -/
theorem run_frame {session : Session hasher} (idle : session.Idle)
    {frame : Bytes × Value} (accepted : Value.decoder.Accepts frame.1 frame.2)
    (fits : frame.1.length ≤ config.maxPayloadSize)
    (noQuit : ¬ Command.IsQuit frame.2) (moment : Moment) :
    ∃ next, runActions (step config) session
        [.read frame.1, .process moment, .process moment] = some next ∧
      next.Idle := by
  obtain ⟨received, read, -, processed⟩ :=
    step_frame idle accepted fits moment
  obtain ⟨buffer, -, phase⟩ := Connection.dispatch_connection config moment
    session.server
    { session.connection with
      phase := .draining
      handled := session.connection.handled ++ [frame] } frame.1 frame.2
  generalize Connection.dispatch config moment session.server _ frame.1
    frame.2 = dispatched at processed buffer phase
  have drained : dispatched.step config (.process moment) =
      some ⟨dispatched.server,
        { dispatched.connection with phase := .waiting }⟩ := by
    simp [step, phase noQuit, Connection.drain, buffer, idle.empty]
  refine ⟨⟨dispatched.server,
    { dispatched.connection with phase := .waiting }⟩, ?_, rfl,
    buffer.trans idle.empty⟩
  rw [runActions, read, Option.bind_some, runActions, processed,
    Option.bind_some, runActions, drained]
  rfl

/-- Frames that do not end the connection can be delivered one by one. -/
theorem run_frames {before : List (Bytes × Value)}
    (accepted : ∀ frame ∈ before, Value.decoder.Accepts frame.1 frame.2)
    (harmless : ∀ frame ∈ before, ¬ Command.IsQuit frame.2 ∧
      frame.1.length ≤ config.maxPayloadSize)
    {session : Session hasher} (idle : session.Idle) (moment : Moment) :
    ∃ events next, runActions (step config) session events = some next ∧
      (SessionEvent.reads events).flatten = stream before ∧ next.Idle := by
  induction before generalizing session with
  | nil => exact ⟨[], session, rfl, rfl, idle⟩
  | cons frame before ih =>
      obtain ⟨noQuit, fits⟩ := harmless frame (by simp)
      obtain ⟨middle, ranFirst, idleMiddle⟩ :=
        run_frame idle (accepted frame (by simp)) fits noQuit moment
      obtain ⟨events, next, ranRest, reads, idleNext⟩ := ih
        (fun other member => accepted other (List.mem_cons_of_mem _ member))
        (fun other member => harmless other (List.mem_cons_of_mem _ member))
        idleMiddle
      refine ⟨[.read frame.1, .process moment, .process moment] ++ events, next,
        ?_, ?_, idleNext⟩
      · rw [runActions_append, ranFirst]
        exact ranRest
      · rw [← Prod.mk.eta (p := frame), FrameDecoder.stream_cons, ← reads]
        rfl

theorem dispatch_psync {value : Value} (psync : Command.IsPsync value)
    (moment : Moment) (server : ServerState hasher) (connection : Connection)
    (rawCmd : Bytes) :
    (Connection.dispatch config moment server connection rawCmd
      value).server.replState =
      server.replState.registerDownstream config.channel := by
  obtain ⟨replId, offset, found⟩ := psync
  simp [Connection.dispatch, found]

/-- A `PSYNC` that is reached registers the client as a replica. -/
theorem not_noninterfering_of_psyncReached
    (accepted : ∀ frame ∈ frames, Value.decoder.Accepts frame.1 frame.2)
    (reached : PsyncReached config frames) :
    ¬ Noninterfering config frames := by
  intro noninterfering
  obtain ⟨before, frame, after, rfl, psync, harmless, fits⟩ := reached
  have moment : Moment := ⟨fun _ => 0, .front⟩
  have idle : (start config emptyServer).Idle := ⟨rfl, rfl⟩
  obtain ⟨events, session, ran, reads, idleSession⟩ := run_frames
    (fun other member => accepted other (List.mem_append_left _ member))
    harmless idle moment
  obtain ⟨received, read, same, processed⟩ := step_frame idleSession
    (accepted frame (by simp)) fits moment
  have ranBoth : runActions (step config) (start config emptyServer)
      (events ++ [.read frame.1]) = some received := by
    rw [runActions_append, ran, Option.bind_some, runActions, read]
    rfl
  have delivered : (SessionEvent.reads
      (events ++ [.read frame.1] ++ [.process moment])).flatten ++
        stream after = stream (before ++ frame :: after) := by
    rw [reads_snoc, reads_snoc, reads, FrameDecoder.stream_append,
      ← Prod.mk.eta (p := frame), FrameDecoder.stream_cons]
    simp [SessionEvent.chunk?]
  have agrees := (noninterfering.unchanged ranBoth processed delivered
    (by simp [SessionEvent.own?])).replState
  rw [dispatch_psync psync, same] at agrees
  have lengths := congrArg
    (fun state => state.downstreamSenders.length) agrees
  simp [ReplicationState.registerDownstream] at lengths

/-- For clients that never give the password, noninterference is exactly that no
`PSYNC` is reached. -/
theorem noninterfering_iff (guarded : config.requirepass = some pass)
    (accepted : ∀ frame ∈ frames, Value.decoder.Accepts frame.1 frame.2)
    (withheld : ∀ frame ∈ frames, ¬ Command.GivesPassword pass frame.2) :
    Noninterfering config frames ↔ ¬ PsyncReached config frames := by
  constructor
  · intro noninterfering reached
    exact not_noninterfering_of_psyncReached accepted reached noninterfering
  · exact noninterfering_of_unreached guarded accepted withheld

/-- A client that tries to read and write, gives a wrong password and quits. -/
def strangerFrames : List (Bytes × Value) :=
  [["GET", "k"], ["AUTH", "guess"], ["SET", "k", "v"], ["QUIT"]].map
    Value.wordsFrame

theorem strangerFrames_commands :
    strangerFrames.map (fun frame => Command.fromValue frame.2) =
      [.ok (.get "k"), .ok (.auth none "guess"),
        .ok (.set "k" (asBytes "v") none), .ok .quit] := by
  decide

theorem strangerFrames_withheld :
    ∀ frame ∈ strangerFrames, ¬ Command.GivesPassword "secret" frame.2 := by
  rintro frame member ⟨username, gives⟩
  have listed := List.mem_map_of_mem
    (f := fun frame => Command.fromValue frame.2) member
  rw [strangerFrames_commands, gives] at listed
  simp at listed

theorem strangerFrames_unreached (config : ConnectionConfig) :
    ¬ PsyncReached config strangerFrames := by
  rintro ⟨before, frame, after, split, ⟨replId, offset, psync⟩, -⟩
  have listed : Command.fromValue frame.2 ∈
      strangerFrames.map (fun frame => Command.fromValue frame.2) := by
    rw [split]
    simp
  rw [strangerFrames_commands, psync] at listed
  simp at listed

theorem noninterfering_iff_strangerFrames :
    Noninterfering ⟨some "secret", 1024, 0⟩ strangerFrames :=
  (noninterfering_iff rfl (by decide) strangerFrames_withheld).mpr
    (strangerFrames_unreached _)

/-- The session after one frame on a master with the given replication id. -/
def afterFrame (frame : Bytes × Value) (replid : String) :
    Option (Session (fun _ => 0)) :=
  runActions (step ⟨some "secret", 1024, 0⟩)
    (start ⟨some "secret", 1024, 0⟩
      ⟨.withConfig _ 1 0, .newMaster (some replid), fun _ => some [], none⟩)
    [.read frame.1, .process ⟨fun _ => 0, .front⟩]

theorem psync_without_password :
    let frame := Value.wordsFrame ["PSYNC", "?", "-1"]
    Value.decoder.Accepts frame.1 frame.2 ∧
      ¬ Command.GivesPassword "secret" frame.2 ∧
      (afterFrame frame "first").map (fun session =>
        (session.connection.isAuthenticated,
          session.server.replState.downstreamSenders,
          session.server.replState.connectedReplicas)) =
        some (false, [0], 1) ∧
      (afterFrame frame "first").map (·.connection.sent) ≠
        (afterFrame frame "second").map (·.connection.sent) ∧
      ¬ Noninterfering ⟨some "secret", 1024, 0⟩ [frame] := by
  have accepted : Value.decoder.Accepts
      (Value.wordsFrame ["PSYNC", "?", "-1"]).1
      (Value.wordsFrame ["PSYNC", "?", "-1"]).2 := by
    decide
  have psync : Command.fromValue (Value.wordsFrame ["PSYNC", "?", "-1"]).2 =
      .ok (.psync "?" "-1") := by
    decide
  refine ⟨accepted, ?_, by decide +kernel, by decide +kernel, ?_⟩
  · rintro ⟨username, gives⟩
    rw [psync] at gives
    cases gives
  · apply not_noninterfering_of_psyncReached
    · simpa using accepted
    · exact ⟨[], _, [], rfl, ⟨_, _, psync⟩, by simp, by decide⟩

end Session

end RustiCache
