import RustiCache.ConnectionFraming
import RustiCache.ReadLoopRuns
import RustiCache.RecoveringLoops
import RustiCache.RespLocality

/-!
# The read loop of a connection

A connection follows a read loop that drops its buffer at a parse error.  It
ends with `QUIT` and at a reservation that the parser panics on.
-/

namespace RustiCache

open ReadLoop (Reader Moves Completes)

namespace ConnectionPhase

def ofReader : ConnectionPhase → ReadLoop.Phase
  | waiting => .waiting
  | draining => .draining
  | closed => .ended

@[simp]
theorem ofReader_eq_waiting {phase : ConnectionPhase} :
    phase.ofReader = .waiting ↔ phase = .waiting := by
  cases phase <;> simp [ofReader]

@[simp]
theorem ofReader_eq_draining {phase : ConnectionPhase} :
    phase.ofReader = .draining ↔ phase = .draining := by
  cases phase <;> simp [ofReader]

@[simp]
theorem ofReader_eq_ended {phase : ConnectionPhase} :
    phase.ofReader = .ended ↔ phase = .closed := by
  cases phase <;> simp [ofReader]

end ConnectionPhase

namespace Connection

variable {hasher : String → UInt64} (config : ConnectionConfig)

def readLoop : ReadLoop UInt8 Value Value.Fault where
  decoder := Value.decoder
  fatal fault := fault = .panic
  keep _ := []
  ends value := Command.fromValue value = .ok .quit

theorem readLoop_local : readLoop.Local :=
  fun found => Value.attempt_take found

theorem readLoop_keep (buffer : Bytes) : readLoop.keep buffer <:+ buffer :=
  List.nil_suffix

theorem fatal_parseError (reason : RespParseError) :
    readLoop.fatal (.parseError reason) = false := by
  simp [readLoop]

theorem fatal_panic : readLoop.fatal .panic = true := by
  simp [readLoop]

/-- The connection as a reader. -/
def reader (connection : Connection) : Reader UInt8 Value :=
  ⟨connection.buffer, connection.handled, connection.phase.ofReader⟩

/-- A round of the drain loop is a round of the reader. -/
theorem reader_drain (moment : Moment) (server : ServerState hasher)
    {connection : Connection} (draining : connection.phase = .draining) :
    (drain config moment server connection).connection.reader =
      readLoop.round connection.reader := by
  rw [drain]
  split
  next empty =>
    have more : readLoop.decoder.attempt connection.buffer = .incomplete := by
      rw [empty]
      exact Value.decoder.attempt_nil
    exact (ReadLoop.round_incomplete _ _ more).symm
  next nonempty =>
    split
    next value consumed found =>
      obtain ⟨buffer, handled, phase⟩ := dispatch_connection config moment
        server
        { connection with
          buffer := connection.buffer.drop consumed
          handled := connection.handled ++
            [(connection.buffer.take consumed, value)] }
        (connection.buffer.take consumed) value
      by_cases quits : Command.fromValue value = .ok .quit
      · refine Eq.trans ?_ (ReadLoop.round_last _ _ found
          (decide_eq_true quits)).symm
        rw [dispatch, quits]
        rfl
      · refine Eq.trans ?_ (ReadLoop.round_next _ _ found
          (decide_eq_false quits)).symm
        rw [reader, buffer, handled, phase quits, draining]
        rfl
    next more => exact (ReadLoop.round_incomplete _ _ more).symm
    next reason malformed =>
      exact (ReadLoop.round_survived _ _ malformed (fatal_parseError reason)).symm
    next malformed =>
      exact (ReadLoop.round_fatal _ _ malformed fatal_panic).symm

/-- A waiting connection has no whole frame in its buffer. -/
def Settled (connection : Connection) : Prop :=
  connection.phase = .waiting →
    Value.attempt connection.buffer = .incomplete

theorem settled_drain (moment : Moment) (server : ServerState hasher)
    {connection : Connection} (draining : connection.phase = .draining) :
    (drain config moment server connection).connection.Settled := by
  rw [drain]
  split
  next empty =>
    intro _
    rw [empty]
    exact Value.decoder.attempt_nil
  next nonempty =>
    split
    next value consumed found =>
      intro waiting
      by_cases quits : Command.fromValue value = .ok .quit
      · simp [dispatch, quits] at waiting
      · obtain ⟨-, -, phase⟩ := dispatch_connection config moment server
          { connection with
            buffer := connection.buffer.drop consumed
            handled := connection.handled ++
              [(connection.buffer.take consumed, value)] }
          (connection.buffer.take consumed) value
        rw [phase quits] at waiting
        rw [draining] at waiting
        cases waiting
    next more => exact fun _ => more
    next reason malformed => exact fun _ => Value.decoder.attempt_nil
    next malformed => rintro ⟨⟩

end Connection

namespace Session

variable {hasher : String → UInt64} {config : ConnectionConfig}

theorem settled_step {session next : Session hasher}
    {event : SessionEvent hasher} (settled : session.connection.Settled)
    (taken : session.step config event = some next) :
    next.connection.Settled := by
  rcases transition_of_step taken with
    server | - | - | - | ⟨chunk, -⟩ | ⟨moment, draining⟩
  · exact settled
  · rintro ⟨⟩
  · rintro ⟨⟩
  · rintro ⟨⟩
  · rw [Connection.receive]
    split
    · rintro ⟨⟩
    · dsimp only
      split
      · rintro ⟨⟩
      · rintro ⟨⟩
  · exact Connection.settled_drain config moment session.server draining

theorem moves_of_step {session next : Session hasher}
    {event : SessionEvent hasher} (settled : session.connection.Settled)
    (delivers : event.Delivers) (taken : session.step config event = some next)
    (fits : (session.connection.buffer ++ event.chunk?.getD []).length ≤
      config.maxPayloadSize) :
    Moves Connection.readLoop session.connection.reader event.chunk?
      next.connection.reader := by
  rcases transition_of_step taken with
    server | - | - | ⟨waiting, -, -⟩ | ⟨chunk, waiting⟩ | ⟨moment, draining⟩
  · exact .still _
  · exact delivers.elim
  · exact delivers.elim
  · exact .wake (ConnectionPhase.ofReader_eq_waiting.mpr waiting) (settled waiting)
  · have received := Connection.receive_fitting config session.server delivers
      fits
    rw [received]
    exact .read (ConnectionPhase.ofReader_eq_waiting.mpr waiting) chunk
  · rw [Connection.reader_drain config moment session.server draining]
    exact .round (ConnectionPhase.ofReader_eq_draining.mpr draining)

/-- The session has received the chunks: it waits after the last of them, or it
has been closed on the way. -/
def Receives (config : ConnectionConfig) (server : ServerState hasher)
    (chunks : List Bytes) (session : Session hasher) : Prop :=
  ∃ events,
    Reaches (step config) (fun _ event => event.Delivers) (start config server)
        events session ∧
      (session.connection.phase = .waiting ∧
          SessionEvent.reads events = chunks ∨
        session.connection.phase = .closed ∧
          SessionEvent.reads events <+: chunks)

theorem done_iff {session : Session hasher} {read chunks : List Bytes} :
    ReadLoop.Done session.connection.reader.phase read chunks ↔
      session.connection.phase = .waiting ∧ read = chunks ∨
        session.connection.phase = .closed ∧ read <+: chunks := by
  simp [ReadLoop.Done, Connection.reader]

/-- What a session has handled is what the loop handles. -/
theorem Receives.handles {server : ServerState hasher} {chunks : List Bytes}
    {session : Session hasher}
    (receives : Receives config server chunks session)
    (small : chunks.flatten.length ≤ config.maxPayloadSize) :
    Connection.readLoop.Handles [] chunks session.connection.handled := by
  obtain ⟨events, reaches, complete⟩ := receives
  have settled : (start config server).connection.Settled :=
    fun _ => Value.decoder.attempt_nil
  have strong := reaches.strengthen
    (fun settled _ taken => settled_step settled taken) settled
  have moves : ∀ {session next : Session hasher} {event : SessionEvent hasher},
      session.connection.Settled ∧ event.Delivers →
      session.step config event = some next →
      (session.connection.buffer ++ event.chunk?.getD []).length ≤
        config.maxPayloadSize →
      Moves Connection.readLoop session.connection.reader event.chunk?
        next.connection.reader :=
    fun meets taken fits => moves_of_step meets.1 meets.2 taken fits
  have begins : (start config server).connection.buffer.length +
      chunks.flatten.length ≤ config.maxPayloadSize := by
    rwa [start, Connection.new, List.length_nil, Nat.zero_add]
  have ahead := ReadLoop.handles_of_done
    (fun session : Session hasher => session.connection.reader)
    SessionEvent.chunk? Connection.readLoop_keep moves strong
    (done_iff.mpr complete) rfl begins
  exact (ReadLoop.handles_iff_of_incomplete Value.decoder.attempt_nil
    []).mpr ahead

theorem round_possible {session : Session hasher}
    (drains : session.connection.reader.phase = .draining) :
    ∃ event next, event.Delivers ∧ session.step config event = some next ∧
      event.chunk? = none ∧ next.connection.reader =
        Connection.readLoop.round session.connection.reader := by
  have draining := ConnectionPhase.ofReader_eq_draining.mp drains
  exact ⟨.process ⟨fun _ => 0, .front⟩, _, trivial,
    by rw [step, if_pos draining], rfl,
    Connection.reader_drain config _ session.server draining⟩

theorem read_possible {session : Session hasher} {chunk : Bytes}
    (waits : session.connection.reader.phase = .waiting)
    (nonempty : chunk ≠ [])
    (fits : session.connection.reader.buffer.length + chunk.length ≤
      config.maxPayloadSize) :
    ∃ event next, event.Delivers ∧ session.step config event = some next ∧
      event.chunk? = some chunk ∧ next.connection.reader =
        session.connection.reader.receive chunk := by
  have waiting := ConnectionPhase.ofReader_eq_waiting.mp waits
  rw [← List.length_append] at fits
  refine ⟨.read chunk, _, nonempty, by rw [step, if_pos waiting], rfl, ?_⟩
  rw [Connection.receive_fitting config session.server nonempty fits]
  rfl

/-- For all that the loop handles there is a session that handles it. -/
theorem exists_receives (server : ServerState hasher) {chunks : List Bytes}
    {frames : List (Bytes × Value)}
    (handles : Connection.readLoop.Handles [] chunks frames)
    (nonempty : ∀ chunk ∈ chunks, chunk ≠ [])
    (small : chunks.flatten.length ≤ config.maxPayloadSize) :
    ∃ session, Receives config server chunks session ∧
      session.connection.handled = frames := by
  have begins : Connection.readLoop.Ahead
      (start config server).connection.reader chunks frames :=
    (ReadLoop.handles_iff_of_incomplete Value.decoder.attempt_nil []).mp handles
  have fits : (start config server).connection.buffer.length +
      chunks.flatten.length ≤ config.maxPayloadSize := by
    rwa [start, Connection.new, List.length_nil, Nat.zero_add]
  obtain ⟨events, session, reaches, complete, handled⟩ :=
    ReadLoop.completes_of_ahead
      (fun session : Session hasher => session.connection.reader)
      SessionEvent.chunk? round_possible read_possible
      Connection.readLoop_keep begins nonempty fits
  exact ⟨session, ⟨events, reaches, done_iff.mp complete⟩, handled⟩

end Session

end RustiCache
