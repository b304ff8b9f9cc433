import RustiCache.ReadLoopRuns
import RustiCache.RecoveringLoops
import RustiCache.ReplicaReplay
import RustiCache.RespLocality

/-!
# The read loop of a replica

The task of a replica follows a read loop that drops one byte at a parse error
and waits for the next chunk.  It ends at a reservation that the parser panics
on.
-/

namespace RustiCache

open ReadLoop (Reader Moves Completes)

namespace StreamPhase

def ofReader : StreamPhase → ReadLoop.Phase
  | draining => .draining
  | reading => .waiting
  | stopped => .ended

@[simp]
theorem ofReader_eq_waiting {phase : StreamPhase} :
    phase.ofReader = .waiting ↔ phase = .reading := by
  cases phase <;> simp [ofReader]

@[simp]
theorem ofReader_eq_draining {phase : StreamPhase} :
    phase.ofReader = .draining ↔ phase = .draining := by
  cases phase <;> simp [ofReader]

@[simp]
theorem ofReader_eq_ended {phase : StreamPhase} :
    phase.ofReader = .ended ↔ phase = .stopped := by
  cases phase <;> simp [ofReader]

end StreamPhase

/-- The event is not the end of the stream from outside. -/
def StreamEvent.Delivers {hasher : String → UInt64} : StreamEvent hasher → Prop
  | read chunk => chunk ≠ []
  | fail => False
  | _ => True

namespace ReplicaStream

variable {hasher : String → UInt64}

def readLoop : ReadLoop UInt8 Value Value.Fault where
  decoder := Value.decoder
  fatal fault := fault = .panic
  keep buffer := buffer.drop 1
  ends _ := false

theorem readLoop_local : readLoop.Local :=
  fun found => Value.attempt_take found

theorem readLoop_keep (buffer : Bytes) : readLoop.keep buffer <:+ buffer :=
  List.drop_suffix 1 buffer

theorem fatal_parseError (reason : RespParseError) :
    readLoop.fatal (.parseError reason) = false := by
  simp [readLoop]

theorem fatal_panic : readLoop.fatal .panic = true := by
  simp [readLoop]

/-- The task of the replica as a reader. -/
def reader (state : ReplicaStream hasher) : Reader UInt8 Value :=
  ⟨state.buffer, state.handled, state.phase.ofReader⟩

theorem reader_drain (moment : Moment) {state : ReplicaStream hasher}
    (draining : state.phase = .draining) :
    (state.drain moment).reader = readLoop.round state.reader := by
  rw [drain]
  split
  next empty =>
    have more : readLoop.decoder.attempt state.buffer = .incomplete := by
      rw [empty]
      exact Value.decoder.attempt_nil
    exact (ReadLoop.round_incomplete _ _ more).symm
  next nonempty =>
    split
    next value consumed found =>
      refine Eq.trans ?_ (ReadLoop.round_next _ _ found rfl).symm
      rw [absorb_eq, reader, draining]
      rfl
    next more => exact (ReadLoop.round_incomplete _ _ more).symm
    next reason malformed =>
      exact (ReadLoop.round_survived _ _ malformed
        (fatal_parseError reason)).symm
    next malformed =>
      exact (ReadLoop.round_fatal _ _ malformed fatal_panic).symm

theorem moves_of_step {state next : ReplicaStream hasher}
    {event : StreamEvent hasher} (delivers : event.Delivers)
    (taken : state.step event = some next) :
    Moves readLoop state.reader event.chunk? next.reader := by
  cases transition_of_step taken with
  | process moment draining =>
      rw [reader_drain moment draining]
      exact .round (StreamPhase.ofReader_eq_draining.mpr draining)
  | read chunk reading =>
      rw [receive, if_neg delivers]
      exact .read (StreamPhase.ofReader_eq_waiting.mpr reading) chunk
  | fail => exact delivers.elim
  | others server => exact .still _

/-- The commands executed are those of the frames handled. -/
def Tracked (state : ReplicaStream hasher) : Prop :=
  state.executed = ReadLoop.commands Command.executable state.handled

theorem Tracked.drain {state : ReplicaStream hasher} (tracked : state.Tracked)
    (moment : Moment) : (state.drain moment).Tracked := by
  rw [ReplicaStream.drain]
  split
  next => exact tracked
  next =>
    split
    next value consumed found =>
      rw [absorb_eq, Tracked, ReadLoop.commands_append,
        ReadLoop.commands_singleton, ← tracked]
    next => exact tracked
    next => exact tracked
    next => exact tracked

theorem tracked_step {state next : ReplicaStream hasher}
    {event : StreamEvent hasher} (tracked : state.Tracked)
    (taken : state.step event = some next) : next.Tracked := by
  cases transition_of_step taken with
  | process moment => exact tracked.drain moment
  | read chunk =>
      rw [receive]
      split
      · exact tracked
      · exact tracked
  | fail => exact tracked
  | others server => exact tracked

/-- The replica has received the chunks after what the handshake has left: it
reads after the last of them, or it has stopped on the way. -/
def Receives (server : ServerState hasher) (leftover : Bytes)
    (chunks : List Bytes) (state : ReplicaStream hasher) : Prop :=
  ∃ events,
    Reaches step (fun _ event => event.Delivers) (start server leftover) events
        state ∧
      (state.phase = .reading ∧ StreamEvent.reads events = chunks ∨
        state.phase = .stopped ∧ StreamEvent.reads events <+: chunks)

theorem done_iff {state : ReplicaStream hasher} {read chunks : List Bytes} :
    ReadLoop.Done state.reader.phase read chunks ↔
      state.phase = .reading ∧ read = chunks ∨
        state.phase = .stopped ∧ read <+: chunks := by
  simp [ReadLoop.Done, reader]

theorem Receives.handles {server : ServerState hasher} {leftover : Bytes}
    {chunks : List Bytes} {state : ReplicaStream hasher}
    (receives : Receives server leftover chunks state) :
    readLoop.Handles leftover chunks state.handled ∧
      state.executed = ReadLoop.commands Command.executable state.handled := by
  obtain ⟨events, reaches, complete⟩ := receives
  constructor
  · exact ReadLoop.handles_of_done reader StreamEvent.chunk? readLoop_keep
      (fun delivers taken _ => moves_of_step delivers taken) reaches
      (done_iff.mpr complete) rfl (Nat.le_refl _)
  · exact reaches.invariant (fun tracked _ taken => tracked_step tracked taken)
      rfl

theorem round_possible {state : ReplicaStream hasher}
    (drains : state.reader.phase = .draining) :
    ∃ event next, event.Delivers ∧ state.step event = some next ∧
      event.chunk? = none ∧ next.reader = readLoop.round state.reader := by
  have draining := StreamPhase.ofReader_eq_draining.mp drains
  exact ⟨.process ⟨fun _ => 0, .front⟩, _, trivial,
    by rw [step, if_pos draining], rfl, reader_drain _ draining⟩

theorem read_possible {state : ReplicaStream hasher} {chunk : Bytes}
    (waits : state.reader.phase = .waiting) (nonempty : chunk ≠ []) :
    ∃ event next, event.Delivers ∧ state.step event = some next ∧
      event.chunk? = some chunk ∧ next.reader = state.reader.receive chunk := by
  have reading := StreamPhase.ofReader_eq_waiting.mp waits
  refine ⟨.read chunk, _, nonempty, by rw [step, if_pos reading], rfl, ?_⟩
  rw [receive, if_neg nonempty]
  rfl

theorem exists_receives (server : ServerState hasher) {leftover : Bytes}
    {chunks : List Bytes} {frames : List (Bytes × Value)}
    (handles : readLoop.Handles leftover chunks frames)
    (nonempty : ∀ chunk ∈ chunks, chunk ≠ []) :
    ∃ state, Receives server leftover chunks state ∧ state.handled = frames := by
  have begins : readLoop.Ahead (start server leftover).reader chunks frames :=
    handles
  obtain ⟨events, state, reaches, complete, handled⟩ :=
    ReadLoop.completes_of_ahead reader StreamEvent.chunk? round_possible
      (fun waits nonempty _ => read_possible waits nonempty) readLoop_keep begins
      nonempty (Nat.le_refl _)
  exact ⟨state, ⟨events, reaches, done_iff.mp complete⟩, handled⟩

end ReplicaStream

end RustiCache
