import RustiCache.ActionRuns
import RustiCache.ClientConnection

/-!
# Framing on a connection

The bytes of a connection are those of the frames handled so far, followed by
the buffer.  The invariant is kept by every event, so the frames are handled
one by one whatever the chunks they arrive in, and other tasks or replicated
bytes make no difference.
-/

namespace RustiCache

open FrameDecoder (stream InStep)

namespace SessionEvent

variable {hasher : String → UInt64}

/-- The chunk that an event delivers. -/
def chunk? : SessionEvent hasher → Option Bytes
  | read chunk => some chunk
  | _ => none

/-- The event is not the end of the connection from outside. -/
def Delivers : SessionEvent hasher → Prop
  | shutdown => False
  | disconnect => False
  | read chunk => chunk ≠ []
  | _ => True

/-- The chunks delivered by a sequence of events. -/
def reads (events : List (SessionEvent hasher)) : List Bytes :=
  events.filterMap chunk?

end SessionEvent

namespace Connection

variable {hasher : String → UInt64} (config : ConnectionConfig)

/-- Handling a frame leaves the buffer and the log alone, and closes the
connection only for `QUIT`. -/
theorem dispatch_connection (moment : Moment) (server : ServerState hasher)
    (connection : Connection) (rawCmd : Bytes) (value : Value) :
    (dispatch config moment server connection rawCmd value).connection.buffer =
        connection.buffer ∧
      (dispatch config moment server connection rawCmd
        value).connection.handled = connection.handled ∧
      (Command.fromValue value ≠ .ok .quit →
        (dispatch config moment server connection rawCmd
          value).connection.phase = connection.phase) := by
  rw [dispatch]
  split
  next => exact ⟨rfl, rfl, fun _ => rfl⟩
  next quits => exact ⟨rfl, rfl, fun other => absurd quits other⟩
  next =>
    rw [serve]
    split
    next => exact ⟨rfl, rfl, fun _ => rfl⟩
    next => exact ⟨rfl, rfl, fun _ => rfl⟩
  next => exact ⟨rfl, rfl, fun _ => rfl⟩

theorem dispatch_ordinary {value : Value} {cmd : Command}
    (decoded : Command.fromValue value = .ok cmd)
    (notPsync : ∀ replId offset, cmd ≠ .psync replId offset)
    (notQuit : cmd ≠ .quit) (moment : Moment) (server : ServerState hasher)
    (connection : Connection) (rawCmd : Bytes) :
    dispatch config moment server connection rawCmd value =
      serve config moment server connection rawCmd cmd := by
  rw [dispatch, decoded]
  cases cmd with
  | psync replId offset => exact absurd rfl (notPsync replId offset)
  | quit => exact absurd rfl notQuit
  | _ => rfl

/-- A round of the drain loop handles the next frame or waits for the rest of
it. -/
theorem drain_cases (moment : Moment) (server : ServerState hasher)
    {connection : Connection} {frames : List (Bytes × Value)} {unread : Bytes}
    (accepted : ∀ frame ∈ frames, Value.decoder.Accepts frame.1 frame.2)
    (inStep : InStep frames connection.handled connection.buffer unread) :
    (∃ frame value others tail,
        frames = connection.handled ++ (frame, value) :: others ∧
        connection.buffer = frame ++ tail ∧
        InStep frames (connection.handled ++ [(frame, value)]) tail unread ∧
        drain config moment server connection =
          dispatch config moment server
            { connection with
              buffer := tail
              handled := connection.handled ++ [(frame, value)] }
            frame value) ∨
      (Value.attempt connection.buffer = .incomplete ∧
        drain config moment server connection =
          ⟨server, { connection with phase := .waiting }⟩) := by
  rcases inStep.next accepted with
    ⟨frame, value, others, tail, first, front, nonempty, found, rest⟩ |
      ⟨more, -⟩
  · left
    refine ⟨frame, value, others, tail, first, front, rest, ?_⟩
    change Value.attempt connection.buffer = _ at found
    rw [drain, if_neg nonempty, found]
    simp only [front, List.take_left, List.drop_left]
  · right
    refine ⟨more, ?_⟩
    change Value.attempt connection.buffer = _ at more
    rw [drain, more]
    split <;> rfl

/-- Bytes that fit into the payload bound are collected and drained. -/
theorem receive_fitting (server : ServerState hasher) {connection : Connection}
    {chunk : Bytes} (nonempty : chunk ≠ [])
    (fits : (connection.buffer ++ chunk).length ≤ config.maxPayloadSize) :
    receive config server connection chunk =
      ⟨server,
        { connection with
          buffer := connection.buffer ++ chunk
          phase := .draining }⟩ := by
  rw [receive, if_neg nonempty]
  simp only [if_neg (Nat.not_lt.mpr fits)]

/-- The connection handles the frames one by one: while it is open, no byte is
lost, and when it waits there is no complete frame in its buffer. -/
structure Framed (frames : List (Bytes × Value)) (unread : Bytes)
    (connection : Connection) : Prop where
  handled : connection.handled <+: frames
  inStep : connection.phase ≠ .closed →
    InStep frames connection.handled connection.buffer unread
  settled : connection.phase = .waiting →
    Value.attempt connection.buffer = .incomplete

theorem framed_new (frames : List (Bytes × Value)) :
    Framed frames (stream frames) (new config) where
  handled := List.nil_prefix
  inStep _ := InStep.init rfl
  settled _ := Value.decoder.attempt_nil

theorem Framed.drain {frames : List (Bytes × Value)} {unread : Bytes}
    {connection : Connection}
    (accepted : ∀ frame ∈ frames, Value.decoder.Accepts frame.1 frame.2)
    (framed : Framed frames unread connection)
    (draining : connection.phase = .draining) (moment : Moment)
    (server : ServerState hasher) :
    Framed frames unread
      (connection.drain config moment server).connection := by
  have inStep := framed.inStep (by rw [draining]; nofun)
  rcases drain_cases config moment server accepted inStep with
    ⟨frame, value, others, tail, first, -, rest, drained⟩ | ⟨more, drained⟩
  · obtain ⟨buffer, handled, phase⟩ := dispatch_connection config
      moment server
      { connection with
        buffer := tail
        handled := connection.handled ++ [(frame, value)] } frame value
    rw [drained]
    refine ⟨?_, fun _ => ?_, fun waits => ?_⟩
    · rw [handled]
      exact ⟨others, by rw [first, List.append_assoc]; rfl⟩
    · rw [buffer, handled]
      exact rest
    · by_cases quits : Command.fromValue value = .ok .quit
      · simp [dispatch, quits] at waits
      · rw [phase quits] at waits
        rw [draining] at waits
        cases waits
  · rw [drained]
    exact ⟨framed.handled, fun _ => inStep, fun _ => more⟩

theorem Framed.close {frames : List (Bytes × Value)} {before after : Bytes}
    {connection : Connection} (framed : Framed frames before connection)
    (server : ServerState hasher) :
    Framed frames after (connection.close config server).connection :=
  ⟨framed.handled, fun stillOpen => absurd rfl stillOpen, nofun⟩

theorem Framed.receive {frames : List (Bytes × Value)} {chunk unread : Bytes}
    {connection : Connection}
    (framed : Framed frames (chunk ++ unread) connection)
    (waiting : connection.phase = .waiting) (server : ServerState hasher) :
    Framed frames unread
      (connection.receive config server chunk).connection := by
  have inStep := framed.inStep (by rw [waiting]; nofun)
  rw [Connection.receive]
  split
  next => exact framed.close config server
  next =>
    dsimp only
    split
    next =>
      exact ⟨framed.handled, fun stillOpen => absurd rfl stillOpen, nofun⟩
    next => exact ⟨framed.handled, fun _ => inStep.receive, nofun⟩

end Connection

namespace Session

variable {hasher : String → UInt64} (config : ConnectionConfig)

/-- Every event keeps the frames and the bytes in step. -/
theorem framed_step {frames : List (Bytes × Value)}
    (accepted : ∀ frame ∈ frames, Value.decoder.Accepts frame.1 frame.2)
    {session next : Session hasher} {event : SessionEvent hasher}
    {unread : Bytes}
    (framed : Connection.Framed frames (event.chunk?.getD [] ++ unread)
      session.connection)
    (taken : session.step config event = some next) :
    Connection.Framed frames unread next.connection := by
  rcases transition_of_step taken with
    server | stillOpen | waiting | ⟨waiting, -, -⟩ | ⟨chunk, waiting⟩ |
      ⟨moment, draining⟩
  · exact framed
  · exact framed.close config session.server
  · exact framed.close config session.server
  · exact ⟨framed.handled,
      fun _ => framed.inStep (by rw [waiting]; nofun), nofun⟩
  · exact framed.receive config waiting session.server
  · exact framed.drain config accepted draining moment session.server

theorem reads_snoc (events : List (SessionEvent hasher))
    (event : SessionEvent hasher) :
    (SessionEvent.reads (events ++ [event])).flatten =
      (SessionEvent.reads events).flatten ++ event.chunk?.getD [] := by
  rw [SessionEvent.reads, List.filterMap_append, List.flatten_append,
    ← SessionEvent.reads]
  cases found : event.chunk? with
  | none => simp [found]
  | some chunk => simp [found]

/-- In every state that is reached the frames and the bytes are in step. -/
theorem framed_of_reaches {frames : List (Bytes × Value)}
    (accepted : ∀ frame ∈ frames, Value.decoder.Accepts frame.1 frame.2)
    {allowed : Session hasher → SessionEvent hasher → Prop}
    {server : ServerState hasher} {events : List (SessionEvent hasher)}
    {session : Session hasher}
    (reaches : Reaches (step config) allowed (start config server) events
      session)
    {unread : Bytes}
    (delivered : (SessionEvent.reads events).flatten ++ unread =
      stream frames) :
    Connection.Framed frames unread session.connection := by
  generalize begins : start config server = first at reaches
  induction reaches generalizing unread with
  | refl =>
      subst begins
      change [] ++ unread = stream frames at delivered
      rw [List.nil_append] at delivered
      rw [delivered]
      exact Connection.framed_new config frames
  | snoc before _ taken ih =>
      rw [reads_snoc, List.append_assoc] at delivered
      exact framed_step config accepted (ih delivered) taken

end Session

end RustiCache
