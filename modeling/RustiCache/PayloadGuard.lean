import Mathlib.Data.List.Induction
import Mathlib.Data.List.Infix
import RustiCache.ConnectionStreams
import RustiCache.FrameArrivals

/-!
# The guard against large payloads

After every read the connection compares the length of its whole buffer with the
limit, before it takes complete frames out.  So no frame above the limit is ever
handled, but a client whose frames are all small is cut off as soon as several of
them arrive in one read.
-/

namespace RustiCache

open FrameDecoder (stream InStep arrived unfinished)

namespace Connection

variable {hasher : String → UInt64} (config : ConnectionConfig)

/-- The buffer of an open connection is within the limit, and so are the frames
it has handled, of which none was `QUIT`. -/
structure Guarded (connection : Connection) : Prop where
  handled : ∀ frame ∈ connection.handled,
    frame.1.length ≤ config.maxPayloadSize
  buffer : connection.phase ≠ .closed →
    connection.buffer.length ≤ config.maxPayloadSize
  noQuit : connection.phase ≠ .closed →
    ∀ frame ∈ connection.handled, Command.fromValue frame.2 ≠ .ok .quit

theorem guarded_new : Guarded config (new config) where
  handled := nofun
  buffer _ := Nat.zero_le _
  noQuit _ := nofun

/-- A closed connection has nothing left to guard but what it has handled. -/
theorem Guarded.closed {connection after : Connection}
    (guarded : Guarded config connection) (closed : after.phase = .closed)
    (same : after.handled = connection.handled) : Guarded config after where
  handled := by
    rw [same]
    exact guarded.handled
  buffer stillOpen := absurd closed stillOpen
  noQuit stillOpen := absurd closed stillOpen

theorem dispatch_quit (moment : Moment) (server : ServerState hasher)
    (connection : Connection) (rawCmd : Bytes) {value : Value}
    (quits : Command.fromValue value = .ok .quit) :
    (dispatch config moment server connection rawCmd value).connection.phase =
      .closed := by
  rw [dispatch, quits]

theorem Guarded.drain {connection : Connection}
    (guarded : Guarded config connection)
    (draining : connection.phase = .draining) (moment : Moment)
    (server : ServerState hasher) :
    Guarded config (connection.drain config moment server).connection := by
  have stillOpen : connection.phase ≠ .closed := by
    rw [draining]
    nofun
  have fits := guarded.buffer stillOpen
  rw [Connection.drain]
  split
  next =>
    exact ⟨guarded.handled, fun _ => fits, fun _ => guarded.noQuit stillOpen⟩
  next =>
    split
    next value consumed found =>
      obtain ⟨buffer, handled, phase⟩ := dispatch_connection config moment server
        { connection with
          buffer := connection.buffer.drop consumed
          handled := connection.handled ++
            [(connection.buffer.take consumed, value)] }
        (connection.buffer.take consumed) value
      refine ⟨?_, fun _ => ?_, fun openAfter => ?_⟩
      · rw [handled, List.forall_mem_append, List.forall_mem_singleton]
        exact ⟨guarded.handled, Nat.le_trans (List.length_take_le' ..) fits⟩
      · rw [buffer]
        simp only [List.length_drop]
        omega
      · rw [handled, List.forall_mem_append, List.forall_mem_singleton]
        refine ⟨guarded.noQuit stillOpen, fun quits => ?_⟩
        exact openAfter (dispatch_quit config moment server _ _ quits)
    next =>
      exact ⟨guarded.handled, fun _ => fits, fun _ => guarded.noQuit stillOpen⟩
    next =>
      exact ⟨guarded.handled, fun _ => Nat.zero_le _,
        fun _ => guarded.noQuit stillOpen⟩
    next => exact guarded.closed config rfl rfl

theorem Guarded.receive {connection : Connection}
    (guarded : Guarded config connection)
    (waiting : connection.phase = .waiting) (server : ServerState hasher)
    (chunk : Bytes) :
    Guarded config (connection.receive config server chunk).connection := by
  have stillOpen : connection.phase ≠ .closed := by simp [waiting]
  rw [Connection.receive]
  split
  next => exact guarded.closed config rfl rfl
  next =>
    dsimp only
    split
    next => exact guarded.closed config rfl rfl
    next fits =>
      exact ⟨guarded.handled, fun _ => Nat.le_of_not_lt fits,
        fun _ => guarded.noQuit stillOpen⟩

end Connection

namespace Session

variable {hasher : String → UInt64} (config : ConnectionConfig)

/-- The event is a read after which the connection gives up because there is too
much in its buffer. -/
def Overflows (session : Session hasher) : SessionEvent hasher → Prop
  | .read chunk =>
      chunk ≠ [] ∧
        config.maxPayloadSize < (session.connection.buffer ++ chunk).length
  | _ => False

/-- No frame above the limit is handled in any run that reads the chunks, and if
no frame of the stream is above the limit, no read overflows. -/
structure FrameLimited (server : ServerState hasher)
    (frames : List (Bytes × Value)) (chunks : List Bytes) : Prop where
  handled : ∀ events session,
    Reaches (step config) (fun _ _ => True) (start config server) events
      session →
    SessionEvent.reads events <+: chunks →
    ∀ frame ∈ session.connection.handled,
      frame.1.length ≤ config.maxPayloadSize
  spared : (∀ frame ∈ frames, frame.1.length ≤ config.maxPayloadSize) →
    ∀ events session,
      Reaches (step config) (fun _ _ => True) (start config server) events
        session →
      SessionEvent.reads events <+: chunks →
      Reaches (step config) (fun state event => ¬ Overflows config state event)
        (start config server) events session

/-- As long as `QUIT` has not arrived, every chunk fits behind what has arrived
of an unfinished frame. -/
def ChunksFit (frames : List (Bytes × Value)) (chunks : List Bytes) : Prop :=
  ∀ before chunk after, chunks = before ++ chunk :: after →
    (∀ frame ∈ arrived frames before.flatten.length,
      Command.fromValue frame.2 ≠ .ok .quit) →
    unfinished frames before.flatten.length + chunk.length ≤
      config.maxPayloadSize

theorem guarded_step {session next : Session hasher}
    {event : SessionEvent hasher}
    (guarded : Connection.Guarded config session.connection)
    (taken : session.step config event = some next) :
    Connection.Guarded config next.connection := by
  rcases transition_of_step taken with
    server | stillOpen | waiting | ⟨waiting, -, -⟩ | ⟨chunk, waiting⟩ |
      ⟨moment, draining⟩
  · exact guarded
  · exact guarded.closed config rfl rfl
  · exact guarded.closed config rfl rfl
  · have stillOpen : session.connection.phase ≠ .closed := by
      rw [waiting]
      nofun
    exact ⟨guarded.handled, fun _ => guarded.buffer stillOpen,
      fun _ => guarded.noQuit stillOpen⟩
  · exact guarded.receive config waiting session.server chunk
  · exact guarded.drain config draining moment session.server

theorem guarded_of_reaches {allowed : Session hasher → SessionEvent hasher → Prop}
    {server : ServerState hasher} {events : List (SessionEvent hasher)}
    {session : Session hasher}
    (reaches : Reaches (step config) allowed (start config server) events
      session) : Connection.Guarded config session.connection := by
  have kept : ∀ {state : Session hasher} {event : SessionEvent hasher}
      {next : Session hasher}, Connection.Guarded config state.connection →
      allowed state event → state.step config event = some next →
      Connection.Guarded config next.connection :=
    fun guarded _ taken => guarded_step config guarded taken
  exact reaches.invariant kept (Connection.guarded_new config)

section Chunks

variable {frames : List (Bytes × Value)}
  (accepted : ∀ frame ∈ frames, Value.decoder.Accepts frame.1 frame.2)
  {server : ServerState hasher} {events : List (SessionEvent hasher)}
  {session : Session hasher}

include accepted in
/-- A waiting connection has handled the frames that have arrived, and has the
beginning of the next one in its buffer. -/
theorem arrived_of_waiting
    (reaches : Reaches (step config) (fun _ _ => True) (start config server)
      events session)
    (delivered : (SessionEvent.reads events).flatten <+: stream frames)
    (waiting : session.connection.phase = .waiting) :
    arrived frames (SessionEvent.reads events).flatten.length =
        session.connection.handled ∧
      unfinished frames (SessionEvent.reads events).flatten.length =
        session.connection.buffer.length := by
  obtain ⟨unread, whole⟩ := delivered
  have framed := framed_of_reaches config accepted reaches whole
  have inStep := framed.inStep (by rw [waiting]; nofun)
  have settled := framed.settled waiting
  have total : (SessionEvent.reads events).flatten.length =
      (stream session.connection.handled).length +
        session.connection.buffer.length := by
    have lengths := inStep.length_eq
    have sum := congrArg List.length whole
    rw [List.length_append] at sum
    omega
  rw [total]
  exact ⟨inStep.arrived_of_incomplete accepted settled,
    inStep.unfinished_of_incomplete accepted settled⟩

variable {chunks : List Bytes} (delivered : chunks.flatten <+: stream frames)

omit config in
theorem reads_append_read (events : List (SessionEvent hasher)) (chunk : Bytes) :
    SessionEvent.reads (events ++ [.read chunk]) =
      SessionEvent.reads events ++ [chunk] :=
  List.filterMap_append

include accepted delivered in
/-- A chunk that fits does not overflow. -/
theorem not_overflows_of_fit (fit : ChunksFit config frames chunks)
    (reaches : Reaches (step config) (fun _ _ => True) (start config server)
      events session)
    (waiting : session.connection.phase = .waiting) {chunk : Bytes}
    (read : SessionEvent.reads events ++ [chunk] <+: chunks) :
    ¬ Overflows config session (.read chunk) := by
  obtain ⟨after, split⟩ := read
  rw [List.append_assoc] at split
  obtain ⟨handled, buffered⟩ := arrived_of_waiting config accepted reaches
    ((List.IsPrefix.flatten ⟨_, split⟩).trans delivered) waiting
  have guarded := guarded_of_reaches config reaches
  have fits := fit (SessionEvent.reads events) chunk after split.symm (by
    rw [handled]
    exact guarded.noQuit (by rw [waiting]; nofun))
  rw [buffered] at fits
  rintro ⟨-, beyond⟩
  rw [List.length_append] at beyond
  omega

include accepted delivered in
theorem spared_of_fit (fit : ChunksFit config frames chunks)
    (reaches : Reaches (step config) (fun _ _ => True) (start config server)
      events session)
    (read : SessionEvent.reads events <+: chunks) :
    Reaches (step config) (fun state event => ¬ Overflows config state event)
      (start config server) events session := by
  generalize begins : start config server = first at reaches ⊢
  induction reaches with
  | refl => exact .refl _
  | @snoc state next events event before _ taken ih =>
      subst begins
      have earlier : SessionEvent.reads events <+: chunks := by
        rw [SessionEvent.reads, List.filterMap_append] at read
        exact (List.prefix_append _ _).trans read
      refine .snoc (ih earlier) ?_ taken
      rcases transition_of_step taken with
        server | - | - | - | ⟨chunk, waiting⟩ | -
      · exact id
      · exact id
      · exact id
      · exact id
      · rw [reads_append_read] at read
        exact not_overflows_of_fit config accepted delivered fit before waiting
          read
      · exact id

include accepted delivered in
/-- If no read overflows, the chunks can be read one after another up to
`QUIT`. -/
theorem exists_waiting (nonempty : ∀ chunk ∈ chunks, chunk ≠ [])
    (spared : ∀ events session,
      Reaches (step config) (fun _ _ => True) (start config server) events
        session →
      SessionEvent.reads events <+: chunks →
      Reaches (step config) (fun state event => ¬ Overflows config state event)
        (start config server) events session)
    {before : List Bytes} (front : before <+: chunks)
    (noQuit : ∀ frame ∈ arrived frames before.flatten.length,
      Command.fromValue frame.2 ≠ .ok .quit) :
    ∃ events session,
      Reaches (step config) (fun _ _ => True) (start config server) events
          session ∧
        SessionEvent.reads events = before ∧
        session.connection.phase = .waiting := by
  induction before using List.reverseRecOn with
  | nil => exact ⟨[], start config server, .refl _, rfl, rfl⟩
  | append_singleton before chunk ih =>
      have sooner : ∀ frame ∈ arrived frames before.flatten.length,
          Command.fromValue frame.2 ≠ .ok .quit := by
        intro frame member
        apply noQuit frame
        refine (FrameDecoder.arrived_mono frames ?_).subset member
        simp
      obtain ⟨events, session, reaches, read, waiting⟩ :=
        ih ((List.prefix_append _ _).trans front) sooner
      have filled : chunk ≠ [] := nonempty chunk (front.subset (by simp))
      have taken : session.step config (.read chunk) =
          some (session.connection.receive config session.server chunk) :=
        if_pos waiting
      have reachesNext := reaches.snoc trivial taken
      have readNext : SessionEvent.reads (events ++ [.read chunk]) =
          before ++ [chunk] := by
        rw [reads_append_read, read]
      have fits : ¬ Overflows config session (.read chunk) :=
        ((Reaches.snoc_iff reaches taken).mp
          (spared _ _ reachesNext (by rwa [readNext]))).2
      have drains : (session.connection.receive config session.server
          chunk).connection.phase = .draining := by
        rw [Connection.receive_fitting config session.server filled
          (Nat.le_of_not_lt fun beyond => fits ⟨filled, beyond⟩)]
      obtain ⟨unread, whole⟩ := (List.IsPrefix.flatten front).trans delivered
      have framed := framed_of_reaches config accepted reachesNext
        (by rwa [readNext])
      obtain ⟨count, last, ran, -, outcome⟩ := drain_settles config accepted
        framed drains (List.replicate ((session.connection.receive config
          session.server chunk).connection.buffer.length + 1)
          ⟨fun _ => 0, .front⟩)
        (by rw [List.length_replicate]; exact Nat.lt_succ_self _)
      refine ⟨_, last, reachesNext.append (reaches_of_runActions ran), ?_, ?_⟩
      · rw [SessionEvent.reads, List.filterMap_append, ← SessionEvent.reads,
          ← SessionEvent.reads, readNext, reads_process, List.append_nil]
      · rcases outcome with waits | ⟨inStep, frame, member, quits⟩
        · exact waits
        · have lengths := inStep.length_eq
          have sum := congrArg List.length whole
          rw [List.length_append] at sum
          exact absurd quits (noQuit frame (FrameDecoder.mem_arrived
            ⟨_, inStep.choose_spec.1.symm⟩ (by omega) member))

include accepted delivered in
/-- The limit is one on frames exactly if some frame is above it anyway or every
chunk fits behind the unfinished frame before it, up to `QUIT`. -/
theorem frameLimited_iff (server : ServerState hasher)
    (nonempty : ∀ chunk ∈ chunks, chunk ≠ []) :
    FrameLimited config server frames chunks ↔
      ((∀ frame ∈ frames, frame.1.length ≤ config.maxPayloadSize) →
        ChunksFit config frames chunks) := by
  constructor
  · intro limited small before chunk after split noQuit
    have spared := limited.spared small
    obtain ⟨events, session, reaches, read, waiting⟩ := exists_waiting config
      accepted delivered nonempty spared ⟨_, split.symm⟩ noQuit
    have taken : session.step config (.read chunk) =
        some (session.connection.receive config session.server chunk) :=
      if_pos waiting
    have whole : SessionEvent.reads (events ++ [.read chunk]) <+: chunks := by
      rw [reads_append_read, read, split]
      exact ⟨after, by simp⟩
    have fits : ¬ Overflows config session (.read chunk) :=
      ((Reaches.snoc_iff reaches taken).mp
        (spared _ _ (reaches.snoc trivial taken) whole)).2
    have filled : chunk ≠ [] := nonempty chunk (by rw [split]; simp)
    have enough : (session.connection.buffer ++ chunk).length ≤
        config.maxPayloadSize :=
      Nat.le_of_not_lt fun beyond => fits ⟨filled, beyond⟩
    have early : SessionEvent.reads events <+: chunks := ⟨_, by
      rw [read, split]⟩
    have buffered := (arrived_of_waiting config accepted reaches
      (early.flatten.trans delivered) waiting).2
    rw [read] at buffered
    rw [buffered]
    rwa [List.length_append] at enough
  · intro fit
    refine ⟨?_, ?_⟩
    · intro events session reaches _
      exact (guarded_of_reaches config reaches).handled
    · intro small events session reaches read
      exact spared_of_fit config accepted delivered (fit small) reaches read

end Chunks

section Pipelining

def pingFrame : Bytes × Value := Value.wordsFrame ["PING"]

/-- A connection with a limit of 20 bytes. -/
def tightConfig : ConnectionConfig := ⟨none, 20, 0⟩

def emptyServer : ServerState fun _ => 0 :=
  ⟨.withConfig _ 1 0, .newMaster none, fun _ => some [], none⟩

theorem frameLimited_iff_pingByPing :
    FrameLimited tightConfig emptyServer [pingFrame, pingFrame]
      [pingFrame.1, pingFrame.1] := by
  have accepted : ∀ frame ∈ [pingFrame, pingFrame],
      Value.decoder.Accepts frame.1 frame.2 := by decide
  have delivered : [pingFrame.1, pingFrame.1].flatten <+:
      stream [pingFrame, pingFrame] := by decide
  apply (frameLimited_iff tightConfig accepted delivered emptyServer
    (by decide)).mpr
  intro _ before chunk after split _
  have fits : ∀ count < 2, unfinished [pingFrame, pingFrame]
      ([pingFrame.1, pingFrame.1].take count).flatten.length +
        pingFrame.1.length ≤ 20 := by decide
  have front : before = [pingFrame.1, pingFrame.1].take before.length := by
    rw [split, List.take_left]
  have short : before.length < 2 := by
    have lengths := congrArg List.length split
    simp only [List.length_append, List.length_cons, List.length_nil] at lengths
    omega
  have same : chunk = pingFrame.1 := by
    have member : chunk ∈ [pingFrame.1, pingFrame.1] := by
      rw [split]
      simp
    simpa using member
  rw [same, front]
  exact fits before.length short

/-- Two requests of 14 bytes in one read. -/
theorem pipelined_pings_cut_off :
    (∀ frame ∈ [pingFrame, pingFrame],
        Value.decoder.Accepts frame.1 frame.2 ∧ frame.1.length ≤ 20) ∧
      (∃ session,
        Reaches (step tightConfig) (fun _ _ => True)
            (start tightConfig emptyServer)
            [.read (pingFrame.1 ++ pingFrame.1)] session ∧
          session.connection.phase = .closed ∧
          session.connection.sent =
            (Value.error "ERR max payload size exceeded").serialize ∧
          session.connection.handled = []) ∧
      ¬ FrameLimited tightConfig emptyServer [pingFrame, pingFrame]
        [pingFrame.1 ++ pingFrame.1] := by
  have taken : (start tightConfig emptyServer).step tightConfig
      (.read (pingFrame.1 ++ pingFrame.1)) =
      some ((start tightConfig emptyServer).connection.receive tightConfig
        emptyServer (pingFrame.1 ++ pingFrame.1)) := rfl
  refine ⟨by decide, ⟨_, .single trivial taken, by decide, by decide, by decide⟩,
    ?_⟩
  intro limited
  have spared := limited.spared (by decide) [.read (pingFrame.1 ++ pingFrame.1)]
    _ (.single trivial taken) (List.prefix_refl _)
  have initially : Reaches (step tightConfig) (fun _ _ => True)
      (start tightConfig emptyServer) [] (start tightConfig emptyServer) :=
    .refl _
  exact ((Reaches.snoc_iff initially taken).mp spared).2
    ⟨by decide, by decide⟩

end Pipelining

end Session

end RustiCache
