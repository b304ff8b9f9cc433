import RustiCache.ConnectionFraming

/-!
# A whole stream of frames on a connection

A client that sends accepted frames without `QUIT`, within the payload bound,
keeps the connection open.  Every drain loop ends, since each round handles a
frame or stops, and when all bytes have been read and drained the frames have
been handled exactly once and in order.
-/

namespace RustiCache

open FrameDecoder (stream InStep)

namespace Command

variable {hasher : String → UInt64} {server : ServerState hasher}
  {channel : ChannelId} {queue : List Bytes}

theorem propagate_channels (rawCmd : Bytes)
    (alive : server.channels channel = some queue) :
    ∃ count, (propagate server (some rawCmd)).channels channel =
      some (queue ++ List.replicate count rawCmd) := by
  rw [propagate]
  split
  next => exact ⟨0, by rw [alive, List.replicate_zero, List.append_nil]⟩
  next =>
    exact ⟨_, (ReplicationState.retainSending_alive rawCmd
      server.replState.downstreamSenders alive).1⟩

/-- What the execution of a command puts into a channel are its own bytes. -/
theorem execute_channels (moment : Moment) (rawCmd : Bytes)
    (requirepass : Option String) (isAuthenticated : Bool) {cmd : Command}
    (alive : server.channels channel = some queue) :
    ∃ count, (cmd.execute moment server (some rawCmd) requirepass
        isAuthenticated).server.channels channel =
      some (queue ++ List.replicate count rawCmd) := by
  have unchanged : ∃ count, server.channels channel =
      some (queue ++ List.replicate count rawCmd) :=
    ⟨0, by rw [alive, List.replicate_zero, List.append_nil]⟩
  have performed : ∃ count, (cmd.perform moment server (some rawCmd)
        isAuthenticated).server.channels channel =
      some (queue ++ List.replicate count rawCmd) := by
    cases cmd with
    | ping message => cases message <;> exact unchanged
    | set key value pxMs => exact propagate_channels rawCmd alive
    | del names =>
        simp only [perform]
        split
        next => exact propagate_channels rawCmd alive
        next => exact unchanged
    | cluster subcommand =>
        simp only [perform]
        split <;> exact unchanged
    | _ => exact unchanged
  cases requirepass with
  | none => exact performed
  | some pass =>
      cases isAuthenticated with
      | true => exact performed
      | false => exact unchanged

end Command

namespace Connection

/-- A command without a key, or with one whose slot the server owns, is not
redirected, and without authentication no command is. -/
theorem redirect_of_own {cluster : Option ClusterTopology}
    {isAuthenticated : Bool} {cmd : Command}
    (own : ∀ topology key, cluster = some topology →
      cmd.targetKey = some key → isAuthenticated = true →
      topology.ownsSlot (keySlot (asBytes key)) = true) :
    redirect cluster isAuthenticated cmd = none := by
  unfold redirect
  split
  next topology key isKey =>
    cases isAuthenticated with
    | false => rfl
    | true => simp only [own topology key rfl isKey rfl, if_true]
  next => rfl

/-- Waiting with nothing more to come means that all frames are handled. -/
theorem Framed.finished {frames : List (Bytes × Value)}
    {connection : Connection}
    (accepted : ∀ frame ∈ frames, Value.decoder.Accepts frame.1 frame.2)
    (framed : Framed frames [] connection)
    (waiting : connection.phase = .waiting) :
    connection.buffer = [] ∧ connection.handled = frames := by
  rcases (framed.inStep (by rw [waiting]; nofun)).next accepted with
    ⟨frame, value, others, tail, -, -, -, found, -⟩ | ⟨-, last⟩
  · change Value.attempt connection.buffer = _ at found
    rw [framed.settled waiting] at found
    cases found
  · exact last rfl

end Connection

namespace Session

/-- The frames handled so far include `QUIT`. -/
def HandledQuit (frames : List (Bytes × Value)) (unread : Bytes)
    (connection : Connection) : Prop :=
  InStep frames connection.handled connection.buffer unread ∧
    ∃ frame ∈ connection.handled, Command.fromValue frame.2 = .ok .quit

variable {hasher : String → UInt64} (config : ConnectionConfig)
  {frames : List (Bytes × Value)}

section Steady

variable
  (accepted : ∀ frame ∈ frames, Value.decoder.Accepts frame.1 frame.2)
  (noQuit : ∀ frame ∈ frames, Command.fromValue frame.2 ≠ .ok .quit)
  (small : (stream frames).length ≤ config.maxPayloadSize)

include accepted in
/-- A round of the drain loop handles a frame and goes on, or stops, or ends with
`QUIT`. -/
theorem drain_round {session : Session hasher} {unread : Bytes}
    (framed : Connection.Framed frames unread session.connection)
    (draining : session.connection.phase = .draining) (moment : Moment) :
    let next := session.connection.drain config moment session.server
    next.connection.phase = .waiting ∨
      next.connection.phase = .draining ∧
        next.connection.buffer.length < session.connection.buffer.length ∨
      next.connection.phase = .closed ∧
        HandledQuit frames unread next.connection := by
  have inStep := framed.inStep (by rw [draining]; nofun)
  rcases Connection.drain_cases config moment session.server accepted inStep
    with ⟨frame, value, others, tail, first, front, rest, drained⟩ |
      ⟨-, drained⟩
  · right
    have inside : (frame, value) ∈ frames := by
      rw [first]
      simp
    obtain ⟨buffer, handled, phase⟩ := Connection.dispatch_connection config
      moment session.server
      { session.connection with
        buffer := tail
        handled := session.connection.handled ++ [(frame, value)] } frame value
    have positive : 0 < frame.length :=
      List.length_pos_iff.mpr (accepted _ inside).ne_nil
    have shorter := congrArg List.length front
    rw [List.length_append] at shorter
    rw [drained]
    by_cases quits : Command.fromValue value = .ok .quit
    · right
      rw [HandledQuit, handled, buffer]
      exact ⟨by rw [Connection.dispatch, quits], rest,
        (frame, value), by simp, quits⟩
    · left
      rw [phase quits, buffer]
      exact ⟨draining, by simp only; omega⟩
  · left
    rw [drained]

include accepted noQuit in
/-- Without `QUIT` it goes on or stops. -/
theorem drain_steady {session : Session hasher} {unread : Bytes}
    (framed : Connection.Framed frames unread session.connection)
    (draining : session.connection.phase = .draining) (moment : Moment) :
    let next := session.connection.drain config moment session.server
    next.connection.phase = .waiting ∨
      next.connection.phase = .draining ∧
        next.connection.buffer.length < session.connection.buffer.length := by
  rcases drain_round config accepted framed draining moment with
    waits | goesOn | ⟨-, -, frame, member, quits⟩
  · exact Or.inl waits
  · exact Or.inr goesOn
  · have framedNext :=
      framed.drain config accepted draining moment session.server
    exact absurd quits (noQuit frame (framedNext.handled.subset member))

include small in
theorem receive_steady {session : Session hasher} {chunk unread : Bytes}
    (framed : Connection.Framed frames (chunk ++ unread) session.connection)
    (waiting : session.connection.phase = .waiting) (nonempty : chunk ≠ []) :
    (session.connection.receive config session.server chunk).connection.phase =
      .draining := by
  have lengths := (framed.inStep (by rw [waiting]; nofun)).length_eq
  rw [List.length_append] at lengths
  rw [Connection.receive_fitting config session.server nonempty]
  rw [List.length_append]
  omega

include accepted noQuit small in
/-- The connection stays open. -/
theorem open_of_reaches {server : ServerState hasher}
    {events : List (SessionEvent hasher)} {session : Session hasher}
    (reaches : Reaches (step config) (fun _ event => event.Delivers)
      (start config server) events session)
    {unread : Bytes}
    (delivered : (SessionEvent.reads events).flatten ++ unread =
      stream frames) :
    session.connection.phase ≠ .closed := by
  generalize begins : start config server = first at reaches
  induction reaches generalizing unread with
  | refl =>
      subst begins
      nofun
  | @snoc state next events event before delivers taken ih =>
      subst begins
      rw [reads_snoc, List.append_assoc] at delivered
      have framed := framed_of_reaches config accepted before delivered
      have stillOpen := ih delivered
      rcases transition_of_step taken with
        server | - | - | ⟨waiting, -, -⟩ | ⟨chunk, waiting⟩ |
          ⟨moment, draining⟩
      · exact stillOpen
      · exact delivers.elim
      · exact delivers.elim
      · nofun
      · have drains : (state.connection.receive config state.server
            chunk).connection.phase = .draining :=
          receive_steady config small framed waiting delivers
        rw [drains]
        nofun
      · rcases drain_steady config accepted noQuit framed draining moment with
          waits | ⟨goesOn, -⟩
        · rw [waits]
          nofun
        · rw [goesOn]
          nofun

include accepted in
/-- The drain loop ends, whatever the clock and the tables do: the connection
waits, or it has come to `QUIT`. -/
theorem drain_settles {session : Session hasher} {unread : Bytes}
    (framed : Connection.Framed frames unread session.connection)
    (draining : session.connection.phase = .draining) (moments : List Moment)
    (enough : session.connection.buffer.length < moments.length) :
    ∃ count last,
      runActions (step config) session
          ((moments.take count).map SessionEvent.process) = some last ∧
        Connection.Framed frames unread last.connection ∧
        (last.connection.phase = .waiting ∨
          HandledQuit frames unread last.connection) := by
  have progress : ∀ {state : Session hasher} {event : SessionEvent hasher},
      (Connection.Framed frames unread state.connection ∧
        (state.connection.phase = .closed →
          HandledQuit frames unread state.connection)) →
      ¬ state.connection.phase ≠ .draining →
      (∃ moment, event = .process moment) →
      ∃ next, state.step config event = some next ∧
        (Connection.Framed frames unread next.connection ∧
          (next.connection.phase = .closed →
            HandledQuit frames unread next.connection)) ∧
        (next.connection.phase ≠ .draining ∨
          next.connection.buffer.length < state.connection.buffer.length) := by
    rintro state event ⟨framed, -⟩ goesOn ⟨moment, rfl⟩
    have draining := not_not.mp goesOn
    have framedNext := framed.drain config accepted draining moment state.server
    refine ⟨state.connection.drain config moment state.server,
      if_pos draining, ?_⟩
    rcases drain_round config accepted framed draining moment with
      waits | ⟨drains, shorter⟩ | ⟨closes, quits⟩
    · exact ⟨⟨framedNext, by rw [waits]; nofun⟩, .inl (by rw [waits]; nofun)⟩
    · exact ⟨⟨framedNext, by rw [drains]; nofun⟩, .inr shorter⟩
    · exact ⟨⟨framedNext, fun _ => quits⟩, .inl (by rw [closes]; nofun)⟩
  have rounds : ∀ event ∈ moments.map (fun moment =>
      (.process moment : SessionEvent hasher)),
      ∃ moment, event = .process moment := by
    intro event member
    obtain ⟨moment, -, rfl⟩ := List.mem_map.mp member
    exact ⟨moment, rfl⟩
  obtain ⟨count, last, ran, ⟨framedLast, closes⟩, settled⟩ := runActions_ends
    (fun state : Session hasher => state.connection.buffer.length)
    progress ⟨framed, by rw [draining]; nofun⟩ rounds
    (by rw [List.length_map]; exact enough)
  refine ⟨count, last, by rw [List.map_take]; exact ran, framedLast, ?_⟩
  cases phase : last.connection.phase with
  | waiting => exact Or.inl rfl
  | draining => exact absurd phase settled
  | closed => exact Or.inr (closes phase)

include accepted noQuit in
theorem drain_ends {session : Session hasher} {unread : Bytes}
    (framed : Connection.Framed frames unread session.connection)
    (draining : session.connection.phase = .draining) (moments : List Moment)
    (enough : session.connection.buffer.length < moments.length) :
    ∃ count last,
      runActions (step config) session
          ((moments.take count).map SessionEvent.process) = some last ∧
        last.connection.phase = .waiting ∧
        Connection.Framed frames unread last.connection := by
  obtain ⟨count, last, ran, framedLast, outcome⟩ :=
    drain_settles config accepted framed draining moments enough
  rcases outcome with waits | ⟨-, frame, member, quits⟩
  · exact ⟨count, last, ran, waits, framedLast⟩
  · exact absurd quits (noQuit frame (framedLast.handled.subset member))

omit config in
theorem reads_process (moments : List Moment) :
    SessionEvent.reads
      (moments.map fun moment => (.process moment : SessionEvent hasher)) =
      [] := by
  induction moments with
  | nil => rfl
  | cons moment moments ih => exact ih

include accepted noQuit small in
/-- A chunk can be read and drained. -/
theorem deliver_chunk (moment : Moment) {chunk unread : Bytes}
    (nonempty : chunk ≠ []) {session : Session hasher}
    (framed : Connection.Framed frames (chunk ++ unread) session.connection)
    (waiting : session.connection.phase = .waiting) :
    ∃ events next,
      runActions (step config) session events = some next ∧
        (∀ event ∈ events, event.Delivers) ∧
        SessionEvent.reads events = [chunk] ∧
        next.connection.phase = .waiting ∧
        Connection.Framed frames unread next.connection := by
  have taken : session.step config (.read chunk) =
      some (session.connection.receive config session.server chunk) := by
    simp [step, waiting]
  obtain ⟨count, drained, ran, waits, framedDrained⟩ :=
    drain_ends config accepted noQuit
      (framed.receive config waiting session.server)
      (receive_steady config small framed waiting nonempty)
      (List.replicate ((session.connection.receive config session.server
        chunk).connection.buffer.length + 1) moment)
      (by rw [List.length_replicate]; exact Nat.lt_succ_self _)
  generalize List.take count _ = moments at ran
  have none : SessionEvent.reads (moments.map fun moment =>
      (.process moment : SessionEvent hasher)) = [] :=
    reads_process moments
  refine ⟨.read chunk :: moments.map .process, drained, ?_, ?_, ?_, waits,
    framedDrained⟩
  · rw [runActions, taken]
    exact ran
  · intro event member
    rcases List.mem_cons.mp member with rfl | processed
    · exact nonempty
    · obtain ⟨_, -, rfl⟩ := List.mem_map.mp processed
      trivial
  · simp only [SessionEvent.reads, List.filterMap_cons,
      SessionEvent.chunk?] at none ⊢
    rw [none]

/-- Waiting for chunks that carry the rest of the frames. -/
structure Ready (frames : List (Bytes × Value)) (chunks : List Bytes)
    (session : Session hasher) : Prop where
  nonempty : ∀ chunk ∈ chunks, chunk ≠ []
  waiting : session.connection.phase = .waiting
  framed : Connection.Framed frames chunks.flatten session.connection

include accepted noQuit small in
/-- Every chunking can be delivered to the end. -/
theorem deliver_chunks {chunks : List Bytes} {session : Session hasher}
    (ready : Ready frames chunks session) :
    ∃ events last,
      runActions (step config) session events = some last ∧
        (∀ event ∈ events, event.Delivers) ∧
        SessionEvent.reads events = chunks ∧ Ready frames [] last := by
  apply runActions_deliver SessionEvent.chunk? _ ready
  intro chunk chunks session ready
  obtain ⟨events, next, ran, delivers, reads, waits, framed⟩ := deliver_chunk
    config accepted noQuit small ⟨fun _ => 0, .front⟩
    (ready.nonempty chunk (by simp)) ready.framed ready.waiting
  refine ⟨events, next, ran, delivers, reads, ?_, waits, framed⟩
  exact fun other member =>
    ready.nonempty other (List.mem_cons_of_mem _ member)

end Steady

/-- What a round of the drain loop makes of a session when it cuts a frame off
the buffer.  A command is executed with the bytes of the frame, which are all that
can get into a channel, and its reply is written.  `PSYNC`, a command for a key
that the server does not own and a frame that is no command are answered without
execution. -/
structure Handles (moment : Moment) (session : Session hasher)
    (frame : Bytes × Value) (tail : Bytes) (next : Session hasher) : Prop where
  executed : ∀ cmd, Command.fromValue frame.2 = .ok cmd →
    (∀ replId offset, cmd ≠ .psync replId offset) →
    (∀ topology key, session.server.cluster = some topology →
      cmd.targetKey = some key → session.connection.isAuthenticated = true →
      topology.ownsSlot (keySlot (asBytes key)) = true) →
    let execution := cmd.execute moment session.server (some frame.1)
      config.requirepass session.connection.isAuthenticated
    next = ⟨execution.server,
      { session.connection with
        buffer := tail
        handled := session.connection.handled ++ [frame]
        isAuthenticated := execution.isAuthenticated
        sent := session.connection.sent ++
          (execution.reply.map Value.serialize).getD [] }⟩
  redirected : ∀ cmd reply, Command.fromValue frame.2 = .ok cmd →
    (∀ replId offset, cmd ≠ .psync replId offset) →
    Connection.redirect session.server.cluster
      session.connection.isAuthenticated cmd = some reply →
    next = ⟨session.server,
      { session.connection with
        buffer := tail
        handled := session.connection.handled ++ [frame]
        sent := session.connection.sent ++ reply }⟩
  resynced : ∀ replId offset,
    Command.fromValue frame.2 = .ok (.psync replId offset) →
    next = ⟨{ session.server with
        replState :=
          session.server.replState.registerDownstream config.channel },
      { session.connection with
        buffer := tail
        handled := session.connection.handled ++ [frame]
        isDownstreamReplica := true
        sent := session.connection.sent ++
          Connection.fullResync session.server.replState }⟩
  refused : ∀ reason, Command.fromValue frame.2 = .error reason →
    next = ⟨session.server,
      { session.connection with
        buffer := tail
        handled := session.connection.handled ++ [frame]
        sent := session.connection.sent ++
          (Value.error reason).serialize }⟩
  propagated : ∀ channel queue,
    session.server.channels channel = some queue →
      ∃ count, next.server.channels channel =
        some (queue ++ List.replicate count frame.1)

theorem handles_dispatch (moment : Moment) (session : Session hasher)
    {frame : Bytes × Value} (tail : Bytes)
    (noQuit : Command.fromValue frame.2 ≠ .ok .quit) :
    Handles config moment session frame tail
      (Connection.dispatch config moment session.server
        { session.connection with
          buffer := tail
          handled := session.connection.handled ++ [frame] }
        frame.1 frame.2) := by
  have served : ∀ cmd, Command.fromValue frame.2 = .ok cmd →
      (∀ replId offset, cmd ≠ .psync replId offset) → ∀ connection,
      Connection.dispatch config moment session.server connection frame.1
          frame.2 =
        Connection.serve config moment session.server connection frame.1
          cmd := by
    intro cmd decoded notPsync connection
    have notQuit : cmd ≠ .quit := by
      rintro rfl
      exact noQuit decoded
    exact Connection.dispatch_ordinary config decoded notPsync notQuit moment
      session.server connection frame.1
  constructor
  case executed =>
    intro cmd decoded notPsync own
    have here : Connection.redirect session.server.cluster
        session.connection.isAuthenticated cmd = none :=
      Connection.redirect_of_own own
    rw [served cmd decoded notPsync, Connection.serve]
    simp only [here]
  case redirected =>
    intro cmd reply decoded notPsync elsewhere
    rw [served cmd decoded notPsync, Connection.serve]
    simp only [elsewhere]
    rfl
  case resynced =>
    intro replId offset decoded
    rw [Connection.dispatch, decoded]
    rfl
  case refused =>
    intro reason decoded
    rw [Connection.dispatch, decoded]
    rfl
  case propagated =>
    intro channel queue alive
    have unchanged : ∃ count, session.server.channels channel =
        some (queue ++ List.replicate count frame.1) :=
      ⟨0, by rw [alive, List.replicate_zero, List.append_nil]⟩
    rw [Connection.dispatch]
    split
    next => exact unchanged
    next quits => exact absurd quits noQuit
    next =>
      rw [Connection.serve]
      split
      next => exact unchanged
      next => exact Command.execute_channels moment _ _ _ alive
    next => exact unchanged

/-- A round of the drain loop handles exactly the next of the remaining frames,
or goes back to waiting if the buffer holds no whole frame. -/
def HandsOver (remaining : List (Bytes × Value)) (session : Session hasher) :
    Prop :=
  ∀ moment,
    (∃ frame others tail next, remaining = frame :: others ∧
        session.connection.buffer = frame.1 ++ tail ∧
        session.step config (.process moment) = some next ∧
        Handles config moment session frame tail next) ∨
      Value.attempt session.connection.buffer = .incomplete ∧
        session.step config (.process moment) =
          some ⟨session.server, { session.connection with phase := .waiting }⟩

theorem handsOver_of_inStep {session : Session hasher}
    {remaining : List (Bytes × Value)} {unread : Bytes}
    (accepted : ∀ frame ∈ session.connection.handled ++ remaining,
      Value.decoder.Accepts frame.1 frame.2)
    (noQuit : ∀ frame ∈ session.connection.handled ++ remaining,
      Command.fromValue frame.2 ≠ .ok .quit)
    (inStep : InStep (session.connection.handled ++ remaining)
      session.connection.handled session.connection.buffer unread)
    (draining : session.connection.phase = .draining) :
    HandsOver config remaining session := by
  intro moment
  have taken : session.step config (.process moment) =
      some (session.connection.drain config moment session.server) := by
    simp [step, draining]
  rw [taken]
  rcases Connection.drain_cases config moment session.server accepted inStep
    with ⟨frame, value, others, tail, first, front, -, drained⟩ |
      ⟨more, drained⟩
  · left
    have continues := noQuit (frame, value) (by rw [first]; simp)
    refine ⟨(frame, value), others, tail, _, List.append_cancel_left first,
      front, rfl, ?_⟩
    rw [drained]
    exact handles_dispatch config moment session tail continues
  · right
    rw [drained]
    exact ⟨more, rfl⟩

/-- However a stream of frames is cut into chunks, the connection handles
exactly these frames, once each and in order, executes each command with the
bytes of its frame, and ends with an empty buffer. -/
theorem frames_handled_exactly (server : ServerState hasher)
    (accepted : ∀ frame ∈ frames, Value.decoder.Accepts frame.1 frame.2)
    (noQuit : ∀ frame ∈ frames, Command.fromValue frame.2 ≠ .ok .quit)
    (small : (stream frames).length ≤ config.maxPayloadSize) :
    (∀ {events session unread},
      Reaches (step config) (fun _ event => event.Delivers)
          (start config server) events session →
        (SessionEvent.reads events).flatten ++ unread = stream frames →
        session.connection.phase ≠ .closed ∧
          ∃ remaining, frames = session.connection.handled ++ remaining ∧
            session.connection.buffer ++ unread = stream remaining ∧
            (session.connection.phase = .draining →
              HandsOver config remaining session ∧
                ∀ moments : List Moment,
                  session.connection.buffer.length < moments.length →
                  ∃ count last, runActions (step config) session
                      ((moments.take count).map .process) = some last ∧
                    last.connection.phase = .waiting) ∧
            (session.connection.phase = .waiting → unread = [] →
              remaining = [] ∧ session.connection.buffer = [])) ∧
      ∀ chunks : List Bytes, (∀ chunk ∈ chunks, chunk ≠ []) →
        chunks.flatten = stream frames →
        ∃ events session,
          Reaches (step config) (fun _ event => event.Delivers)
              (start config server) events session ∧
            SessionEvent.reads events = chunks ∧
            session.connection.phase = .waiting ∧
            session.connection.handled = frames ∧
            session.connection.buffer = [] := by
  constructor
  · intro events session unread reaches delivered
    have open_ := open_of_reaches config accepted noQuit small reaches delivered
    have framed := framed_of_reaches config accepted reaches delivered
    have inStep := framed.inStep open_
    obtain ⟨remaining, split, pending⟩ := id inStep
    refine ⟨open_, remaining, split, pending, ?_, ?_⟩
    · intro draining
      constructor
      · rw [split] at accepted noQuit inStep
        exact handsOver_of_inStep config accepted noQuit inStep draining
      · intro moments enough
        obtain ⟨count, last, ran, waits, -⟩ :=
          drain_ends config accepted noQuit framed draining moments enough
        exact ⟨count, last, ran, waits⟩
    · intro waiting exhausted
      subst exhausted
      obtain ⟨empty, allHandled⟩ := framed.finished accepted waiting
      rw [allHandled] at split
      exact ⟨List.self_eq_append_right.mp split, empty⟩
  · intro chunks nonempty cut
    have ready : Ready frames chunks (start config server) := by
      refine ⟨nonempty, rfl, ?_⟩
      rw [cut]
      exact Connection.framed_new config frames
    obtain ⟨events, session, ran, delivers, reads, readyLast⟩ :=
      deliver_chunks config accepted noQuit small ready
    have reaches : Reaches (step config) (fun _ event => event.Delivers)
        (start config server) events session :=
      reaches_of_always (fun event member _ => delivers event member) ran
    obtain ⟨empty, allHandled⟩ :=
      readyLast.framed.finished accepted readyLast.waiting
    exact ⟨events, session, reaches, reads, readyLast.waiting, allHandled,
      empty⟩

/-- The frames of a client that sends a `PING` and a `SET`. -/
def pingSetFrames : List (Bytes × Value) :=
  [["PING"], ["SET", "k", "\r\n$"]].map Value.wordsFrame

theorem frames_handled_exactly_pingSet :
    let config : ConnectionConfig := ⟨none, 64, 0⟩
    let server : ServerState (fun _ => 0) :=
      ⟨.withConfig _ 4 0, .newMaster none, fun _ => none, none⟩
    let bytes := stream pingSetFrames
    ∃ events session,
      Reaches (step config) (fun _ event => event.Delivers)
          (start config server) events session ∧
        SessionEvent.reads events =
          [bytes.take 9, (bytes.drop 9).take 30, bytes.drop 39] ∧
        session.connection.phase = .waiting ∧
        session.connection.handled = pingSetFrames ∧
        session.connection.buffer = [] :=
  (frames_handled_exactly ⟨none, 64, 0⟩ _ (by decide) (by decide)
    (by decide)).2 _ (by decide) (by decide)

end Session

end RustiCache
