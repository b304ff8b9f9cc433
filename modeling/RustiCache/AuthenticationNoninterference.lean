import RustiCache.AuthenticationGuard

/-!
# Noninterference for clients without the password

A client that never gives the password neither changes the shared state nor
learns anything about it, unless one of its frames is a `PSYNC` that the
connection gets to: it registers the client as a replica and tells it the
replication id.  The frames of such a client decide between the two cases.
-/

namespace RustiCache

open FrameDecoder (stream)

namespace OwnEvent

def chunk? : OwnEvent → Option Bytes
  | read chunk => some chunk
  | _ => none

/-- The event next to an empty server. -/
def alone : OwnEvent → SessionEvent (fun _ => 0)
  | shutdown => .shutdown
  | disconnect => .disconnect
  | replicate => .replicate
  | read chunk => .read chunk
  | process => .process ⟨fun _ => 0, .front⟩

end OwnEvent

theorem SessionEvent.reads_own {hasher : String → UInt64}
    (events : List (SessionEvent hasher)) :
    reads events = (events.filterMap own?).filterMap OwnEvent.chunk? := by
  rw [reads, List.filterMap_filterMap]
  apply List.filterMap_congr
  intro event _
  cases event <;> rfl

def emptyServer : ServerState (fun _ => 0) :=
  ⟨.withConfig _ 1 0, .newMaster none, fun _ => none, none⟩

namespace Connection

/-- A step of the connection next to an empty server. -/
def aloneStep (config : ConnectionConfig) (connection : Connection)
    (event : OwnEvent) : Option Connection :=
  (Session.step config ⟨emptyServer, connection⟩ event.alone).map
    Session.connection

/-- While the connection is open it has met no `QUIT` and no frame above the
payload bound. -/
def Continuing (config : ConnectionConfig) (connection : Connection) : Prop :=
  connection.phase ≠ .closed →
    (∀ frame ∈ connection.handled, ¬ Command.IsQuit frame.2 ∧
      frame.1.length ≤ config.maxPayloadSize) ∧
    connection.buffer.length ≤ config.maxPayloadSize

variable {hasher : String → UInt64} {config : ConnectionConfig} {pass : String}

theorem Continuing.dispatch {connection : Connection} {value : Value}
    (continuing : connection.Continuing config)
    (open_ : connection.phase ≠ .closed)
    (moment : Moment) (server : ServerState hasher) (consumed : Nat) :
    (Connection.dispatch config moment server
      { connection with
        buffer := connection.buffer.drop consumed
        handled := connection.handled ++
          [(connection.buffer.take consumed, value)] }
      (connection.buffer.take consumed) value).connection.Continuing
        config := by
  obtain ⟨earlier, fits⟩ := continuing open_
  intro stillOpen
  obtain ⟨buffer, handled, -⟩ := dispatch_connection config moment server
    { connection with
      buffer := connection.buffer.drop consumed
      handled := connection.handled ++
        [(connection.buffer.take consumed, value)] }
    (connection.buffer.take consumed) value
  have notQuit : ¬ Command.IsQuit value := by
    intro quits
    rw [Command.IsQuit] at quits
    simp [Connection.dispatch, quits] at stillOpen
  rw [buffer, handled]
  constructor
  · intro frame member
    rcases List.mem_append.mp member with before | last
    · exact earlier frame before
    · rw [List.mem_singleton.mp last]
      exact ⟨notQuit, (List.length_take_le' _ _).trans fits⟩
  · simp only [List.length_drop]
    omega

theorem Continuing.drain {connection : Connection}
    (continuing : connection.Continuing config)
    (open_ : connection.phase ≠ .closed)
    (moment : Moment) (server : ServerState hasher) :
    (connection.drain config moment server).connection.Continuing config := by
  obtain ⟨earlier, fits⟩ := id (continuing open_)
  rw [Connection.drain]
  split
  · exact fun _ => ⟨earlier, fits⟩
  · split
    · exact continuing.dispatch open_ moment server _
    · exact fun _ => ⟨earlier, fits⟩
    · exact fun _ => ⟨earlier, Nat.zero_le _⟩
    · exact fun stillOpen => absurd rfl stillOpen

theorem Continuing.receive {connection : Connection}
    (continuing : connection.Continuing config)
    (open_ : connection.phase ≠ .closed) (server : ServerState hasher)
    (chunk : Bytes) :
    (connection.receive config server chunk).connection.Continuing
      config := by
  obtain ⟨earlier, -⟩ := continuing open_
  rw [Connection.receive]
  split
  · exact fun stillOpen => absurd rfl stillOpen
  · dsimp only
    split
    · exact fun stillOpen => absurd rfl stillOpen
    next fits => exact fun _ => ⟨earlier, Nat.le_of_not_lt fits⟩

end Connection

namespace Session

variable {hasher : String → UInt64} {config : ConnectionConfig}
  {pass : String} {frames : List (Bytes × Value)}

theorem continuing_step {session next : Session hasher}
    {event : SessionEvent hasher}
    (continuing : session.connection.Continuing config)
    (taken : session.step config event = some next) :
    next.connection.Continuing config := by
  rcases transition_of_step taken with
    server | - | - | ⟨waiting, -, -⟩ | ⟨chunk, waiting⟩ | ⟨moment, draining⟩
  · exact continuing
  · exact fun stillOpen => absurd rfl stillOpen
  · exact fun stillOpen => absurd rfl stillOpen
  · exact fun _ => continuing (by rw [waiting]; nofun)
  · exact continuing.receive (by rw [waiting]; nofun) session.server chunk
  · exact continuing.drain (by rw [draining]; nofun) moment session.server

theorem continuing_of_reaches
    {allowed : Session hasher → SessionEvent hasher → Prop}
    {server : ServerState hasher} {events : List (SessionEvent hasher)}
    {session : Session hasher}
    (reaches : Reaches (step config) allowed (start config server) events
      session) :
    session.connection.Continuing config := by
  apply reaches.invariant
    (fun continuing _ taken => continuing_step continuing taken)
  exact fun _ => ⟨by simp [start, Connection.new], Nat.zero_le _⟩

/-- The event handles no frame, or one that is neither the password nor
`PSYNC`. -/
def Refuses (pass : String) (session : Session hasher) :
    SessionEvent hasher → Prop
  | .process _ => session.connection.NextRefused pass
  | _ => True

/-- A refused step shows at an empty server and leaves the server alone. -/
theorem refused_step (guarded : config.requirepass = some pass)
    {session next : Session hasher} {event : SessionEvent hasher}
    (outside : session.connection.Outside)
    (refuses : session.Refuses pass event)
    (taken : session.step config event = some next) :
    next.connection.Outside ∧
      (event.own? ≠ none → next.server.Agrees session.server) ∧
      runActions (Connection.aloneStep config) session.connection
        event.own?.toList = some next.connection := by
  have kept : ∀ phase,
      ({ session.connection with phase := phase } : Connection).Outside :=
    fun _ => ⟨outside.unauthenticated, outside.notDownstream⟩
  rcases transition_of_step taken with
    server | stillOpen | waiting | ⟨-, downstream, -⟩ | ⟨chunk, waiting⟩ |
      ⟨moment, draining⟩
  · exact ⟨outside, fun own => absurd rfl own, rfl⟩
  · refine ⟨kept _, fun _ => ⟨rfl, rfl, rfl⟩, ?_⟩
    simp [SessionEvent.own?, runActions, Connection.aloneStep, OwnEvent.alone,
      step, stillOpen, Connection.close]
  · refine ⟨kept _, fun _ => ⟨rfl, rfl, rfl⟩, ?_⟩
    simp [SessionEvent.own?, runActions, Connection.aloneStep, OwnEvent.alone,
      step, waiting, Connection.close]
  · rw [outside.notDownstream] at downstream
    cases downstream
  · obtain ⟨outsideNext, agrees, same⟩ :=
      Connection.receive_refused outside session.server chunk
    refine ⟨outsideNext, fun _ => agrees, ?_⟩
    simp [SessionEvent.own?, runActions, Connection.aloneStep, OwnEvent.alone,
      step, waiting, same emptyServer]
  · obtain ⟨outsideNext, agrees, same⟩ := Connection.drain_refused guarded
      outside refuses moment session.server
    refine ⟨outsideNext, fun _ => agrees, ?_⟩
    rw [same ⟨fun _ => 0, .front⟩ emptyServer]
    simp [SessionEvent.own?, runActions, Connection.aloneStep, OwnEvent.alone,
      step, draining]

theorem outside_start (guarded : config.requirepass = some pass)
    (server : ServerState hasher) :
    (start config server).connection.Outside :=
  ⟨by simp [start, Connection.new, guarded], rfl⟩

theorem outside_of_reaches (guarded : config.requirepass = some pass)
    {server : ServerState hasher} {events : List (SessionEvent hasher)}
    {session : Session hasher}
    (reaches : Reaches (step config) (Refuses pass) (start config server)
      events session) :
    session.connection.Outside :=
  reaches.invariant
    (fun outside refuses taken =>
      (refused_step guarded outside refuses taken).1)
    (outside_start guarded server)

/-- A run of refused steps shows as a run at an empty server. -/
theorem alone_of_reaches (guarded : config.requirepass = some pass)
    {server : ServerState hasher} {events : List (SessionEvent hasher)}
    {session : Session hasher}
    (reaches : Reaches (step config) (Refuses pass) (start config server)
      events session) :
    runActions (Connection.aloneStep config) (Connection.new config)
      (events.filterMap SessionEvent.own?) = some session.connection := by
  have strong := reaches.strengthen
    (fun outside refuses taken =>
      (refused_step guarded outside refuses taken).1)
    (outside_start guarded server)
  exact strong.project Session.connection SessionEvent.own?
    (fun meets taken => (refused_step guarded meets.1 meets.2 taken).2.2)

/-- Some frame is a `PSYNC`, and no frame before it ends the connection. -/
def PsyncReached (config : ConnectionConfig) (frames : List (Bytes × Value)) :
    Prop :=
  ∃ before frame after, frames = before ++ frame :: after ∧
    Command.IsPsync frame.2 ∧
    (∀ earlier ∈ before, ¬ Command.IsQuit earlier.2 ∧
      earlier.1.length ≤ config.maxPayloadSize) ∧
    frame.1.length ≤ config.maxPayloadSize

section Frames

variable
  (accepted : ∀ frame ∈ frames, Value.decoder.Accepts frame.1 frame.2)
  (withheld : ∀ frame ∈ frames, ¬ Command.GivesPassword pass frame.2)
  (unreached : ¬ PsyncReached config frames)

include accepted withheld unreached in
/-- The frames decide what the drain loop finds next. -/
theorem nextRefused {connection : Connection} {unread : Bytes}
    (framed : connection.Framed frames unread)
    (continuing : connection.Continuing config)
    (draining : connection.phase = .draining) :
    connection.NextRefused pass := by
  have open_ : connection.phase ≠ .closed := by
    rw [draining]
    nofun
  obtain ⟨earlier, fits⟩ := continuing open_
  intro value consumed found
  rcases (framed.inStep open_).next accepted with
    ⟨frame, other, others, tail, first, front, -, attempted, -⟩ |
      ⟨attempted, -⟩
  · change Value.attempt connection.buffer = _ at attempted
    rw [found] at attempted
    cases attempted
    refine ⟨withheld (frame, value) (by rw [first]; simp), ?_⟩
    intro psync
    have short : frame.length ≤ config.maxPayloadSize := by
      rw [front, List.length_append] at fits
      omega
    exact unreached
      ⟨connection.handled, (frame, value), others, first, psync, earlier, short⟩
  · change Value.attempt connection.buffer = _ at attempted
    rw [found] at attempted
    cases attempted

include accepted withheld unreached in
theorem refuses_of_step {server : ServerState hasher}
    {allowed : Session hasher → SessionEvent hasher → Prop}
    {events : List (SessionEvent hasher)} {session next : Session hasher}
    {unread : Bytes}
    (reaches : Reaches (step config) allowed (start config server) events
      session)
    (delivered : (SessionEvent.reads events).flatten ++ unread =
      stream frames)
    {event : SessionEvent hasher}
    (taken : session.step config event = some next) :
    session.Refuses pass event := by
  rcases transition_of_step taken with
    - | - | - | - | - | ⟨moment, draining⟩
  case process =>
    exact nextRefused accepted withheld unreached
      (framed_of_reaches config accepted reaches delivered)
      (continuing_of_reaches reaches) draining
  all_goals trivial

include accepted withheld unreached in
/-- All steps of a run on the frames are refused. -/
theorem refused_of_reaches {server : ServerState hasher}
    {allowed : Session hasher → SessionEvent hasher → Prop}
    {events : List (SessionEvent hasher)} {session : Session hasher}
    {unread : Bytes}
    (reaches : Reaches (step config) allowed (start config server) events
      session)
    (delivered : (SessionEvent.reads events).flatten ++ unread =
      stream frames) :
    Reaches (step config) (Refuses pass) (start config server) events
      session := by
  generalize begins : start config server = first at reaches
  induction reaches generalizing unread with
  | refl => exact .refl _
  | snoc before meets taken ih =>
      subst begins
      rw [reads_snoc, List.append_assoc] at delivered
      exact .snoc (ih delivered)
        (refuses_of_step accepted withheld unreached before delivered taken)
        taken

end Frames

/-- Steps of the connection's own task leave the shared state unchanged, and
what it sends is the same next to any two servers whose other tasks do as they
please. -/
structure Noninterfering (config : ConnectionConfig)
    (frames : List (Bytes × Value)) : Prop where
  unchanged : ∀ {hasher : String → UInt64} {server : ServerState hasher}
    {events : List (SessionEvent hasher)} {event : SessionEvent hasher}
    {session next : Session hasher} {unread : Bytes},
    runActions (step config) (start config server) events = some session →
    session.step config event = some next →
    (SessionEvent.reads (events ++ [event])).flatten ++ unread =
      stream frames →
    event.own? ≠ none → next.server.Agrees session.server
  indistinguishable : ∀ {hasher hasher' : String → UInt64}
    {server : ServerState hasher} {server' : ServerState hasher'}
    {events : List (SessionEvent hasher)}
    {events' : List (SessionEvent hasher')} {session : Session hasher}
    {session' : Session hasher'} {unread : Bytes},
    runActions (step config) (start config server) events = some session →
    runActions (step config) (start config server') events' = some session' →
    events.filterMap SessionEvent.own? = events'.filterMap SessionEvent.own? →
    (SessionEvent.reads events).flatten ++ unread = stream frames →
    session.connection.sent = session'.connection.sent

theorem noninterfering_of_unreached (guarded : config.requirepass = some pass)
    (accepted : ∀ frame ∈ frames, Value.decoder.Accepts frame.1 frame.2)
    (withheld : ∀ frame ∈ frames, ¬ Command.GivesPassword pass frame.2)
    (unreached : ¬ PsyncReached config frames) :
    Noninterfering config frames where
  unchanged := by
    intro hasher server events event session next unread ran taken delivered own
    rw [reads_snoc, List.append_assoc] at delivered
    have reaches := refused_of_reaches accepted withheld unreached
      (reaches_of_runActions ran) delivered
    have refuses := refuses_of_step accepted withheld unreached reaches
      delivered taken
    exact (refused_step guarded (outside_of_reaches guarded reaches) refuses
      taken).2.1 own
  indistinguishable := by
    intro hasher hasher' server server' events events' session session' unread
      ran ran' same delivered
    have delivered' : (SessionEvent.reads events').flatten ++ unread =
        stream frames := by
      rw [SessionEvent.reads_own, ← same, ← SessionEvent.reads_own]
      exact delivered
    have first := alone_of_reaches guarded (refused_of_reaches accepted withheld
      unreached (reaches_of_runActions ran) delivered)
    have second := alone_of_reaches guarded (refused_of_reaches accepted
      withheld unreached (reaches_of_runActions ran') delivered')
    rw [same, second] at first
    rw [Option.some.inj first]

end Session

end RustiCache
