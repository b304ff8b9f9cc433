import RustiCache.ConnectionFraming

/-!
# Clients without the password

A server with a password answers a client that has not given it with errors
that depend on the client's frames alone.  Such a connection can be run next to
an empty server: apart from `PSYNC`, which is served without looking at the
password, every step takes the same course there and leaves the shared state
alone.
-/

namespace RustiCache

/-- An event of the connection's own task, without what it sees of the clock and
of the tables. -/
inductive OwnEvent where
  | shutdown
  | disconnect
  | replicate
  | read (chunk : Bytes)
  | process
deriving DecidableEq

namespace SessionEvent

variable {hasher : String → UInt64}

/-- The event if it is one of the connection's own task. -/
def own? : SessionEvent hasher → Option OwnEvent
  | shutdown => some .shutdown
  | disconnect => some .disconnect
  | replicate => some .replicate
  | read chunk => some (.read chunk)
  | process _ => some .process
  | others _ => none

end SessionEvent

/-- The store, the replication state and the topology are the same. -/
structure ServerState.Agrees {hasher : String → UInt64}
    (first second : ServerState hasher) : Prop where
  db : first.db = second.db
  replState : first.replState = second.replState
  cluster : first.cluster = second.cluster

namespace Command

/-- The frame gives the password. -/
def GivesPassword (pass : String) (value : Value) : Prop :=
  ∃ username, fromValue value = .ok (.auth username pass)

def IsPsync (value : Value) : Prop :=
  ∃ replId offset, fromValue value = .ok (.psync replId offset)

def IsQuit (value : Value) : Prop :=
  fromValue value = .ok .quit

variable {hasher : String → UInt64}

theorem guardAuth_stays {pass : String} {cmd : Command}
    (withheld : ∀ username, cmd ≠ .auth username pass) :
    (guardAuth pass cmd).2 = false := by
  cases cmd with
  | auth username password =>
      have wrong : password ≠ pass := by
        rintro rfl
        exact withheld username rfl
      rw [guardAuth, if_neg wrong]
  | _ => rfl

end Command

namespace Connection

variable {hasher : String → UInt64} {config : ConnectionConfig} {pass : String}

/-- The connection has neither the password nor the replication stream. -/
structure Outside (connection : Connection) : Prop where
  unauthenticated : connection.isAuthenticated = false
  notDownstream : connection.isDownstreamReplica = false

/-- What a frame without the password does to an outside connection. -/
def refuse (pass : String) (connection : Connection) (value : Value) :
    Connection :=
  match Command.fromValue value with
  | .ok .quit => { connection.write Value.ok.serialize with phase := .closed }
  | .ok cmd => connection.write (Command.guardAuth pass cmd).1.serialize
  | .error reason => connection.write (Value.error reason).serialize

theorem Outside.refuse {connection : Connection} (outside : connection.Outside)
    (value : Value) : (connection.refuse pass value).Outside := by
  rw [Connection.refuse]
  split
  · exact ⟨outside.unauthenticated, outside.notDownstream⟩
  · exact ⟨outside.unauthenticated, outside.notDownstream⟩
  · exact ⟨outside.unauthenticated, outside.notDownstream⟩

theorem redirect_unauthenticated (cluster : Option ClusterTopology)
    (cmd : Command) : redirect cluster false cmd = none := by
  unfold redirect
  split <;> simp

theorem serve_refused (guarded : config.requirepass = some pass)
    (moment : Moment) (server : ServerState hasher) {connection : Connection}
    (outside : connection.Outside) (rawCmd : Bytes) {cmd : Command}
    (withheld : ∀ username, cmd ≠ .auth username pass) :
    serve config moment server connection rawCmd cmd =
      ⟨server,
        connection.write (Command.guardAuth pass cmd).1.serialize⟩ := by
  rw [serve, outside.unauthenticated, redirect_unauthenticated]
  simp only [Command.execute, guarded, Command.guardAuth_stays withheld,
    Bool.false_eq_true, if_false, write, Option.map_some, Option.getD_some]
  rw [← outside.unauthenticated]

/-- A frame that is neither the password nor `PSYNC` is refused. -/
theorem dispatch_refused (guarded : config.requirepass = some pass)
    (moment : Moment) (server : ServerState hasher) {connection : Connection}
    (outside : connection.Outside) (rawCmd : Bytes) {value : Value}
    (withheld : ¬ Command.GivesPassword pass value)
    (noPsync : ¬ Command.IsPsync value) :
    (dispatch config moment server connection rawCmd value).connection =
        connection.refuse pass value ∧
      (dispatch config moment server connection rawCmd value).server.Agrees
        server := by
  rw [dispatch, refuse]
  split
  next replId offset found => exact absurd ⟨replId, offset, found⟩ noPsync
  next found =>
    rw [found]
    exact ⟨rfl, rfl, rfl, rfl⟩
  next cmd notPsync notQuit found =>
    have withheldCmd : ∀ username, cmd ≠ .auth username pass := by
      rintro username rfl
      exact withheld ⟨username, found⟩
    rw [serve_refused guarded moment server outside rawCmd withheldCmd]
    refine ⟨?_, rfl, rfl, rfl⟩
    split
    next quits =>
      rw [found] at quits
      cases quits
      exact absurd rfl notQuit
    next other _ same =>
      rw [found] at same
      cases same
      rfl
    next failed =>
      rw [found] at failed
      cases failed
  next reason found =>
    rw [found]
    exact ⟨rfl, rfl, rfl, rfl⟩

/-- The next frame of the buffer is neither the password nor `PSYNC`. -/
def NextRefused (pass : String) (connection : Connection) : Prop :=
  ∀ value consumed,
    Value.attempt connection.buffer = .complete value consumed →
      ¬ Command.GivesPassword pass value ∧ ¬ Command.IsPsync value

theorem drain_refused (guarded : config.requirepass = some pass)
    {connection : Connection} (outside : connection.Outside)
    (refused : connection.NextRefused pass) (moment : Moment)
    (server : ServerState hasher) :
    (connection.drain config moment server).connection.Outside ∧
      (connection.drain config moment server).server.Agrees server ∧
      ∀ {hasher' : String → UInt64} (moment' : Moment)
        (server' : ServerState hasher'),
        (connection.drain config moment server).connection =
          (connection.drain config moment' server').connection := by
  simp only [drain]
  split
  · exact ⟨⟨outside.unauthenticated, outside.notDownstream⟩, ⟨rfl, rfl, rfl⟩,
      fun _ _ => rfl⟩
  · split
    next value consumed found =>
      obtain ⟨withheld, noPsync⟩ := refused value consumed found
      have outsideNext : Outside
          { connection with
            buffer := connection.buffer.drop consumed
            handled := connection.handled ++
              [(connection.buffer.take consumed, value)] } :=
        ⟨outside.unauthenticated, outside.notDownstream⟩
      obtain ⟨answered, agrees⟩ := dispatch_refused guarded moment server
        outsideNext (connection.buffer.take consumed) withheld noPsync
      refine ⟨?_, agrees, ?_⟩
      · rw [answered]
        exact outsideNext.refuse value
      · intro hasher' moment' server'
        rw [answered, (dispatch_refused guarded moment' server' outsideNext
          (connection.buffer.take consumed) withheld noPsync).1]
    · exact ⟨⟨outside.unauthenticated, outside.notDownstream⟩,
        ⟨rfl, rfl, rfl⟩, fun _ _ => rfl⟩
    · exact ⟨⟨outside.unauthenticated, outside.notDownstream⟩,
        ⟨rfl, rfl, rfl⟩, fun _ _ => rfl⟩
    · exact ⟨⟨outside.unauthenticated, outside.notDownstream⟩,
        ⟨rfl, rfl, rfl⟩, fun _ _ => rfl⟩

theorem receive_refused {connection : Connection}
    (outside : connection.Outside) (server : ServerState hasher)
    (chunk : Bytes) :
    (connection.receive config server chunk).connection.Outside ∧
      (connection.receive config server chunk).server.Agrees server ∧
      ∀ {hasher' : String → UInt64} (server' : ServerState hasher'),
        (connection.receive config server chunk).connection =
          (connection.receive config server' chunk).connection := by
  simp only [receive]
  split
  · exact ⟨⟨outside.unauthenticated, outside.notDownstream⟩,
      ⟨rfl, rfl, rfl⟩, fun _ => rfl⟩
  · split
    · exact ⟨⟨outside.unauthenticated, outside.notDownstream⟩,
        ⟨rfl, rfl, rfl⟩, fun _ => rfl⟩
    · exact ⟨⟨outside.unauthenticated, outside.notDownstream⟩,
        ⟨rfl, rfl, rfl⟩, fun _ => rfl⟩

end Connection

end RustiCache
