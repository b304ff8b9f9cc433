import RustiCache.ReplicaServer
import RustiCache.SlotOwnership

/-!
# Who has given the password

A server with a password counts a connection as authenticated exactly from the
first frame on that gives the password, however many connections there are and
whatever else they send.  So a command is executed only for a connection that
has given it.
-/

namespace RustiCache

/-- One of the frames gives the password. -/
def HasGiven (pass : String) (frames : List (Bytes × Value)) : Prop :=
  ∃ frame ∈ frames, Command.GivesPassword pass frame.2

theorem hasGiven_concat {pass : String} {frames : List (Bytes × Value)}
    {frame : Bytes × Value} :
    HasGiven pass (frames ++ [frame]) ↔
      HasGiven pass frames ∨ Command.GivesPassword pass frame.2 := by
  simp [HasGiven, or_and_right, exists_or]

theorem hasGiven_concat_other {pass : String} {frames : List (Bytes × Value)}
    {frame : Bytes × Value}
    (other : ¬ Command.GivesPassword pass frame.2) :
    HasGiven pass (frames ++ [frame]) ↔ HasGiven pass frames := by
  rw [hasGiven_concat, or_iff_left other]

/-- The frames whose handling has ended: all but one that waits to be
executed. -/
def Client.settled (client : Client) : List (Bytes × Value) :=
  match client.stage with
  | .checked _ _ => client.connection.handled.dropLast
  | _ => client.connection.handled

/-- The connection is authenticated exactly if it has given the password, and a
command that waits is that of the last frame. -/
structure Client.Keyed (pass : String) (client : Client) : Prop where
  authenticated : client.connection.isAuthenticated = true ↔
    HasGiven pass client.settled
  pending : ∀ rawCmd cmd, client.stage = .checked rawCmd cmd →
    ∃ value, client.connection.handled.getLast? = some (rawCmd, value) ∧
      Command.fromValue value = .ok cmd

theorem Command.guardAuth_iff {pass : String} {cmd : Command} :
    (guardAuth pass cmd).2 = true ↔ ∃ username, cmd = .auth username pass := by
  cases cmd with
  | auth username password =>
      rw [guardAuth]
      split
      next right => simp [right]
      next wrong => simp [wrong]
  | _ => simp [guardAuth]

namespace Client

variable {hasher : String → UInt64} {pass : String}

/-- A step that leaves the frames and the authentication alone. -/
theorem Keyed.of_same {client next : Client} (keyed : client.Keyed pass)
    (stage : next.stage = client.stage)
    (handled : next.connection.handled = client.connection.handled)
    (authenticated : next.connection.isAuthenticated =
      client.connection.isAuthenticated) : next.Keyed pass where
  authenticated := by
    rw [authenticated, keyed.authenticated, settled, settled, stage, handled]
  pending := by
    rw [stage, handled]
    exact keyed.pending

/-- Frames have been handled that do not give the password. -/
theorem Keyed.of_settled {client next : Client} (keyed : client.Keyed pass)
    (before : client.stage = .ready)
    (after : ∀ rawCmd cmd, next.stage ≠ .checked rawCmd cmd)
    (handled : HasGiven pass next.connection.handled ↔
      HasGiven pass client.connection.handled)
    (authenticated : next.connection.isAuthenticated =
      client.connection.isAuthenticated) : next.Keyed pass where
  authenticated := by
    have settledNext : next.settled = next.connection.handled := by
      rw [settled]
      split
      next rawCmd cmd waits => exact absurd waits (after rawCmd cmd)
      next => rfl
    have settledBefore : client.settled = client.connection.handled := by
      rw [settled, before]
    rw [authenticated, keyed.authenticated, settledNext, handled, settledBefore]
  pending := fun rawCmd cmd waits => absurd waits (after rawCmd cmd)

/-- A command that is redirected is not one that gives the password. -/
theorem ne_auth_of_redirect {cluster : Option ClusterTopology}
    {isAuthenticated : Bool} {cmd : Command} {reply : Bytes}
    (redirected : Connection.redirect cluster isAuthenticated cmd = some reply)
    (username : Option String) : cmd ≠ .auth username pass := by
  rintro rfl
  cases cluster <;> cases redirected

section Steps

variable {client : Client} (keyed : client.Keyed pass) (config : ConnectionConfig)
  (moment : Moment) (server : ServerState hasher)

include keyed

/-- The next frame is cut off the buffer. -/
theorem Keyed.begin (ready : client.stage = .ready) (registered : Option Nat)
    (forwarded : List Bytes) :
    let outcome := client.connection.begin config moment server
    Keyed pass ⟨outcome.1.connection, outcome.2, registered, forwarded⟩ := by
  intro outcome
  simp only [outcome, Connection.begin]
  cases found : Value.attempt client.connection.buffer with
  | complete value consumed =>
      have other : ∀ {result : Except String Command},
          Command.fromValue value = result →
          (∀ username, result ≠ .ok (.auth username pass)) →
          (HasGiven pass (client.connection.handled ++
              [(client.connection.buffer.take consumed, value)]) ↔
            HasGiven pass client.connection.handled) := by
        intro result decoded differs
        refine hasGiven_concat_other ?_
        rintro ⟨username, gives⟩
        exact differs username (decoded.symm.trans gives)
      dsimp only
      split
      next decoded =>
        exact keyed.of_settled ready (by simp) (other decoded (by simp)) rfl
      next decoded =>
        simp only [Connection.dispatch, decoded]
        exact keyed.of_settled ready (by simp) (other decoded (by simp)) rfl
      next cmd notPsync notQuit decoded =>
        split
        next reply redirected =>
          refine keyed.of_settled ready (by simp) (other decoded ?_) rfl
          intro username gives
          cases gives
          exact ne_auth_of_redirect redirected username rfl
        next passed =>
          constructor
          · rw [keyed.authenticated]
            simp [settled, ready]
          · rintro rawCmd waiting waits
            cases waits
            exact ⟨value, by simp, decoded⟩
      next reason decoded =>
        simp only [Connection.dispatch, decoded]
        exact keyed.of_settled ready (by simp) (other decoded (by simp)) rfl
  | incomplete =>
      have waits : client.connection.drain config moment server =
          ⟨server, { client.connection with phase := .waiting }⟩ := by
        rw [Connection.drain, found]
        split <;> rfl
      dsimp only
      rw [waits]
      exact keyed.of_settled ready (by simp) Iff.rfl rfl
  | malformed fault =>
      have filled : client.connection.buffer ≠ [] :=
        Value.ne_nil_of_attempt (by simp [found])
      simp only [Connection.drain, if_neg filled, found]
      cases fault with
      | parseError reason => exact keyed.of_settled ready (by simp) Iff.rfl rfl
      | panic => exact keyed.of_settled ready (by simp) Iff.rfl rfl

/-- The command that waits is executed. -/
theorem Keyed.finish (guarded : config.requirepass = some pass) {rawCmd : Bytes}
    {cmd : Command} (waits : client.stage = .checked rawCmd cmd)
    (registered : Option Nat) (forwarded : List Bytes) :
    Keyed pass ⟨(client.connection.finish config moment server rawCmd
      cmd).connection, .ready, registered, forwarded⟩ := by
  refine ⟨?_, by simp⟩
  obtain ⟨value, last, decoded⟩ := keyed.pending rawCmd cmd waits
  have before : client.settled = client.connection.handled.dropLast := by
    rw [settled, waits]
  have whole := List.dropLast_append_getLast? (rawCmd, value) last
  have gives : Command.GivesPassword pass value ↔
      ∃ username, cmd = .auth username pass := by
    rw [Command.GivesPassword, decoded]
    simp
  have known := keyed.authenticated
  rw [before] at known
  change (cmd.execute moment server (some rawCmd) config.requirepass
      client.connection.isAuthenticated).isAuthenticated = true ↔
    HasGiven pass client.connection.handled
  rw [← whole, hasGiven_concat, ← known, gives, guarded, Command.execute]
  cases client.connection.isAuthenticated with
  | true =>
      simp [Command.perform_isAuthenticated]
  | false =>
      simpa using Command.guardAuth_iff

theorem Keyed.turn (guarded : config.requirepass = some pass)
    (registered : Option Nat) (forwarded : List Bytes) :
    let outcome := client.connection.turn config moment server client.stage
    Keyed pass ⟨outcome.1.connection, outcome.2, registered, forwarded⟩ := by
  cases stage : client.stage with
  | ready => exact keyed.begin config moment server stage registered forwarded
  | checked rawCmd cmd =>
      exact keyed.finish config moment server guarded stage registered forwarded
  | announced =>
      refine ⟨?_, by simp [Connection.turn]⟩
      have known := keyed.authenticated
      rw [settled, stage] at known
      exact known
  | transferred =>
      refine ⟨?_, by simp [Connection.turn]⟩
      have known := keyed.authenticated
      rw [settled, stage] at known
      exact known

end Steps

end Client

namespace ServerPool

variable {hasher : String → UInt64} {config : PoolConfig} {pass : String}
  {pool next : ServerPool hasher} {action : PoolAction}

/-- Every connection is authenticated exactly if it has given the password. -/
def Keyed (pass : String) (pool : ServerPool hasher) : Prop :=
  ∀ channel client, pool.clients channel = some client → client.Keyed pass

theorem Keyed.step (guarded : config.requirepass = some pass)
    (keyed : pool.Keyed pass) (taken : pool.step config action = some next) :
    next.Keyed pass := by
  cases transition_of_step taken with
  | accept fresh =>
      refine forall_of_update keyed rfl ⟨?_, by simp⟩
      simp [Client.settled, HasGiven, Connection.new, PoolConfig.ofChannel,
        guarded]
  | hangUp own found stillOpen closed authenticated downstream handled =>
      exact forall_of_update keyed rfl
        ((keyed _ _ found).of_same rfl handled authenticated)
  | fill found | forward found =>
      exact forall_of_update keyed rfl
        ((keyed _ _ found).of_same rfl rfl rfl)
  | @turn channel moment client _ _ _ found draining _ =>
      -- Which frame has been handled is not part of the transition.
      rw [ServerPool.step, found, Option.bind_some, if_pos draining] at taken
      exact forall_of_update keyed
        (congrArg ServerPool.clients (Option.some.inj taken)).symm
        ((keyed channel client found).turn (config.ofChannel channel) moment
          pool.server guarded _ _)
  | propagate | purge => exact keyed

/-- A connection changes the database or the cluster in the step that executes a
command, if it is authenticated. -/
theorem unchanged_of_barred {channel : ChannelId} {client : Client}
    {server : ServerState hasher} {connection : Connection}
    {stage : DispatchStage} (guarded : config.requirepass = some pass)
    (barred : client.connection.isAuthenticated = false)
    (turned : client.connection.Turn (config.ofChannel channel) pool.server
      client.stage server connection stage) :
    server.db = pool.server.db ∧ server.cluster = pool.server.cluster := by
  generalize client.stage = before at turned
  cases turned with
  | finish moment rawCmd cmd =>
      have refused := (Command.execute_of_barred moment pool.server rawCmd
        (show (config.requirepass.isSome &&
          !client.connection.isAuthenticated) = true by
            rw [guarded, barred]; rfl) cmd).1
      simp only [Connection.finish, PoolConfig.ofChannel, refused, and_self]
  | _ => exact ⟨rfl, rfl⟩

/-- **Only who has given the password acts on the data.**  In every run of the
connections and the purge of a server with a password, whatever the connections
send and however their steps interleave, a connection counts as authenticated
exactly if a frame that it has sent gives the password, and any step that changes
the database or the cluster is the purge or that of a connection that has given it
before. -/
theorem changes_need_password {server : ServerState hasher}
    {actions : List PoolAction} (guarded : config.requirepass = some pass)
    (ran : runActions (step config) (start server) actions = some pool) :
    (∀ channel client, pool.clients channel = some client →
      (client.connection.isAuthenticated = true ↔
        HasGiven pass client.settled)) ∧
    ∀ action next, pool.step config action = some next →
      (next.server.db ≠ pool.server.db ∨
        next.server.cluster ≠ pool.server.cluster) →
      (∃ now samplePerShard, action = .purge now samplePerShard) ∨
      ∃ channel moment client, action = .process channel moment ∧
        pool.clients channel = some client ∧ HasGiven pass client.settled := by
  have initially : (start server).Keyed pass := by
    intro channel client stored
    cases stored
  have keyed : pool.Keyed pass := Reaches.invariant
    (fun keyed _ taken => keyed.step guarded taken)
    (reaches_of_runActions ran) initially
  refine ⟨fun channel client found => (keyed channel client found).authenticated,
    ?_⟩
  intro action next taken changed
  cases transition_of_step taken with
  | @turn channel moment client server connection stage found draining turned =>
      refine Or.inr ⟨channel, moment, client, rfl, found, ?_⟩
      rw [← (keyed channel client found).authenticated]
      by_contra barred
      rw [Bool.not_eq_true] at barred
      obtain ⟨sameDb, sameCluster⟩ := unchanged_of_barred guarded barred turned
      exact changed.elim (fun differs => differs sameDb)
        fun differs => differs sameCluster
  | purge now samplePerShard => exact Or.inl ⟨now, samplePerShard, rfl⟩
  | accept | hangUp | fill | forward | propagate =>
      exact absurd rfl (changed.elim id fun differs => absurd rfl differs)

/-- One connection gives the password and is about to write, the other writes
without it. -/
def lockedActions : List PoolAction :=
  let moment : Moment := ⟨fun _ => 0, .front⟩
  [.accept 0, .accept 1,
    .read 0 ((Value.wordsFrame ["AUTH", "secret"]).1 ++
      (Value.wordsFrame ["SET", "a", "v"]).1),
    .read 1 (Value.wordsFrame ["SET", "a", "w"]).1,
    .process 0 moment, .process 0 moment, .process 1 moment,
    .process 1 moment, .process 0 moment]

theorem changes_need_password_lockedActions :
    let server : ServerState fun _ => 0 :=
      ⟨Db.withConfig _ 1 0, .newMaster none, fun _ => none, none⟩
    let config : PoolConfig := ⟨some "secret", 1024⟩
    ∃ pool next, ∃ moment : Moment,
      runActions (step config) (start server) lockedActions = some pool ∧
      pool.step config (.process 0 moment) = some next ∧
      next.server.db ≠ pool.server.db ∧
      ∃ client stranger, pool.clients 0 = some client ∧
        HasGiven "secret" client.settled ∧ pool.clients 1 = some stranger ∧
        ¬ HasGiven "secret" stranger.settled := by
  intro server config
  let moment : Moment := ⟨fun _ => 0, .front⟩
  have found : ((runActions (step config) (start server) lockedActions).bind
      fun pool => (pool.step config (.process 0 moment)).map fun next =>
        ((pool.server.db.contents "a").isSome,
          (next.server.db.contents "a").isSome,
          (pool.clients 1).map (·.connection.isAuthenticated))) =
      some (false, true, some false) := by
    decide +kernel
  obtain ⟨pool, ran, stepped⟩ := Option.bind_eq_some_iff.mp found
  obtain ⟨next, taken, facts⟩ := Option.map_eq_some_iff.mp stepped
  simp only [Prod.mk.injEq] at facts
  obtain ⟨absent, present, barred⟩ := facts
  obtain ⟨stranger, isStranger, barred⟩ := Option.map_eq_some_iff.mp barred
  have changed : next.server.db ≠ pool.server.db := by
    intro same
    rw [same, absent] at present
    cases present
  obtain ⟨known, changes⟩ := changes_need_password rfl ran
  rcases changes _ _ taken (Or.inl changed) with
    ⟨now, samplePerShard, isPurge⟩ | ⟨channel, later, client, own, isClient, given⟩
  · cases isPurge
  · cases own
    refine ⟨pool, next, moment, ran, taken, changed, client, stranger, isClient,
      given, isStranger, ?_⟩
    rw [← known 1 stranger isStranger, barred]
    decide

end ServerPool

end RustiCache
