import RustiCache.HandshakeCompletion

/-!
# The handshake is exact

However the bytes are cut into chunks and whatever is propagated meanwhile, the
replica reads for each command exactly what the master has written for it, and
its stream starts with the first byte propagated after the registration.  A
master that refuses a command for its size closes the connection instead, and
its replica never gets to the stream.
-/

namespace RustiCache

/-- The action is not one of the other tasks of the master, unless it
propagates. -/
def LinkAction.isOwn {hasher : String → UInt64} : LinkAction hasher → Bool
  | others _ => false
  | _ => true

namespace ReplicationLink

variable {hasher : String → UInt64} {config : ConnectionConfig}
  {masterauth : Option String} {myPort : UInt16} {replid : String}
  {link : ReplicationLink hasher}

/-- Actions of the replica and of its connection, and propagation, are allowed
at any time. -/
theorem reaches_of_isOwn {actions : List (LinkAction hasher)}
    (own : ∀ action ∈ actions, action.isOwn = true)
    {next : ReplicationLink hasher}
    (ran : runActions (step config) link actions = some next) :
    Reaches (step config) (Respects config) link actions next := by
  refine reaches_of_always (fun action member state => ?_) ran
  cases action with
  | others server => cases own _ member
  | _ => trivial

/-- Before a command is sent, the replies to the earlier ones have been read,
and nothing else. -/
theorem InLockStep.exact_at_sending
    (inLockStep : InLockStep config masterauth myPort replid link)
    {cmd : HandshakeCommand} {later : List HandshakeCommand}
    (stage : link.replica.stage = .sending cmd later) :
    link.replica.reads = link.answers ∧
      link.answers.map Prod.fst ++ (cmd :: later).map HandshakeCommand.bytes =
        (HandshakeCommand.handshake masterauth myPort).map
          HandshakeCommand.bytes ∧
      link.replica.buffer = [] ∧ link.inFlight = [] := by
  obtain ⟨asked, owed, wires, turn⟩ := inLockStep
  obtain ⟨⟨past, split, covered⟩, exactly, unregistered, rfl, rfl⟩ :=
    turn.of_sending stage
  obtain ⟨buffer, inFlight, -⟩ := wires.nothing_pending unregistered
  refine ⟨exactly, ?_, buffer, inFlight⟩
  rw [covered, split, List.map_append]

/-- When the stream starts, the handshake has been read to its end and no
further. -/
theorem InLockStep.exact_at_streaming
    (inLockStep : InLockStep config masterauth myPort replid link)
    (stage : link.replica.stage = .streaming) :
    link.replica.reads = link.answers ∧
      link.answers.map Prod.fst =
        (HandshakeCommand.handshake masterauth myPort).map
          HandshakeCommand.bytes ∧
      link.replica.replState.masterReplid = replid ∧
      link.replica.buffer ++ (link.inFlight ++ link.queued config) =
        link.propagated.flatten := by
  obtain ⟨asked, owed, wires, turn⟩ := inLockStep
  cases turn with
  | sending split turnStage =>
      rw [stage] at turnStage
      cases turnStage
  | asking split turnStage =>
      rw [stage] at turnStage
      cases turnStage
  | answered split simple line turnStage =>
      rw [stage] at turnStage
      cases turnStage
  | resyncing covered replies reads isRegistered resync =>
      cases resync with
      | streaming turnStage learned =>
          rw [List.append_nil] at replies
          exact ⟨reads.trans replies.symm, covered, learned, wires.pending⟩
      | line turnStage =>
          rw [stage] at turnStage
          cases turnStage
      | header turnStage =>
          rw [stage] at turnStage
          cases turnStage
      | payload turnStage =>
          rw [stage] at turnStage
          cases turnStage

/-- Replica and master stay in lock step: every reply is read by the step that
waits for it, the replica learns the master's id, the stream is exactly what has
been propagated, and the handshake can always be completed. -/
theorem handshake_in_lockStep (myPort : UInt16) (replState : ReplicationState)
    {server : ServerState hasher}
    (admissible : Admissible config masterauth myPort
      server.replState.masterReplid)
    (fresh : server.channels config.channel = some [])
    (unregistered : config.channel ∉ server.replState.downstreamSenders)
    {actions : List (LinkAction hasher)}
    (reaches : Reaches (step config) (Respects config)
      (start config masterauth myPort server replState) actions link) :
    (∀ reason, link.replica.stage ≠ .failed reason) ∧
      (∀ cmd later, link.replica.stage = .sending cmd later →
        link.replica.reads = link.answers ∧
          link.answers.map Prod.fst ++
              (cmd :: later).map HandshakeCommand.bytes =
            (HandshakeCommand.handshake masterauth myPort).map
              HandshakeCommand.bytes ∧
          link.replica.buffer = [] ∧ link.inFlight = []) ∧
      (link.replica.stage = .streaming →
        link.replica.reads = link.answers ∧
          link.answers.map Prod.fst =
            (HandshakeCommand.handshake masterauth myPort).map
              HandshakeCommand.bytes ∧
          link.replica.replState.masterReplid =
            server.replState.masterReplid ∧
          link.replica.buffer ++ (link.inFlight ++ link.queued config) =
            link.propagated.flatten) ∧
      ∃ more final, Reaches (step config) (Respects config) link more final ∧
        final.replica.stage = .streaming := by
  have inLockStep := inLockStep_of_reaches admissible fresh unregistered reaches
  refine ⟨fun reason => ?_, fun cmd later stage => ?_, fun stage => ?_, ?_⟩
  · obtain ⟨asked, owed, -, turn⟩ := inLockStep
    exact turn.not_failed reason
  · exact inLockStep.exact_at_sending stage
  · exact inLockStep.exact_at_streaming stage
  · exact inLockStep.completes admissible ⟨fun _ => 0, .front⟩

/-- A run of the handshake with a password, in which the master propagates two
commands before the replica has read the reply to `PSYNC`.  The last chunk holds
the end of the snapshot and the start of the stream. -/
def earlyStream : List (LinkAction fun _ => 0) :=
  let moment : Moment := ⟨fun _ => 0, .front⟩
  [.send, .deliver 5, .process moment, .deliver 9, .process moment,
    .process moment, .receive 37, .receive 1, .advance,
    .send, .deliver 22, .process moment, .process moment, .receive 5, .advance,
    .send, .deliver 49, .process moment, .process moment, .receive 5, .advance,
    .send, .deliver 59, .process moment, .process moment, .receive 5, .advance,
    .send, .deliver 30, .process moment,
    .propagate (Value.wordsFrame ["SET", "k", "v"]).1, .process moment,
    .replicate, .propagate (Value.wordsFrame ["DEL", "k"]).1,
    .receive 60, .advance, .receive 50, .advance, .receive 42, .advance]

theorem handshake_in_lockStep_earlyStream :
    let config : ConnectionConfig := ⟨some "pw", 1024, 0⟩
    let server : ServerState (fun _ => 0) :=
      ⟨.withConfig _ 4 0, .newMaster none, fun _ => some [], none⟩
    ∃ link, Reaches (step config) (Respects config)
        (start config (some "pw") 6380 server (.newReplica "127.0.0.1" 6379))
        earlyStream link ∧
      link.replica.stage = .streaming ∧
      link.propagated = [(Value.wordsFrame ["SET", "k", "v"]).1,
        (Value.wordsFrame ["DEL", "k"]).1] ∧
      link.replica.reads = link.answers ∧
      link.replica.replState.masterReplid =
        server.replState.masterReplid ∧
      link.replica.buffer ++ (link.inFlight ++ link.queued config) =
        link.propagated.flatten := by
  intro config server
  have ends : (runActions (step config)
      (start config (some "pw") 6380 server (.newReplica "127.0.0.1" 6379))
      earlyStream).map (fun link => (link.replica.stage, link.propagated)) =
        some (.streaming, [(Value.wordsFrame ["SET", "k", "v"]).1,
          (Value.wordsFrame ["DEL", "k"]).1]) := by
    decide +kernel
  obtain ⟨link, ran, outcome⟩ := Option.map_eq_some_iff.mp ends
  obtain ⟨stage, propagated⟩ := Prod.mk.inj outcome
  have reaches := reaches_of_isOwn (by decide) ran
  obtain ⟨-, -, exactly, -⟩ := handshake_in_lockStep 6380
    (.newReplica "127.0.0.1" 6379)
    ⟨by decide, by decide, by decide, solid_of_all _ (by decide)⟩ rfl
    (by decide) reaches
  obtain ⟨reads, -, learned, stream⟩ := exactly stage
  exact ⟨link, reaches, stage, propagated, reads, learned, stream⟩

/-- The master has closed the connection and the replica has read all that was
written before. -/
structure Abandoned (known : String) (link : ReplicationLink hasher) :
    Prop where
  closed : link.master.connection.phase = .closed
  empty : link.replica.buffer = []
  landed : link.inFlight = []
  unanswered : ∃ cmd later, link.replica.stage = .sending cmd later ∨
    link.replica.stage = .awaiting cmd later
  unchanged : link.replica.replState.masterReplid = known

theorem Abandoned.kept {known : String} {next : ReplicationLink hasher}
    (abandoned : Abandoned known link) {action : LinkAction hasher}
    (taken : step config link action = some next) : Abandoned known next := by
  have closed := abandoned.closed
  obtain ⟨cmd, later, stage⟩ := abandoned.unanswered
  cases action with
  | send =>
      obtain ⟨⟨bytes, replica⟩, sent, rfl⟩ := Option.map_eq_some_iff.mp taken
      obtain ⟨next, others, -, -, rfl⟩ := send_cases sent
      exact ⟨closed, abandoned.empty, abandoned.landed,
        ⟨next, others, .inr rfl⟩, abandoned.unchanged⟩
  | advance =>
      obtain ⟨replica, advanced, -⟩ := Option.map_eq_some_iff.mp taken
      rcases stage with sending | awaiting
      · rw [ReplicaTask.advance, sending] at advanced
        cases advanced
      · rw [advance_nil awaiting abandoned.empty] at advanced
        cases advanced
  | receive count =>
      simp only [step, abandoned.landed, List.length_nil] at taken
      rw [if_neg (by omega)] at taken
      cases taken
  | deliver count => simp [step, Session.step, closed] at taken
  | process moment => simp [step, Session.step, closed] at taken
  | replicate => simp [step, Session.step, closed] at taken
  | propagate rawResp =>
      simp only [step, Session.step, Option.map_some,
        Option.some.injEq] at taken
      subst taken
      exact ⟨closed, abandoned.empty, abandoned.landed, ⟨cmd, later, stage⟩,
        abandoned.unchanged⟩
  | others server =>
      simp only [step, Session.step, Option.map_some,
        Option.some.injEq] at taken
      subst taken
      exact ⟨closed, abandoned.empty, abandoned.landed, ⟨cmd, later, stage⟩,
        abandoned.unchanged⟩

/-- A run in which the password is too long for the master. -/
def longPassword : List (LinkAction fun _ => 0) :=
  let moment : Moment := ⟨fun _ => 0, .front⟩
  [.send, .deliver 14, .process moment, .process moment, .receive 38, .advance,
    .send, .deliver 68, .receive 36, .advance]

/-- The replica takes the refusal of its password for the reply, and then waits
for a master that is gone. -/
theorem password_beyond_payload_bound :
    let pass := "a password that is longer than its master takes"
    let config : ConnectionConfig := ⟨some pass, 64, 0⟩
    let server : ServerState (fun _ => 0) :=
      ⟨.withConfig _ 4 0, .newMaster none, fun _ => some [], none⟩
    ∃ link, Reaches (step config) (Respects config)
        (start config (some pass) 6380 server (.newReplica "127.0.0.1" 6379))
        longPassword link ∧
      link.replica.stage =
        .sending (.listeningPort 6380) [.capa, .psync] ∧
      link.replica.reads ≠ link.answers ∧
      ∀ more final,
        Reaches (step config) (Respects config) link more final →
          final.replica.stage ≠ .streaming ∧
            final.replica.replState.masterReplid ≠
              server.replState.masterReplid := by
  intro pass config server
  have ends : (runActions (step config)
      (start config (some pass) 6380 server (.newReplica "127.0.0.1" 6379))
      longPassword).map (fun link => decide
        (link.replica.stage =
            .sending (.listeningPort 6380) [.capa, .psync] ∧
          link.replica.reads ≠ link.answers ∧
          link.master.connection.phase = .closed ∧
          link.replica.buffer = [] ∧ link.inFlight = [] ∧
          link.replica.replState.masterReplid = "?")) = some true := by
    decide +kernel
  obtain ⟨link, ran, outcome⟩ := Option.map_eq_some_iff.mp ends
  obtain ⟨stage, differ, closed, empty, landed, unchanged⟩ :=
    of_decide_eq_true outcome
  have abandoned : Abandoned "?" link :=
    ⟨closed, empty, landed, ⟨_, _, .inl stage⟩, unchanged⟩
  refine ⟨link, reaches_of_isOwn (by decide) ran, stage, differ, ?_⟩
  intro more final reaches
  have last := reaches.invariant (fun holds _ taken =>
    Abandoned.kept holds taken) abandoned
  obtain ⟨cmd, later, sending | awaiting⟩ := last.unanswered
  · rw [sending, last.unchanged]
    exact ⟨nofun, by decide⟩
  · rw [awaiting, last.unchanged]
    exact ⟨nofun, by decide⟩

end ReplicationLink

end RustiCache
