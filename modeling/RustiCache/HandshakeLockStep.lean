import RustiCache.HandshakeTurns

/-!
# Replica and master in lock step

Every action of the replica, the master or another task of the master keeps the
wires in accordance with the turn.
-/

namespace RustiCache

namespace ReplicationLink

variable {hasher : String → UInt64} (config : ConnectionConfig)

/-- The wires carry what is due at the turn. -/
def InLockStep (masterauth : Option String) (myPort : UInt16)
    (replid : String) (link : ReplicationLink hasher) : Prop :=
  ∃ asked owed, Wires config replid link asked owed ∧
    Turn (HandshakeCommand.handshake masterauth myPort) replid link.replica
      link.answers link.master.connection.isDownstreamReplica asked owed

variable {config}

section Steps

variable {masterauth : Option String} {myPort : UInt16} {replid : String}
  {link next : ReplicationLink hasher}

theorem InLockStep.send
    (inLockStep : InLockStep config masterauth myPort replid link)
    (taken : step config link .send = some next) :
    InLockStep config masterauth myPort replid next := by
  obtain ⟨asked, owed, wires, turn⟩ := inLockStep
  obtain ⟨⟨bytes, replica⟩, sent, rfl⟩ := Option.map_eq_some_iff.mp taken
  obtain ⟨cmd, later, stage, rfl, rfl⟩ := send_cases sent
  obtain ⟨⟨past, split, covered⟩, exactly, unregistered, rfl, rfl⟩ :=
    turn.of_sending stage
  refine ⟨_, _, wires.send rfl, .asking split rfl covered ?_ unregistered⟩
  dsimp only
  rw [exactly]

theorem InLockStep.advance
    (admissible : Admissible config masterauth myPort replid)
    (inLockStep : InLockStep config masterauth myPort replid link)
    (taken : step config link .advance = some next) :
    InLockStep config masterauth myPort replid next := by
  obtain ⟨asked, owed, wires, turn⟩ := inLockStep
  obtain ⟨replica, advanced, rfl⟩ := Option.map_eq_some_iff.mp taken
  cases turn with
  | sending split stage =>
      rw [ReplicaTask.advance, stage] at advanced
      cases advanced
  | asking split stage covered reads unregistered =>
      obtain ⟨empty, -⟩ := wires.nothing_pending unregistered
      rw [advance_nil stage empty] at advanced
      cases advanced
  | @answered past later cmd before reply split simple line stage covered
      replies reads unregistered =>
      rw [← List.append_nil owed] at wires
      obtain ⟨⟨tail, rfl⟩, wires⟩ := wires.advance
        (ReplicaTask.readsOff_simple stage simple line) advanced
      cases later with
      | nil =>
          exact absurd ((HandshakeCommand.last_iff_psync split).mp rfl) simple
      | cons following others =>
          refine ⟨_, _, wires, .sending
            (split.trans (List.append_cons past cmd (following :: others)))
            rfl ?_ ?_ unregistered⟩
          · rw [replies, List.map_append, List.map_append, covered]
            rfl
          · dsimp only
            rw [reads, credit_snoc, replies]
            rfl
  | @resyncing before consumed _ covered replies reads isRegistered resync =>
      rcases resync.next admissible.nonempty admissible.solid with
        ⟨stage, -⟩ |
          ⟨piece, later, stage, replState, rfl, -, readsOff, goesOn, -⟩
      · rw [ReplicaTask.advance, stage] at advanced
        cases advanced
      · obtain ⟨⟨tail, rfl⟩, wires⟩ := wires.advance readsOff advanced
        rw [← List.append_assoc] at replies
        have readsNext := congrArg (ReplicaTask.credit piece) reads
        rw [credit_snoc] at readsNext
        exact ⟨_, _, wires, .resyncing covered replies readsNext isRegistered
          (goesOn _ _)⟩

theorem InLockStep.receive
    (inLockStep : InLockStep config masterauth myPort replid link) {count : Nat}
    (taken : step config link (.receive count) = some next) :
    InLockStep config masterauth myPort replid next := by
  obtain ⟨asked, owed, wires, turn⟩ := inLockStep
  simp only [step] at taken
  split at taken
  next bounds =>
    obtain ⟨replica, received, rfl⟩ := Option.map_eq_some_iff.mp taken
    have nonempty : link.inFlight.take count ≠ [] := by
      rw [← List.length_pos_iff, List.length_take]
      omega
    rw [receive_cases nonempty received]
    exact ⟨asked, owed, wires.receive bounds.2, turn.refill _⟩
  next => cases taken

theorem Turn.asked_fits
    (admissible : Admissible config masterauth myPort replid)
    {replica : ReplicaTask} {answers : List (Bytes × Bytes)}
    {isDownstreamReplica : Bool} {asked owed : Bytes}
    (turn : Turn (HandshakeCommand.handshake masterauth myPort) replid replica
      answers isDownstreamReplica asked owed) :
    asked.length ≤ config.maxPayloadSize := by
  cases turn with
  | asking split => exact admissible.fits _ (by rw [split]; simp)
  | _ => exact Nat.zero_le _

/-- What has been asked is empty or a frame. -/
theorem Turn.accepted
    (admissible : Admissible config masterauth myPort replid)
    {replica : ReplicaTask} {answers : List (Bytes × Bytes)}
    {isDownstreamReplica : Bool} {asked owed : Bytes}
    (turn : Turn (HandshakeCommand.handshake masterauth myPort) replid replica
      answers isDownstreamReplica asked owed) :
    ∃ value, asked ≠ [] → Value.decoder.Accepts asked value := by
  cases turn with
  | asking split =>
      exact ⟨_, fun _ => HandshakeCommand.accepts
        (HandshakeCommand.short_of_handshake admissible.storable
          (by rw [split]; simp))⟩
  | _ => exact ⟨Value.ok, fun busy => absurd rfl busy⟩

theorem InLockStep.deliver
    (admissible : Admissible config masterauth myPort replid)
    (inLockStep : InLockStep config masterauth myPort replid link) {count : Nat}
    (taken : step config link (.deliver count) = some next) :
    InLockStep config masterauth myPort replid next := by
  obtain ⟨asked, owed, wires, turn⟩ := inLockStep
  simp only [step] at taken
  split at taken
  next bounds =>
    obtain ⟨master, stepped, rfl⟩ := Option.map_eq_some_iff.mp taken
    have nonempty : link.toMaster.take count ≠ [] := by
      rw [← List.length_pos_iff, List.length_take]
      omega
    have fits : (link.master.connection.buffer ++
        link.toMaster.take count).length ≤ config.maxPayloadSize := by
      have bound := turn.asked_fits admissible
      have lengths := congrArg List.length wires.asked
      simp only [List.length_append, List.length_take] at lengths ⊢
      omega
    cases Session.transition_of_step stepped with
    | read chunk waiting =>
        rw [Connection.receive_fitting config _ nonempty fits]
        exact ⟨asked, owed, wires.deliver count, turn⟩
  next => cases taken

/-- A drain round answers the command if all of it has arrived, and waits for
the rest otherwise. -/
theorem Wires.drain {asked owed : Bytes}
    (wires : Wires config replid link asked owed) (value : Value)
    (accepted : asked ≠ [] → Value.decoder.Accepts asked value)
    (moment : Moment) :
    (Value.attempt link.master.connection.buffer = .incomplete ∧
        link.master.connection.drain config moment link.master.server =
          ⟨link.master.server,
            { link.master.connection with phase := .waiting }⟩) ∨
      (asked ≠ [] ∧ link.toMaster = [] ∧
        link.master.connection.drain config moment link.master.server =
          Connection.dispatch config moment link.master.server
            { link.master.connection with
              buffer := []
              handled := link.master.connection.handled ++ [(asked, value)] }
            asked value) := by
  have whole := wires.asked
  by_cases idle : link.master.connection.buffer = []
  · left
    refine ⟨?_, by rw [Connection.drain, if_pos idle]⟩
    rw [idle]
    exact Value.decoder.attempt_nil
  · have nonempty : asked ≠ [] := by
      rw [← whole]
      exact List.append_ne_nil_of_left_ne_nil idle _
    have complete := accepted nonempty
    by_cases arrived : link.toMaster = []
    · right
      rw [arrived, List.append_nil] at whole
      refine ⟨nonempty, arrived, ?_⟩
      have found : Value.attempt link.master.connection.buffer =
          .complete value asked.length := by
        rw [whole]
        exact complete
      rw [Connection.drain, if_neg idle, found]
      simp only [whole, List.take_length, List.drop_length]
    · left
      rw [← whole] at complete
      have more : Value.attempt link.master.connection.buffer = .incomplete :=
        complete.attempt_front arrived
      rw [Connection.drain, if_neg idle, more]
      exact ⟨rfl, rfl⟩

theorem InLockStep.process
    (admissible : Admissible config masterauth myPort replid)
    (inLockStep : InLockStep config masterauth myPort replid link)
    {moment : Moment} (taken : step config link (.process moment) = some next) :
    InLockStep config masterauth myPort replid next := by
  obtain ⟨asked, owed, wires, turn⟩ := inLockStep
  obtain ⟨master, stepped, rfl⟩ := Option.map_eq_some_iff.mp taken
  cases Session.transition_of_step stepped with
  | process _ draining =>
      -- Without a complete command the master goes back to waiting.
      have rest (more : Value.attempt link.master.connection.buffer =
            .incomplete)
          (rests : link.master.connection.drain config moment
              link.master.server = ⟨link.master.server,
                { link.master.connection with phase := .waiting }⟩) :
          InLockStep config masterauth myPort replid
            (link.logAnswers (link.master.connection.drain config moment
              link.master.server)) := by
        rw [rests, logAnswers]
        simp only [List.drop_length, List.map_nil, List.append_nil]
        exact ⟨asked, owed, wires.rest more, turn⟩
      cases turn with
      | @asking past later cmd split stage covered reads unregistered =>
          have accepted : Value.decoder.Accepts cmd.bytes cmd.value :=
            HandshakeCommand.accepts (HandshakeCommand.short_of_handshake
              admissible.storable (by rw [split]; simp))
          rcases wires.drain cmd.value (fun _ => accepted) moment with
            ⟨more, rests⟩ | ⟨-, whole, dispatched⟩
          · exact rest more rests
          · rw [dispatched]
            by_cases last : cmd = .psync
            · subst last
              have finished :=
                (HandshakeCommand.last_iff_psync split).mpr rfl
              subst finished
              rw [Connection.dispatch_psync, logAnswers, fullResync_eq,
                wires.serving.replid]
              simp only [Connection.write, List.drop_left, List.map_cons,
                List.map_nil]
              refine ⟨[], _, ?_,
                .resyncing ?_ ?_ reads rfl (.line stage)⟩
              · apply wires.answer unregistered whole
                · rfl
                · have serving := wires.serving
                  rw [unregistered] at serving
                  exact serving.register
                · exact draining
                · rfl
                · rfl
              · rw [List.map_append, covered, split, List.map_append]
                rfl
              · rw [List.nil_append]
            · obtain ⟨reply, isAuthenticated, line, replied⟩ :=
                Connection.dispatch_simple config moment link.master.server
                  { link.master.connection with
                    buffer := []
                    handled := link.master.connection.handled ++
                      [(cmd.bytes, cmd.value)] }
                  cmd.bytes last
              rw [replied, logAnswers]
              simp only [List.drop_left, List.map_cons, List.map_nil]
              refine ⟨[], reply, ?_,
                .answered split last line stage covered rfl reads
                  unregistered⟩
              apply wires.answer unregistered whole
              · rfl
              · exact wires.serving
              · exact draining
              · rfl
              · rfl
      | _ =>
          rcases wires.drain Value.ok (fun busy => absurd rfl busy) moment with
            ⟨more, rests⟩ | ⟨busy, -⟩
          · exact rest more rests
          · exact absurd rfl busy

theorem InLockStep.replicate
    (inLockStep : InLockStep config masterauth myPort replid link)
    (taken : step config link .replicate = some next) :
    InLockStep config masterauth myPort replid next := by
  obtain ⟨asked, owed, wires, turn⟩ := inLockStep
  obtain ⟨master, stepped, rfl⟩ := Option.map_eq_some_iff.mp taken
  cases Session.transition_of_step stepped with
  | replicate waiting downstream channel =>
      exact ⟨asked, owed, wires.replicate channel, turn⟩

theorem InLockStep.propagate
    (inLockStep : InLockStep config masterauth myPort replid link)
    {rawResp : Bytes}
    (taken : step config link (.propagate rawResp) = some next) :
    InLockStep config masterauth myPort replid next := by
  obtain ⟨asked, owed, wires, turn⟩ := inLockStep
  simp only [step, Session.step, Option.map_some, Option.some.injEq] at taken
  subst taken
  obtain ⟨serving, added⟩ := wires.serving.propagate rawResp
  refine ⟨asked, owed, wires.others serving added ?_, turn⟩
  cases link.master.connection.isDownstreamReplica <;> simp

theorem InLockStep.others
    (inLockStep : InLockStep config masterauth myPort replid link)
    {server : ServerState hasher}
    (respects : Respects config link (.others server))
    (taken : step config link (.others server) = some next) :
    InLockStep config masterauth myPort replid next := by
  obtain ⟨asked, owed, wires, turn⟩ := inLockStep
  simp only [step, Session.step, Option.map_some, Option.some.injEq] at taken
  subst taken
  obtain ⟨sameId, sameChannel, sameCount⟩ := respects
  have serving : Serving config replid server
      link.master.connection.isDownstreamReplica link.propagated :=
    ⟨by rw [sameChannel]; exact wires.serving.alive,
      by rw [sameCount]; exact wires.serving.registered,
      wires.serving.quiet,
      by rw [sameId]; exact wires.serving.replid⟩
  refine ⟨asked, owed,
    wires.others serving ?_ (List.append_nil _).symm, turn⟩
  rw [sameChannel, List.append_nil, queued]

/-- Every step keeps replica and master in lock step. -/
theorem InLockStep.kept
    (admissible : Admissible config masterauth myPort replid)
    (inLockStep : InLockStep config masterauth myPort replid link)
    {action : LinkAction hasher} (respects : Respects config link action)
    (taken : step config link action = some next) :
    InLockStep config masterauth myPort replid next := by
  cases action with
  | send => exact inLockStep.send taken
  | advance => exact inLockStep.advance admissible taken
  | receive count => exact inLockStep.receive taken
  | deliver count => exact inLockStep.deliver admissible taken
  | process moment => exact inLockStep.process admissible taken
  | replicate => exact inLockStep.replicate taken
  | propagate rawResp => exact inLockStep.propagate taken
  | others server => exact inLockStep.others respects taken

end Steps

theorem inLockStep_start {masterauth : Option String} {myPort : UInt16}
    {server : ServerState hasher} {replState : ReplicationState}
    (fresh : server.channels config.channel = some [])
    (unregistered : config.channel ∉ server.replState.downstreamSenders) :
    InLockStep config masterauth myPort server.replState.masterReplid
      (start config masterauth myPort server replState) := by
  refine ⟨[], [], ?_, .sending (List.nil_append _).symm rfl rfl rfl rfl⟩
  refine
    { stillOpen := nofun
      asked := rfl
      settled := fun _ => Value.decoder.attempt_nil
      received := Nat.le_refl _
      pending := ?_
      written := Nat.zero_le _
      serving := ⟨⟨[], fresh⟩, ?_, fun _ => rfl, rfl⟩ }
  · simp [start, Session.start, Connection.new, ReplicaTask.start, inFlight,
      queued, fresh]
  · exact List.count_eq_zero.mpr unregistered

/-- Replica and master are in lock step in every state that is reached. -/
theorem inLockStep_of_reaches {masterauth : Option String} {myPort : UInt16}
    {server : ServerState hasher} {replState : ReplicationState}
    (admissible : Admissible config masterauth myPort
      server.replState.masterReplid)
    (fresh : server.channels config.channel = some [])
    (unregistered : config.channel ∉ server.replState.downstreamSenders)
    {actions : List (LinkAction hasher)} {link : ReplicationLink hasher}
    (reaches : Reaches (step config) (Respects config)
      (start config masterauth myPort server replState) actions link) :
    InLockStep config masterauth myPort server.replState.masterReplid link :=
  reaches.invariant (fun inLockStep respects taken =>
    inLockStep.kept admissible respects taken)
      (inLockStep_start fresh unregistered)

end ReplicationLink

end RustiCache
