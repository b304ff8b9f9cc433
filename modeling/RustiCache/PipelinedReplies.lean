import RustiCache.ConnectionStreams
import RustiCache.SingleReplies

/-!
# Replies to a pipelining client

A client may send many requests before it reads a reply.  It then tells the
replies apart by parsing them one after another.  As long as the texts that a
reply repeats are single lines, the bytes written on a connection are one reply
for each frame handled, in the order of the frames, whatever the chunks in which
these arrived and whatever other tasks have done in between.
-/

namespace RustiCache

open FrameDecoder (stream stream_append stream_cons)

namespace Value

/-- The bytes hold the value, whatever follows them. -/
def Holds (reply : Bytes) (value : Value) : Prop :=
  ∀ later, parse (reply ++ later) = (.ok (some value), later)

/-- Parse a number of replies one after another. -/
def readReplies : Nat → Bytes → Option (List Value × Bytes)
  | 0, bytes => some ([], bytes)
  | count + 1, bytes =>
      match parse bytes with
      | (.ok (some value), rest) =>
          (readReplies count rest).map fun others =>
            (value :: others.1, others.2)
      | _ => none

theorem readReplies_stream {replies : List (Bytes × Value)}
    (each : ∀ reply ∈ replies, Holds reply.1 reply.2) (later : Bytes) :
    readReplies replies.length (stream replies ++ later) =
      some (replies.map Prod.snd, later) := by
  induction replies with
  | nil => rfl
  | cons reply replies ih =>
      obtain ⟨bytes, value⟩ := reply
      have first : Holds bytes value := each (bytes, value) (by simp)
      have rest := ih fun other member =>
        each other (List.mem_cons_of_mem _ member)
      rw [stream_cons, List.append_assoc, List.length_cons, readReplies, first]
      dsimp only
      rw [rest]
      rfl

end Value

namespace Connection

variable {hasher : String → UInt64} (config : ConnectionConfig)

/-- What may be written for a request in some state of the server, and the value
that a client reads in it. -/
def Replies (hasher : String → UInt64) (request reply : Bytes × Value) : Prop :=
  Value.Holds reply.1 reply.2 ∧
    ∃ (moment : Moment) (server : ServerState hasher) (connection : Connection),
      (dispatch config moment server connection request.1
        request.2).connection.sent = connection.sent ++ reply.1

/-- One reply has been written for each frame. -/
structure Answered (hasher : String → UInt64) (connection : Connection)
    (replies : List (Bytes × Value)) : Prop where
  each : List.Forall₂ (Replies config hasher) connection.handled replies
  sent : connection.sent = stream replies

variable {config} {connection : Connection} {replies : List (Bytes × Value)}

theorem Answered.holds (answered : Answered config hasher connection replies) :
    ∀ reply ∈ replies, Value.Holds reply.1 reply.2 := by
  intro reply member
  obtain ⟨index, inside, rfl⟩ := List.mem_iff_getElem.mp member
  have length := answered.each.length_eq
  exact (answered.each.get (by omega) inside).1

/-- Nothing has been handled or written. -/
theorem Answered.of_same {next : Connection}
    (answered : Answered config hasher connection replies)
    (handled : next.handled = connection.handled)
    (sent : next.sent = connection.sent) :
    Answered config hasher next replies :=
  ⟨by rw [handled]; exact answered.each, by rw [sent, answered.sent]⟩

/-- The texts that the reply to the next frame repeats within a line. -/
def nextTexts (config : ConnectionConfig) (frames : List (Bytes × Value))
    (cluster : Option ClusterTopology) (connection : Connection) :
    List String :=
  match frames[connection.handled.length]? with
  | some frame => repeated config cluster connection.isAuthenticated frame.2
  | none => []

theorem dispatch_downstream (moment : Moment) (server : ServerState hasher)
    (rawCmd : Bytes) {value : Value} (notPsync : ¬ Command.IsPsync value) :
    (dispatch config moment server connection rawCmd
      value).connection.isDownstreamReplica = connection.isDownstreamReplica := by
  rw [dispatch]
  split
  next replId offset decoded => exact absurd ⟨replId, offset, decoded⟩ notPsync
  next => rfl
  next =>
    rw [serve]
    split <;> rfl
  next => rfl

/-- A request is handled. -/
theorem Answered.dispatch (answered : Answered config hasher connection replies)
    (moment : Moment) (server : ServerState hasher) {frame tail : Bytes}
    {value : Value} (notPsync : ¬ Command.IsPsync value)
    (notAck : ¬ Command.IsAck value)
    (single : ∀ text ∈ repeated config server.cluster connection.isAuthenticated
      value, Value.OneLine text) :
    let cut := { connection with
      buffer := tail
      handled := connection.handled ++ [(frame, value)] }
    let next := (cut.dispatch config moment server frame value).connection
    next.sent.length < 2 ^ 63 →
    ∃ reply, Answered config hasher next (replies ++ [reply]) := by
  intro cut next fits
  obtain ⟨bytes, written, answers⟩ := dispatch_answers config moment server cut
    frame notPsync notAck
  have shorter : bytes.length < 2 ^ 63 := by
    have lengths := congrArg List.length written
    rw [List.length_append] at lengths
    exact Nat.lt_of_le_of_lt (lengths ▸ Nat.le_add_left _ _) fits
  obtain ⟨answer, holds⟩ := (answers.oneFrame_iff shorter).mpr single
  refine ⟨(bytes, answer), ?_, ?_⟩
  · rw [(dispatch_connection config moment server cut frame value).2.1]
    exact List.rel_append answered.each
      (.cons ⟨holds, moment, server, cut, written⟩ .nil)
  · rw [written, stream_append, ← answered.sent]
    simp [cut, stream]

end Connection

namespace Session

variable {hasher : String → UInt64} {config : ConnectionConfig}
  {frames : List (Bytes × Value)}

/-- The client gets one reply for each of its frames so far.  No buffer holds
`2 ^ 63` bytes or more. -/
structure Answering (config : ConnectionConfig) (session : Session hasher) :
    Prop where
  notDownstream : session.connection.isDownstreamReplica = false
  answered : session.connection.sent.length < 2 ^ 63 →
    ∃ replies, session.connection.Answered config hasher replies

theorem Answering.of_same {session next : Session hasher}
    (answering : session.Answering config)
    (downstream : next.connection.isDownstreamReplica =
      session.connection.isDownstreamReplica)
    (handled : next.connection.handled = session.connection.handled)
    (sent : next.connection.sent = session.connection.sent) :
    next.Answering config where
  notDownstream := downstream.trans answering.notDownstream
  answered := by
    intro fits
    rw [sent] at fits
    obtain ⟨replies, answered⟩ := answering.answered fits
    exact ⟨replies, answered.of_same handled sent⟩

section Steps

variable
  (accepted : ∀ frame ∈ frames, Value.decoder.Accepts frame.1 frame.2)
  (requests : ∀ frame ∈ frames,
    ¬ Command.IsPsync frame.2 ∧ ¬ Command.IsAck frame.2)
  (small : (stream frames).length ≤ config.maxPayloadSize)

include accepted requests in
theorem Answering.drain {session : Session hasher} {unread : Bytes}
    (answering : session.Answering config)
    (framed : session.connection.Framed frames unread)
    (draining : session.connection.phase = .draining)
    (single : ∀ text ∈ session.connection.nextTexts config frames
      session.server.cluster, Value.OneLine text) (moment : Moment) :
    (session.connection.drain config moment session.server).Answering
      config := by
  have inStep := framed.inStep (by simp [draining])
  rcases Connection.drain_cases config moment session.server accepted inStep
    with ⟨frame, value, others, tail, first, -, -, drained⟩ | ⟨-, drained⟩
  · have inside : (frame, value) ∈ frames := by
      rw [first]
      simp
    obtain ⟨notPsync, notAck⟩ := requests (frame, value) inside
    have isNext : frames[session.connection.handled.length]? =
        some (frame, value) := by
      rw [first]
      simp
    rw [Connection.nextTexts, isNext] at single
    rw [drained]
    refine ⟨?_, fun fits => ?_⟩
    · rw [Connection.dispatch_downstream moment session.server frame notPsync]
      exact answering.notDownstream
    · obtain ⟨reply, written, -⟩ := Connection.dispatch_answers config moment
        session.server
        { session.connection with
          buffer := tail
          handled := session.connection.handled ++ [(frame, value)] }
        frame notPsync notAck
      have before : session.connection.sent.length < 2 ^ 63 := by
        rw [written, List.length_append] at fits
        exact Nat.lt_of_le_of_lt (Nat.le_add_right _ _) fits
      obtain ⟨replies, answered⟩ := answering.answered before
      obtain ⟨last, answeredNext⟩ := answered.dispatch moment session.server
        notPsync notAck single fits
      exact ⟨replies ++ [last], answeredNext⟩
  · rw [drained]
    exact answering.of_same rfl rfl rfl

include accepted requests small in
theorem Answering.step {session next : Session hasher}
    {event : SessionEvent hasher} {unread : Bytes}
    (answering : session.Answering config)
    (framed : session.connection.Framed frames
      (event.chunk?.getD [] ++ unread))
    (single : ∀ text ∈ session.connection.nextTexts config frames
      session.server.cluster, Value.OneLine text)
    (taken : session.step config event = some next) :
    next.Answering config := by
  cases transition_of_step taken with
  | others server => exact answering.of_same rfl rfl rfl
  | disconnect stillOpen => exact answering.of_same rfl rfl rfl
  | shutdown waiting => exact answering.of_same rfl rfl rfl
  | replicate waiting downstream queued =>
      rw [answering.notDownstream] at downstream
      cases downstream
  | read chunk waiting =>
      by_cases nonempty : chunk = []
      · rw [Connection.receive, if_pos nonempty]
        exact answering.of_same rfl rfl rfl
      · have lengths := (framed.inStep (by simp [waiting])).length_eq
        simp only [SessionEvent.chunk?, Option.getD_some,
          List.length_append] at lengths
        rw [Connection.receive_fitting config session.server nonempty
          (by rw [List.length_append]; omega)]
        exact answering.of_same rfl rfl rfl
  | process moment draining =>
      exact answering.drain accepted requests framed draining single moment

end Steps

/-- **The replies are in the order of the requests.**  A client sends frames
other than `PSYNC` and `REPLCONF ACK`, all within the payload bound, without
waiting for replies.  In every run in which the texts repeated in replies are
single lines, whatever the chunks and whatever other tasks do, parsing what has
been written once for each frame handled gives the replies to these frames in
their order and leaves nothing over; and when the connection waits with all
bytes read, all frames have been answered. -/
theorem replies_in_order {server : ServerState hasher}
    {events : List (SessionEvent hasher)} {session : Session hasher}
    {unread : Bytes}
    (accepted : ∀ frame ∈ frames, Value.decoder.Accepts frame.1 frame.2)
    (requests : ∀ frame ∈ frames,
      ¬ Command.IsPsync frame.2 ∧ ¬ Command.IsAck frame.2)
    (small : (stream frames).length ≤ config.maxPayloadSize)
    (reaches : Reaches (step config)
      (fun state _ => ∀ text ∈ state.connection.nextTexts config frames
        state.server.cluster, Value.OneLine text)
      (start config server) events session)
    (delivered : (SessionEvent.reads events).flatten ++ unread = stream frames)
    (fits : session.connection.sent.length < 2 ^ 63) :
    session.connection.handled <+: frames ∧
    (session.connection.phase = .waiting → unread = [] →
      session.connection.handled = frames) ∧
    ∃ replies, List.Forall₂ (Connection.Replies config hasher)
        session.connection.handled replies ∧
      ∀ later, Value.readReplies session.connection.handled.length
          (session.connection.sent ++ later) =
        some (replies.map Prod.snd, later) := by
  have framed := framed_of_reaches config accepted reaches delivered
  have answering : session.Answering config := by
    generalize begins : start config server = first at reaches
    clear framed fits
    induction reaches generalizing unread with
    | refl =>
        subst begins
        exact ⟨rfl, fun _ => ⟨[], .nil, rfl⟩⟩
    | snoc before single taken ih =>
        subst begins
        rw [reads_snoc, List.append_assoc] at delivered
        exact (ih delivered).step accepted requests small
          (framed_of_reaches config accepted before delivered) single taken
  obtain ⟨replies, answered⟩ := answering.answered fits
  refine ⟨framed.handled, ?_, replies, answered.each, fun later => ?_⟩
  · rintro waiting rfl
    exact (framed.finished accepted waiting).2
  · rw [answered.each.length_eq, answered.sent]
    exact Value.readReplies_stream answered.holds later

/-- A read and an unknown command, sent at once. -/
def pipelinedFrames : List (Bytes × Value) :=
  [Value.wordsFrame ["GET", "a"], Value.wordsFrame ["NOPE"]]

/-- The bytes of both requests arrive in two chunks. -/
def pipelinedEvents : List (SessionEvent fun _ => 0) :=
  let moment : Moment := ⟨fun _ => 0, .front⟩
  [.read ((stream pipelinedFrames).take 30), .process moment, .process moment,
    .read ((stream pipelinedFrames).drop 30), .process moment, .process moment]

theorem replies_in_order_pipelinedFrames :
    let server : ServerState fun _ => 0 :=
      ⟨Db.withConfig _ 1 0, .newMaster none, fun _ => none, none⟩
    ∃ session, runActions (step ⟨none, 1024, 0⟩) (start ⟨none, 1024, 0⟩ server)
        pipelinedEvents = some session ∧
      session.connection.handled = pipelinedFrames ∧
      ∃ replies, List.Forall₂ (Connection.Replies ⟨none, 1024, 0⟩ fun _ => 0)
          pipelinedFrames replies ∧
        Value.readReplies 2 session.connection.sent =
          some (replies.map Prod.snd, []) := by
  intro server
  have found : (runActions
      (fun state event =>
        if decide (∀ text ∈ state.connection.nextTexts ⟨none, 1024, 0⟩
          pipelinedFrames state.server.cluster, Value.OneLine text) then
          step ⟨none, 1024, 0⟩ state event
        else
          none)
      (start ⟨none, 1024, 0⟩ server) pipelinedEvents).map
        (fun session => (session.connection.phase,
          decide (session.connection.sent.length < 2 ^ 63))) =
      some (.waiting, true) := by
    decide +kernel
  obtain ⟨session, ran, outcome⟩ := Option.map_eq_some_iff.mp found
  simp only [Prod.mk.injEq, decide_eq_true_eq] at outcome
  have reaches := reaches_of_checked
    (fun _ checked => of_decide_eq_true checked) (fun _ _ _ => trivial) trivial
    ran
  have requests : ∀ frame ∈ pipelinedFrames,
      ¬ Command.IsPsync frame.2 ∧ ¬ Command.IsAck frame.2 := by
    have get : Command.fromValue (Value.wordsFrame ["GET", "a"]).2 =
        .ok (.get "a") := by decide +kernel
    have nope : Command.fromValue (Value.wordsFrame ["NOPE"]).2 =
        .error "unknown command 'NOPE'" := by decide +kernel
    simp [pipelinedFrames, Command.IsPsync, Command.IsAck, get, nope]
  have delivered : (SessionEvent.reads pipelinedEvents).flatten ++ [] =
      stream pipelinedFrames := by decide +kernel
  obtain ⟨-, all, replies, each, reads⟩ := replies_in_order
    (by decide +kernel) requests (by decide +kernel) reaches delivered outcome.2
  have handled := all outcome.1 rfl
  refine ⟨session, reaches.runs, handled, replies, by rw [← handled]; exact each,
    ?_⟩
  have whole := reads []
  rw [List.append_nil, handled] at whole
  exact whole

end Session

end RustiCache
