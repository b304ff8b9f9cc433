import RustiCache.HandshakeProgress

/-!
# Refusals in the handshake

The reader of the simple replies looks for the end of a line and never at what
the line says.  A replica whose password or configuration is refused therefore
goes on as if it had been accepted, and asks for the stream.
-/

namespace RustiCache

namespace ReplicaTask

open HandshakeCommand (psync questions handshake)
open ReplicationLink (credit_snoc)

variable {masterauth : Option String} {myPort : UInt16}
  {replState : ReplicationState} {task : ReplicaTask} {stream : Bytes}

/-- The task has sent `PSYNC`. -/
def AsksForStream (task : ReplicaTask) : Prop :=
  ∃ reply, (psync.bytes, reply) ∈ task.reads

/-- Whatever is read of these bytes of the master and in whichever chunks, the
task asks for the stream, or gets to it, only after no reply to its password or
its configuration was an error. -/
def RefusalsHeeded (masterauth : Option String) (myPort : UInt16)
    (replState : ReplicationState) (stream : Bytes) : Prop :=
  ∀ events task,
    Reaches step Fits (start masterauth myPort replState) events task →
    TaskEvent.received events <+: stream →
    task.AsksForStream ∨ task.stage = .streaming →
    ∀ cmd ∈ handshake masterauth myPort, cmd ≠ .ping → cmd ≠ psync →
      ∀ reply, (cmd.bytes, reply) ∈ task.reads → ¬ asBytes "-" <+: reply

/-- `PSYNC` comes after all other commands. -/
theorem psync_not_asked {rows : List (HandshakeCommand × Bytes)}
    {cmd : HandshakeCommand} {later : List HandshakeCommand}
    (split : handshake masterauth myPort = rows.map Prod.fst ++ cmd :: later)
    (reply : Bytes) : (psync.bytes, reply) ∉ rows.map asked := by
  intro member
  obtain ⟨row, among, same⟩ := List.mem_map.mp member
  have asks : row.1 = psync :=
    HandshakeCommand.eq_psync_of_bytes (Prod.mk.inj same).1
  obtain ⟨before, after, past⟩ :=
    List.append_of_mem (List.mem_map.mpr ⟨row, among, asks⟩)
  rw [past, List.append_assoc, List.cons_append] at split
  have last := (HandshakeCommand.last_iff_psync split).mpr rfl
  simp at last

theorem questions_of_psync {rows : List (HandshakeCommand × Bytes)}
    {later : List HandshakeCommand}
    (split : handshake masterauth myPort = rows.map Prod.fst ++ psync :: later) :
    rows.map Prod.fst = questions masterauth myPort := by
  have last : later = [] := (HandshakeCommand.last_iff_psync split).mpr rfl
  rw [last, HandshakeCommand.handshake_eq] at split
  exact (List.append_cancel_right split).symm

/-- The command at hand is the only one that can be `PSYNC`. -/
theorem eq_psync_of_mem {rows : List (HandshakeCommand × Bytes)}
    {cmd : HandshakeCommand} {later : List HandshakeCommand}
    {reply earlier : Bytes}
    (split : handshake masterauth myPort = rows.map Prod.fst ++ cmd :: later)
    (member : (psync.bytes, reply) ∈ rows.map asked ++ [(cmd.bytes, earlier)]) :
    cmd = psync := by
  rcases List.mem_append.mp member with past | now
  · exact absurd past (psync_not_asked split reply)
  · have same := (Prod.mk.inj (List.mem_singleton.mp now)).1
    exact HandshakeCommand.eq_psync_of_bytes same.symm

/-- A task that has asked for the stream has read a line for each question. -/
theorem Replied.of_asksForStream {received : Bytes}
    (replied : Replied (handshake masterauth myPort) received task)
    (asks : task.AsksForStream ∨ task.stage = .streaming) :
    ∃ (rows : List (HandshakeCommand × Bytes)) (reply rest : Bytes),
      rows.map Prod.fst = questions masterauth myPort ∧
        task.reads = rows.map asked ++ [(psync.bytes, reply)] ∧
        Value.cutLines rows.length received =
          some (rows.map Prod.snd, rest) := by
  cases replied with
  | sending rows stage split reads lines =>
      rcases asks with ⟨reply, member⟩ | streams
      · rw [reads] at member
        exact absurd member (psync_not_asked split reply)
      · rw [stage] at streams
        cases streams
  | awaiting rows stage split reads lines =>
      rcases asks with ⟨reply, member⟩ | streams
      · rw [reads] at member
        cases eq_psync_of_mem split member
        exact ⟨rows, [], task.buffer, questions_of_psync split, reads, lines⟩
      · rw [stage] at streams
        cases streams
  | resyncing rows stage split reads lines =>
      exact ⟨rows, _, _, questions_of_psync split, reads, lines⟩
  | failed rows stage split reads current lines =>
      rcases asks with ⟨reply, member⟩ | streams
      · rw [reads] at member
        rcases current with rfl | ⟨earlier, rfl⟩
        · rw [List.append_nil] at member
          exact absurd member (psync_not_asked split reply)
        · cases eq_psync_of_mem split member
          exact ⟨rows, earlier, _, questions_of_psync split, reads, lines⟩
      · rw [stage] at streams
        cases streams

/-- If no line of the master after the first is an error, then none was read. -/
theorem heeded_of_lines
    (accepted : ∀ lines rest,
      Value.cutLines (questions masterauth myPort).length stream =
        some (lines, rest) → ∀ line ∈ lines.tail, ¬ asBytes "-" <+: line) :
    RefusalsHeeded masterauth myPort replState stream := by
  intro events task reaches arrived asks cmd _ notPing notPsync reply member
  obtain ⟨rows, last, rest, all, reads, lines⟩ :=
    (replied_of_reaches reaches).of_asksForStream asks
  obtain ⟨unread, rfl⟩ := arrived
  have cut := Value.cutLines_append lines unread
  rw [← List.length_map Prod.fst, all] at cut
  apply accepted _ _ cut
  -- The reply to `PING` is the first line, and every other one is in the tail.
  rw [reads] at member
  rcases List.mem_append.mp member with past | now
  · obtain ⟨row, among, same⟩ := List.mem_map.mp past
    obtain ⟨sameBytes, rfl⟩ := Prod.mk.inj same
    cases rows with
    | nil => cases among
    | cons first others =>
        rcases List.mem_cons.mp among with rfl | inside
        · have asksPing : row.1 = .ping := (List.cons.inj all).1
          rw [asksPing] at sameBytes
          exact absurd (HandshakeCommand.eq_ping_of_bytes sameBytes.symm) notPing
        · exact List.mem_map.mpr ⟨row, inside, rfl⟩
  · have same := (Prod.mk.inj (List.mem_singleton.mp now)).1
    exact absurd (HandshakeCommand.eq_psync_of_bytes same) notPsync

section Answers

variable {cmd : HandshakeCommand} {later : List HandshakeCommand}

/-- Without a line the reader asks the socket for more. -/
theorem step_receive (asks : cmd ≠ psync)
    (stage : task.stage = .awaiting cmd later)
    (missing : Value.getLine task.buffer = none) (byte : UInt8) :
    task.step (.receive [byte]) =
      some { task with buffer := task.buffer ++ [byte] } := by
  have blocked : task.advance = none := by
    rw [advance_simple asks stage, readSimpleResponse, missing]
    rfl
  have waits : eofReason task.stage = some "Unexpected EOF from master" := by
    rw [stage]
    cases cmd <;> first | rfl | exact absurd rfl asks
  rw [step, receive, waits, blocked]
  rfl

/-- What reading a line as the reply to a command comes to. -/
def Answers (task : ReplicaTask) (later : List HandshakeCommand)
    (unread : Bytes) (consumed : Nat) : Prop :=
  ∃ events next left, Reaches step Fits task events next ∧
    TaskEvent.received events ++ left = unread ∧
    next.stage = proceed later ∧
    next.buffer ++ left = (task.buffer ++ unread).drop consumed ∧
    next.reads = credit ((task.buffer ++ unread).take consumed) task.reads

/-- A line that is in the buffer is taken. -/
theorem answers_held (asks : cmd ≠ psync)
    (stage : task.stage = .awaiting cmd later) {text : Bytes} {consumed : Nat}
    (held : Value.getLine task.buffer = some (text, consumed))
    (unread : Bytes) : task.Answers later unread consumed := by
  obtain ⟨size, behind, layout⟩ := Value.getLine_spec held
  have within : consumed ≤ task.buffer.length := by
    rw [layout, size]
    simp [Value.crlf]
  refine ⟨[.advance], { task.consume consumed with stage := proceed later },
    unread, .single trivial ?_, rfl, rfl, ?_, ?_⟩
  · rw [step, advance_simple asks stage, readSimpleResponse, held]
    rfl
  · rw [List.drop_append_of_le_length within]
    rfl
  · rw [List.take_append_of_le_length within]
    rfl

/-- The bytes of the next line can be read one by one until the line is there. -/
theorem answers_of_getLine (asks : cmd ≠ psync)
    (stage : task.stage = .awaiting cmd later) {unread text : Bytes}
    {consumed : Nat}
    (found : Value.getLine (task.buffer ++ unread) = some (text, consumed)) :
    task.Answers later unread consumed := by
  induction unread generalizing task with
  | nil =>
      rw [List.append_nil] at found
      exact answers_held asks stage found []
  | cons byte unread ih =>
      cases held : Value.getLine task.buffer with
      | some line =>
          have whole := Value.getLine_append held (byte :: unread)
          rw [found] at whole
          exact answers_held asks stage (held.trans whole.symm) _
      | none =>
          -- A read of one byte is allowed, and brings the line closer.
          have same : task.buffer ++ byte :: unread =
              task.buffer ++ [byte] ++ unread := by simp
          have fits : task.Fits (.receive [byte]) := by
            rw [Fits, stage]
            exact Nat.one_le_ofNat
          rw [same] at found
          obtain ⟨events, next, left, reaches, read, outcome⟩ :=
            @ih { task with buffer := task.buffer ++ [byte] } stage found
          refine ⟨.receive [byte] :: events, next, left,
            .cons fits (step_receive asks stage held byte) reaches, ?_, ?_⟩
          · rw [← read]
            rfl
          · rw [same]
            exact outcome

end Answers

/-- Questions are asked one after the other as long as there are lines. -/
theorem reaches_questions {commands : List HandshakeCommand}
    (simple : psync ∉ commands) {unread rest : Bytes} {lines : List Bytes}
    (stage : task.stage = proceed (commands ++ [psync]))
    (cut : Value.cutLines commands.length (task.buffer ++ unread) =
      some (lines, rest)) :
    ∃ events next left, Reaches step Fits task events next ∧
      TaskEvent.received events ++ left = unread ∧
      next.stage = .sending psync [] ∧
      next.reads = task.reads ++ (commands.zip lines).map asked := by
  induction commands generalizing task unread lines with
  | nil =>
      refine ⟨[], task, unread, .refl task, rfl, stage, ?_⟩
      simp
  | cons cmd commands ih =>
      rw [List.mem_cons, not_or] at simple
      obtain ⟨asks, others⟩ := simple
      obtain ⟨text, consumed, following, found, rfl, tail⟩ :=
        Value.exists_of_cutLines_succ cut
      let waiting : ReplicaTask :=
        { task with
          stage := .awaiting cmd (commands ++ [psync])
          reads := task.reads ++ [(cmd.bytes, [])] }
      have sent : task.step .send = some waiting := by
        rw [step, send, stage]
        rfl
      have answers : waiting.Answers (commands ++ [psync]) unread consumed :=
        answers_of_getLine (Ne.symm asks) rfl found
      obtain ⟨answering, next, left, answered, read, goesOn, buffered,
        credited⟩ := answers
      rw [← buffered] at tail
      obtain ⟨events, final, remaining, reaches, readLater, ready, reads⟩ :=
        ih others goesOn tail
      refine ⟨.send :: answering ++ events, final, remaining,
        (Reaches.cons trivial sent answered).append reaches, ?_, ready, ?_⟩
      · rw [TaskEvent.received_append, List.append_assoc, readLater]
        exact read
      · rw [reads, credited, credit_snoc]
        simp [asked, waiting]

/-- All the lines that are there are read as replies before `PSYNC` is sent. -/
theorem exists_asksForStream (replState : ReplicationState)
    {lines : List Bytes} {rest : Bytes}
    (cut : Value.cutLines (questions masterauth myPort).length stream =
      some (lines, rest)) :
    ∃ events task,
      Reaches step Fits (start masterauth myPort replState) events task ∧
      TaskEvent.received events <+: stream ∧ task.AsksForStream ∧
      ∀ row ∈ (questions masterauth myPort).zip lines,
        asked row ∈ task.reads := by
  have begins : (start masterauth myPort replState).stage =
      proceed (questions masterauth myPort ++ [psync]) := by
    rw [← HandshakeCommand.handshake_eq]
    rfl
  obtain ⟨events, task, left, reaches, read, ready, reads⟩ :=
    reaches_questions (HandshakeCommand.psync_not_mem_questions _ _) begins cut
  let waiting : ReplicaTask :=
    { task with
      stage := .awaiting psync []
      reads := task.reads ++ [(psync.bytes, [])] }
  have sent : task.step .send = some waiting := by
    rw [step, send, ready]
    rfl
  have fits : task.Fits .send := trivial
  refine ⟨events ++ [.send], waiting, .snoc reaches fits sent, ?_, ?_, ?_⟩
  · rw [TaskEvent.received_snoc]
    exact ⟨left, by simpa [TaskEvent.chunk] using read⟩
  · exact ⟨[], List.mem_append_right _ (List.mem_singleton.mpr rfl)⟩
  · intro row among
    apply List.mem_append_left
    rw [reads]
    exact List.mem_append_right _ (List.mem_map_of_mem among)

/-- An error among the lines after the first is read, and not heeded. -/
theorem lines_of_heeded
    (heeded : RefusalsHeeded masterauth myPort replState stream)
    {lines : List Bytes} {rest : Bytes}
    (cut : Value.cutLines (questions masterauth myPort).length stream =
      some (lines, rest)) :
    ∀ line ∈ lines.tail, ¬ asBytes "-" <+: line := by
  intro line among
  obtain ⟨events, task, reaches, arrived, asks, all⟩ :=
    exists_asksForStream replState cut
  obtain ⟨cmd, beside, other⟩ :
      ∃ cmd, (cmd, line) ∈ (questions masterauth myPort).zip lines ∧
        cmd ≠ .ping :=
    HandshakeCommand.exists_beside (Value.length_of_cutLines cut) among
  have question : cmd ∈ questions masterauth myPort := (List.of_mem_zip beside).1
  have simple : cmd ≠ psync := fun same =>
    HandshakeCommand.psync_not_mem_questions masterauth myPort (same ▸ question)
  have member : cmd ∈ handshake masterauth myPort := by
    rw [HandshakeCommand.handshake_eq]
    exact List.mem_append_left _ question
  exact heeded events task reaches arrived (Or.inl asks) cmd member other simple
    line (all _ beside)

/-- Refusals are heeded exactly if there are none to heed: the lines of the
master run out before `PSYNC`, or no line that stands for a reply to the password
or the configuration is an error. -/
theorem refusals_heeded_iff (masterauth : Option String) (myPort : UInt16)
    (replState : ReplicationState) (stream : Bytes) :
    RefusalsHeeded masterauth myPort replState stream ↔
      ∀ lines rest,
        Value.cutLines (questions masterauth myPort).length stream =
          some (lines, rest) →
        ∀ line ∈ lines.tail, ¬ asBytes "-" <+: line := by
  constructor
  · intro heeded lines rest cut
    exact lines_of_heeded heeded cut
  · exact heeded_of_lines

theorem fits_of_le {event : TaskEvent} (short : event.chunk.length ≤ 1024)
    (task : ReplicaTask) : task.Fits event := by
  cases event with
  | receive chunk =>
      have room : 1024 ≤ readSize task.stage := by
        unfold readSize
        split <;> decide
      exact short.trans room
  | _ => trivial

/-- What a master that asks for a password writes to a replica with a wrong one:
it refuses every question, and still serves `PSYNC`. -/
def refusals : List Bytes :=
  let noauth := asBytes "-ERR NOAUTH Authentication required.\r\n"
  let wrongpass := asBytes
    "-ERR WRONGPASS invalid username-password pair or user is disabled.\r\n"
  [noauth, wrongpass, noauth, noauth, Connection.fullResync (.newMaster none)]

/-- Each command is sent when the reply to the one before has been read, and
each reply comes in one chunk. -/
def answeredRun (replies : List Bytes) : List TaskEvent :=
  replies.flatMap (fun reply => [.send, .receive reply, .advance]) ++
    [.advance, .advance]

theorem received_answeredRun (replies : List Bytes) :
    TaskEvent.received (answeredRun replies) = replies.flatten := by
  induction replies with
  | nil => rfl
  | cons reply replies ih =>
      rw [List.flatten_cons, ← ih]
      simp [answeredRun, TaskEvent.received, TaskEvent.chunk]

/-- A replica whose password is wrong gets to the stream. -/
theorem refused_replica_streams :
    let first := start (some "wrong") 6380 (.newReplica "127.0.0.1" 6379)
    (∃ task, Reaches step Fits first (answeredRun refusals) task ∧
      TaskEvent.received (answeredRun refusals) = refusals.flatten ∧
      task.AsksForStream ∧ task.stage = .streaming ∧
      ((HandshakeCommand.auth "wrong").bytes, refusals.getD 1 []) ∈
        task.reads) ∧
    asBytes "-ERR WRONGPASS" <+: refusals.getD 1 [] ∧
    ¬ RefusalsHeeded (some "wrong") 6380 (.newReplica "127.0.0.1" 6379)
      refusals.flatten := by
  intro first
  have checked : (∀ event ∈ answeredRun refusals, event.chunk.length ≤ 1024) ∧
      asBytes "-ERR WRONGPASS" <+: refusals.getD 1 [] ∧
      (runActions step first (answeredRun refusals)).map (fun task => decide
        (task.stage = .streaming ∧
          (psync.bytes, refusals.getD 4 []) ∈ task.reads ∧
          ((HandshakeCommand.auth "wrong").bytes, refusals.getD 1 []) ∈
            task.reads)) = some true := by
    simp only [refusals, fullResync_eq, snapshotHeader, getEmptyRdbBytes_eq]
    decide +kernel
  obtain ⟨short, wrongpass, ends⟩ := checked
  obtain ⟨task, ran, outcome⟩ := Option.map_eq_some_iff.mp ends
  obtain ⟨streams, asks, refused⟩ := of_decide_eq_true outcome
  have reaches : Reaches step Fits first (answeredRun refusals) task :=
    reaches_of_always (fun event member => fits_of_le (short event member)) ran
  have arrived := received_answeredRun refusals
  refine ⟨⟨task, reaches, arrived, ⟨_, asks⟩, streams, refused⟩, wrongpass, ?_⟩
  intro heeded
  have dash : asBytes "-" <+: asBytes "-ERR WRONGPASS" := by decide
  exact heeded _ task reaches (arrived ▸ List.prefix_rfl) (Or.inr streams)
    (.auth "wrong") (by simp [handshake]) (by decide) (by decide) _ refused
    (dash.trans wrongpass)

end ReplicaTask

end RustiCache
