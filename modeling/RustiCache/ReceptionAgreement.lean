import RustiCache.ConnectionReception
import RustiCache.ReplicaReception

/-!
# Reception of malformed streams

Without a parse error the commands that a stream leads to do not depend on the
chunks it arrives in.  Behind a parse error they do.  A connection drops what
happens to be in its buffer, so a command is executed if a chunk starts with it.
A replica drops one byte for each chunk, so a command is executed if there are
enough chunks to get to it.
-/

namespace RustiCache

open ReadLoop (Cut Cleared Salvaged)

namespace Connection

/-- The command of a frame, if it is one. -/
def command (value : Value) : Option Command :=
  (Command.fromValue value).toOption

/-- The commands among the frames that a connection has handled: those it has
executed and those it has answered with a redirection. -/
def commands (connection : Connection) : List Command :=
  ReadLoop.commands command connection.handled

/-- At the first parse error in the stream, if there is one before `QUIT`: no
command begins at a position at which the error has been noticed. -/
def SilentAfterError (stream : Bytes) : Prop :=
  ∀ rest, (readLoop.decode stream).2 = some rest →
    Cleared command readLoop rest

end Connection

namespace Session

variable {hasher : String → UInt64}

/-- All ways to cut the stream lead to the same commands. -/
def CutsAgree (config : ConnectionConfig) (server : ServerState hasher)
    (stream : Bytes) : Prop :=
  ∀ first second session other, Cut stream [] first → Cut stream [] second →
    Receives config server first session →
      Receives config server second other →
        session.connection.commands = other.connection.commands

section Small

variable {config : ConnectionConfig} {stream : Bytes}
  (small : stream.length ≤ config.maxPayloadSize)

include small in
theorem cut_fits {chunks : List Bytes} (cut : Cut stream [] chunks) :
    chunks.flatten.length ≤ config.maxPayloadSize := by
  have whole := cut.whole
  rw [List.nil_append] at whole
  rwa [whole]

include small in
/-- Every way to cut the stream can be received. -/
theorem exists_receives_cut (server : ServerState hasher) {chunks : List Bytes}
    (cut : Cut stream [] chunks) :
    ∃ session, Receives config server chunks session := by
  obtain ⟨frames, handles⟩ := Connection.readLoop.handles_total chunks []
  obtain ⟨session, receives, -⟩ := exists_receives server handles cut.nonempty
    (cut_fits small cut)
  exact ⟨session, receives⟩

include small in
theorem cutsAgree_iff (server : ServerState hasher) :
    CutsAgree config server stream ↔ Connection.SilentAfterError stream := by
  constructor
  · intro agree rest left
    by_contra dirty
    obtain ⟨first, cut, handles⟩ :=
      ReadLoop.exists_cut_decode Connection.readLoop stream
    obtain ⟨second, frames, cutToo, handlesToo, different⟩ :=
      ReadLoop.exists_cut_of_not_cleared Connection.readLoop_local
        (fun _ => rfl) left dirty
    obtain ⟨session, receives, handled⟩ := exists_receives server handles
      cut.nonempty (cut_fits small cut)
    obtain ⟨other, receivesToo, handledToo⟩ := exists_receives server
      handlesToo cutToo.nonempty (cut_fits small cutToo)
    have same := agree second first other session cutToo cut receivesToo receives
    rw [Connection.commands, Connection.commands, handled, handledToo] at same
    exact different same
  · intro silent first second session other cut cutToo receives receivesToo
    have one := (receives.handles (cut_fits small cut)).commands_of_cleared
      (fun _ => rfl) cut silent
    have two := (receivesToo.handles (cut_fits small cutToo)).commands_of_cleared
      (fun _ => rfl) cutToo silent
    exact one.trans two.symm

end Small

end Session

namespace ReplicaStream

variable {hasher : String → UInt64}

/-- At the first parse error in the stream, if there is one: no command is
reached by dropping a byte at every parse error while, for each byte that is
still to be dropped, one more byte is to come. -/
def SilentAfterError (stream : Bytes) : Prop :=
  ∀ rest, (readLoop.decode stream).2 = some rest →
    ∀ missing, ¬ Salvaged Command.executable readLoop rest missing

/-- All ways to cut the stream lead to the same commands. -/
def CutsAgree (server : ServerState hasher) (stream : Bytes) : Prop :=
  ∀ buffer first buffer' second state other,
    Cut stream buffer first → Cut stream buffer' second →
      Receives server buffer first state →
        Receives server buffer' second other →
          state.executed = other.executed

theorem exists_receives_cut (server : ServerState hasher)
    {stream buffer : Bytes} {chunks : List Bytes}
    (cut : Cut stream buffer chunks) :
    ∃ state, Receives server buffer chunks state := by
  obtain ⟨frames, handles⟩ := readLoop.handles_total chunks buffer
  obtain ⟨state, receives, -⟩ := exists_receives server handles cut.nonempty
  exact ⟨state, receives⟩

theorem cutsAgree_iff (server : ServerState hasher) (stream : Bytes) :
    CutsAgree server stream ↔ SilentAfterError stream := by
  constructor
  · intro agree rest left missing salvaged
    obtain ⟨first, cut, handles⟩ := ReadLoop.exists_cut_decode readLoop stream
    obtain ⟨second, frames, cutToo, handlesToo, different⟩ :=
      ReadLoop.exists_cut_of_salvaged readLoop_local (fun _ => rfl)
        (fun _ => rfl) left salvaged
    obtain ⟨state, receives, handled⟩ := exists_receives server handles
      cut.nonempty
    obtain ⟨other, receivesToo, handledToo⟩ := exists_receives server
      handlesToo cutToo.nonempty
    have same := agree [] second [] first other state cutToo cut receivesToo
      receives
    rw [receives.handles.2, receivesToo.handles.2, handled, handledToo] at same
    exact different same
  · intro silent buffer first buffer' second state other cut cutToo receives
      receivesToo
    obtain ⟨handles, executed⟩ := receives.handles
    obtain ⟨handlesToo, executedToo⟩ := receivesToo.handles
    rw [executed, executedToo,
      handles.commands_of_unsalvaged (fun _ => rfl) cut silent,
      handlesToo.commands_of_unsalvaged (fun _ => rfl) cutToo silent]

end ReplicaStream

section Reception

variable {hasher : String → UInt64}

/-- However a stream is cut, it is received to its end, and the commands it leads
to do not depend on the cut exactly when no command is found behind its first
parse error. -/
theorem reception_agrees_iff (config : ConnectionConfig)
    (server : ServerState hasher) (stream : Bytes)
    (small : stream.length ≤ config.maxPayloadSize) :
    ((∀ chunks, Cut stream [] chunks →
          ∃ session, Session.Receives config server chunks session) ∧
        (Session.CutsAgree config server stream ↔
          Connection.SilentAfterError stream)) ∧
      (∀ buffer chunks, Cut stream buffer chunks →
          ∃ state, ReplicaStream.Receives server buffer chunks state) ∧
        (ReplicaStream.CutsAgree server stream ↔
          ReplicaStream.SilentAfterError stream) := by
  refine ⟨⟨?_, Session.cutsAgree_iff small server⟩, ?_,
    ReplicaStream.cutsAgree_iff server stream⟩
  · exact fun chunks cut => Session.exists_receives_cut small server cut
  · exact fun buffer chunks cut => ReplicaStream.exists_receives_cut server cut

/-- A command, and the beginning of another. -/
theorem reception_agrees_iff_pingQuit :
    let server : ServerState fun _ => 0 :=
      ⟨.withConfig _ 1 0, .newMaster none, fun _ => none, none⟩
    let stream := asBytes "*1\r\n$4\r\nPING\r\n*1\r\n$4\r\nQU"
    Session.CutsAgree ⟨none, 1024, 0⟩ server stream ∧
      ReplicaStream.CutsAgree server stream := by
  intro server stream
  have incomplete : Value.attempt (asBytes "*1\r\n$4\r\nQU") = .incomplete := by
    decide +kernel
  have agrees := reception_agrees_iff ⟨none, 1024, 0⟩ server stream (by decide)
  constructor
  · refine agrees.1.2.mpr fun rest left => ReadLoop.cleared_of_final ?_
    have tail : (Connection.readLoop.decode stream).2 =
        some (asBytes "*1\r\n$4\r\nQU") := by decide +kernel
    cases left.symm.trans tail
    intro reason malformed
    cases incomplete.symm.trans malformed
  · refine agrees.2.2.mpr fun rest left =>
      ReadLoop.not_salvaged_of_final (ReadLoop.decode_rest left).2 ?_
    have tail : (ReplicaStream.readLoop.decode stream).2 =
        some (asBytes "*1\r\n$4\r\nQU") := by decide +kernel
    cases left.symm.trans tail
    intro reason malformed
    cases incomplete.symm.trans malformed

/-- A stray byte in front of a command: in one chunk the command is lost, in a
chunk of its own it is executed. -/
theorem stray_byte_hides_command :
    let config : ConnectionConfig := ⟨none, 1024, 0⟩
    let server : ServerState fun _ => 0 :=
      ⟨.withConfig _ 1 0, .newMaster none, fun _ => none, none⟩
    let stream := asBytes "x*1\r\n$4\r\nPING\r\n"
    (∃ session other,
        Session.Receives config server [stream] session ∧
        Session.Receives config server [stream.take 1, stream.drop 1] other ∧
        session.connection.commands = [] ∧
        other.connection.commands = [.ping none]) ∧
      ∃ state other,
        ReplicaStream.Receives server [] [stream] state ∧
        ReplicaStream.Receives server [] [stream.take 1, stream.drop 1] other ∧
        state.executed = [] ∧ other.executed = [.ping none] := by
  intro config server stream
  let moment : Moment := ⟨fun _ => 0, .front⟩
  have nonempty : stream ≠ [] := by decide
  have front : stream.take 1 ≠ [] := by decide
  have back : stream.drop 1 ≠ [] := by decide
  constructor
  · have whole : (runActions (Session.step config) (Session.start config server)
        [.read stream, .process moment]).map (fun session =>
          (session.connection.phase, session.connection.commands)) =
        some (.waiting, []) := by
      decide +kernel
    have parts : (runActions (Session.step config) (Session.start config server)
        [.read (stream.take 1), .process moment, .read (stream.drop 1),
          .process moment, .process moment]).map (fun session =>
          (session.connection.phase, session.connection.commands)) =
        some (.waiting, [.ping none]) := by
      decide +kernel
    obtain ⟨session, ran, shows⟩ := Option.map_eq_some_iff.mp whole
    obtain ⟨other, ranToo, showsToo⟩ := Option.map_eq_some_iff.mp parts
    rw [Prod.mk.injEq] at shows showsToo
    refine ⟨session, other, ⟨_, reaches_of_always ?_ ran, ?_⟩,
      ⟨_, reaches_of_always ?_ ranToo, ?_⟩, shows.2, showsToo.2⟩
    · simp only [List.forall_mem_cons]
      exact ⟨fun _ => nonempty, fun _ => trivial, by simp⟩
    · exact Or.inl ⟨shows.1, rfl⟩
    · simp only [List.forall_mem_cons]
      exact ⟨fun _ => front, fun _ => trivial, fun _ => back, fun _ => trivial,
        fun _ => trivial, by simp⟩
    · exact Or.inl ⟨showsToo.1, rfl⟩
  · have whole : (runActions ReplicaStream.step (ReplicaStream.start server [])
        [.process moment, .read stream, .process moment]).map (fun state =>
          (state.phase, state.executed)) = some (.reading, []) := by
      decide +kernel
    have parts : (runActions ReplicaStream.step (ReplicaStream.start server [])
        [.process moment, .read (stream.take 1), .process moment,
          .read (stream.drop 1), .process moment, .process moment]).map
          (fun state => (state.phase, state.executed)) =
        some (.reading, [.ping none]) := by
      decide +kernel
    obtain ⟨state, ran, shows⟩ := Option.map_eq_some_iff.mp whole
    obtain ⟨other, ranToo, showsToo⟩ := Option.map_eq_some_iff.mp parts
    rw [Prod.mk.injEq] at shows showsToo
    refine ⟨state, other, ⟨_, reaches_of_always ?_ ran, ?_⟩,
      ⟨_, reaches_of_always ?_ ranToo, ?_⟩, shows.2, showsToo.2⟩
    · simp only [List.forall_mem_cons]
      exact ⟨fun _ => trivial, fun _ => nonempty, fun _ => trivial, by simp⟩
    · exact Or.inl ⟨shows.1, rfl⟩
    · simp only [List.forall_mem_cons]
      exact ⟨fun _ => trivial, fun _ => front, fun _ => trivial, fun _ => back,
        fun _ => trivial, fun _ => trivial, by simp⟩
    · exact Or.inl ⟨showsToo.1, rfl⟩

end Reception

end RustiCache
