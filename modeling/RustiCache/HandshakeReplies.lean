import RustiCache.ReplicationLink

/-!
# What a master replies in the handshake

Every command of the handshake is one frame.  The reply to each command before
`PSYNC` is a single line, whether the master accepts the command or refuses it,
and it leaves the state of the master alone.  `PSYNC` is answered with the
resynchronization line and the snapshot.
-/

namespace RustiCache

namespace HandshakeCommand

/-- The words of a command. -/
def words : HandshakeCommand → List String
  | ping => ["PING"]
  | auth pass => ["AUTH", pass]
  | listeningPort myPort =>
      ["REPLCONF", "listening-port", toString myPort.toNat]
  | capa => ["REPLCONF", "capa", "eof", "capa", "psync2"]
  | psync => ["PSYNC", "?", "-1"]

/-- The command as the master reads it. -/
def command : HandshakeCommand → Command
  | ping => .ping none
  | auth pass => .auth none pass
  | listeningPort myPort =>
      .replConf ["listening-port", toString myPort.toNat]
  | capa => .replConf ["capa", "eof", "capa", "psync2"]
  | psync => .psync "?" "-1"

def value (cmd : HandshakeCommand) : Value :=
  .bulkArray (cmd.words.map asBytes)

theorem bytes_eq (cmd : HandshakeCommand) : cmd.bytes = cmd.value.serialize := by
  cases cmd with
  | ping => decide
  | auth pass =>
      have two : asBytes "*2\r\n$4\r\nAUTH\r\n$" =
          asBytes "*" ++ decimal 2 ++ Value.crlf ++
            (asBytes "$" ++ decimal 4 ++ Value.crlf ++ asBytes "AUTH" ++
              Value.crlf) ++ asBytes "$" := by decide
      have letters : (asBytes "AUTH").length = 4 := by decide
      have terminator : asBytes "\r\n" = Value.crlf := by decide
      simp only [bytes, value, words, Value.bulkArray, List.map_cons,
        List.map_nil, Value.serialize, Value.serializeAll, List.length_cons,
        List.length_nil, Nat.zero_add, Nat.reduceAdd, letters, two, terminator]
      simp only [← List.append_assoc, List.append_nil]
  | listeningPort myPort =>
      have three :
          asBytes "*3\r\n$8\r\nREPLCONF\r\n$14\r\nlistening-port\r\n$" =
          asBytes "*" ++ decimal 3 ++ Value.crlf ++
            (asBytes "$" ++ decimal 8 ++ Value.crlf ++ asBytes "REPLCONF" ++
              Value.crlf) ++
            (asBytes "$" ++ decimal 14 ++ Value.crlf ++
              asBytes "listening-port" ++ Value.crlf) ++ asBytes "$" := by
        decide
      have letters : (asBytes "REPLCONF").length = 8 := by decide
      have option : (asBytes "listening-port").length = 14 := by decide
      have terminator : asBytes "\r\n" = Value.crlf := by decide
      simp only [bytes, value, words, Value.bulkArray, List.map_cons,
        List.map_nil, Value.serialize, Value.serializeAll, List.length_cons,
        List.length_nil, Nat.zero_add, Nat.reduceAdd, letters, option, three,
        terminator]
      simp only [← List.append_assoc, List.append_nil]
      rfl
  | capa => decide
  | psync => decide

theorem fromValue_value (cmd : HandshakeCommand) :
    Command.fromValue cmd.value = .ok cmd.command := by
  have read (text : String) :
      (Value.bulkString (some (asBytes text))).asStr = some text := by
    rw [Value.asStr, fromUtf8_asBytes]
    rfl
  cases cmd with
  | ping => decide
  | auth pass =>
      have name : toAsciiUppercase "AUTH" = "AUTH" := by decide
      simp only [value, words, Value.bulkArray, List.map_cons, List.map_nil,
        Command.fromValue, read, name, Command.fromItems, Option.getD_some,
        command]
  | listeningPort myPort =>
      have name : toAsciiUppercase "REPLCONF" = "REPLCONF" := by decide
      simp only [value, words, Value.bulkArray, List.map_cons, List.map_nil,
        Command.fromValue, read, name, Command.fromItems, Command.texts,
        List.filterMap_cons, List.filterMap_nil, command]
  | capa => decide
  | psync => decide

/-- A command that holds no more bytes than memory does is accepted. -/
theorem accepts {cmd : HandshakeCommand}
    (short : ∀ word ∈ cmd.words, (asBytes word).length < 2 ^ 63) :
    Value.decoder.Accepts cmd.bytes cmd.value := by
  rw [bytes_eq]
  apply Value.accepts_bulkArray
  · rw [List.length_map]
    cases cmd <;> simp [words, Value.valueSize]
  · intro part member
    obtain ⟨word, inWords, rfl⟩ := List.mem_map.mp member
    exact short word inWords

/-- The words other than a password are short. -/
theorem short_of_handshake {masterauth : Option String} {myPort : UInt16}
    (storable : ∀ pass ∈ masterauth, (asBytes pass).length < 2 ^ 63)
    {cmd : HandshakeCommand} (member : cmd ∈ handshake masterauth myPort) :
    ∀ word ∈ cmd.words, (asBytes word).length < 2 ^ 63 := by
  cases cmd with
  | ping => decide
  | auth pass =>
      have given : pass ∈ masterauth := by
        simpa [handshake] using member
      simp only [words, List.forall_mem_cons, List.not_mem_nil, false_implies,
        implies_true, and_true]
      exact ⟨by decide, storable pass given⟩
  | listeningPort port =>
      have digits : (decimal port.toNat).length ≤ 5 :=
        length_decimal_le 4 (by have := port.toNat_lt; omega)
      simp only [words, List.forall_mem_cons, List.not_mem_nil, false_implies,
        implies_true, and_true]
      exact ⟨by decide, by decide, by rw [← decimal]; omega⟩
  | capa => decide
  | psync => decide

/-- The commands whose replies are read as simple ones. -/
def questions (masterauth : Option String) (myPort : UInt16) :
    List HandshakeCommand :=
  ping :: ((masterauth.map auth).toList ++ [listeningPort myPort, capa])

theorem handshake_eq (masterauth : Option String) (myPort : UInt16) :
    handshake masterauth myPort = questions masterauth myPort ++ [psync] := by
  simp [handshake, questions]

theorem psync_not_mem_questions (masterauth : Option String)
    (myPort : UInt16) : psync ∉ questions masterauth myPort := by
  cases masterauth <;> simp [questions]

/-- Only the last command of the handshake is `PSYNC`. -/
theorem last_iff_psync {masterauth : Option String} {myPort : UInt16}
    {past later : List HandshakeCommand} {cmd : HandshakeCommand}
    (split : handshake masterauth myPort = past ++ cmd :: later) :
    later = [] ↔ cmd = psync := by
  have fresh := psync_not_mem_questions masterauth myPort
  rw [handshake_eq] at split
  constructor
  · rintro rfl
    have same := List.append_inj_right' split rfl
    exact (List.singleton_inj.mp same).symm
  · rintro rfl
    rcases List.eq_nil_or_concat later with rfl | ⟨front, last, rfl⟩
    · rfl
    · have regrouped : past ++ psync :: front.concat last =
          (past ++ psync :: front) ++ [last] := by
        simp
      rw [regrouped] at split
      have earlier := List.append_inj_left' split rfl
      rw [earlier] at fresh
      simp at fresh

end HandshakeCommand

/-- Bytes that form one line. -/
def IsLine (bytes : Bytes) : Prop :=
  ∃ text, (13 : UInt8) ∉ text ∧ bytes = text ++ Value.crlf

theorem isLine_simpleString {text : String}
    (noReturn : (13 : UInt8) ∉ asBytes text) :
    IsLine (Value.simpleString text).serialize := by
  refine ⟨asBytes "+" ++ asBytes text, ?_, rfl⟩
  rw [List.mem_append, not_or]
  exact ⟨by decide, noReturn⟩

theorem isLine_error {text : String}
    (noReturn : (13 : UInt8) ∉ asBytes text) :
    IsLine (Value.error text).serialize := by
  refine ⟨asBytes "-ERR " ++ asBytes text, ?_, rfl⟩
  rw [List.mem_append, not_or]
  exact ⟨by decide, noReturn⟩

namespace Connection

variable {hasher : String → UInt64} (config : ConnectionConfig)

open HandshakeCommand (psync)

theorem guardAuth_line (pass : String) (cmd : Command) :
    IsLine (cmd.guardAuth pass).1.serialize := by
  cases cmd with
  | auth username password =>
      rw [Command.guardAuth]
      split
      · exact isLine_simpleString (by decide)
      · exact isLine_error (by decide)
  | quit => exact isLine_simpleString (by decide)
  | _ => exact isLine_error (by decide)

theorem perform_line (moment : Moment) (server : ServerState hasher)
    (rawCmd : Option Bytes) (isAuthenticated : Bool) {cmd : HandshakeCommand}
    (simple : cmd ≠ psync) :
    ∃ reply now, cmd.command.perform moment server rawCmd isAuthenticated =
      ⟨some reply, server, now⟩ ∧ IsLine reply.serialize := by
  have accepted : IsLine Value.ok.serialize :=
    isLine_simpleString (by decide)
  cases cmd with
  | ping => exact ⟨_, _, rfl, isLine_simpleString (by decide)⟩
  | auth pass => exact ⟨_, _, rfl, accepted⟩
  | listeningPort myPort =>
      have answered : Command.executeReplConf server.replState
          ["listening-port", toString myPort.toNat] = some Value.ok := by
        rw [Command.executeReplConf, if_neg (by decide), if_neg (by decide)]
      refine ⟨_, isAuthenticated, ?_, accepted⟩
      rw [HandshakeCommand.command, Command.perform, answered]
  | capa =>
      have answered : Command.executeReplConf server.replState
          ["capa", "eof", "capa", "psync2"] = some Value.ok := by
        rw [Command.executeReplConf, if_neg (by decide), if_neg (by decide)]
      refine ⟨_, isAuthenticated, ?_, accepted⟩
      rw [HandshakeCommand.command, Command.perform, answered]
  | psync => exact absurd rfl simple

/-- A command before `PSYNC` is answered with a line, and nothing else happens
except to the connection's own authentication. -/
theorem dispatch_simple (moment : Moment) (server : ServerState hasher)
    (connection : Connection) (rawCmd : Bytes) {cmd : HandshakeCommand}
    (simple : cmd ≠ psync) :
    ∃ reply isAuthenticated, IsLine reply ∧
      dispatch config moment server connection rawCmd cmd.value =
        ⟨server,
          { connection with
            isAuthenticated := isAuthenticated
            sent := connection.sent ++ reply }⟩ := by
  have own : redirect server.cluster connection.isAuthenticated cmd.command =
      none := by
    cases cmd <;> cases server.cluster <;> rfl
  have served : dispatch config moment server connection rawCmd cmd.value =
      serve config moment server connection rawCmd cmd.command := by
    rw [dispatch, HandshakeCommand.fromValue_value]
    cases cmd <;> first | rfl | exact absurd rfl simple
  rw [served, serve, own]
  obtain ⟨reply, now, performed, line⟩ := perform_line moment server
    (some rawCmd) connection.isAuthenticated simple
  simp only [Command.execute]
  cases config.requirepass with
  | none => exact ⟨_, _, line, by rw [performed]; rfl⟩
  | some pass =>
      dsimp only
      split
      next => exact ⟨_, _, line, by rw [performed]; rfl⟩
      next => exact ⟨_, _, guardAuth_line pass cmd.command, rfl⟩

theorem dispatch_psync (moment : Moment) (server : ServerState hasher)
    (connection : Connection) (rawCmd : Bytes) :
    dispatch config moment server connection rawCmd
        HandshakeCommand.psync.value =
      ⟨{ server with
          replState := server.replState.registerDownstream config.channel },
        { connection.write (fullResync server.replState) with
          isDownstreamReplica := true }⟩ := by
  rw [dispatch, HandshakeCommand.fromValue_value]
  rfl

end Connection

end RustiCache
