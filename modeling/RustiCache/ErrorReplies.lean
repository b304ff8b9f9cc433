import RustiCache.ClientConnection
import RustiCache.ReplyFrames
import RustiCache.RespAcceptance

/-!
# Error replies on the wire

The serializer writes every error behind the class `ERR`, and the parser takes
everything behind the type byte for the text of the error.  The two agree on no
error at all: a client finds `ERR` in front of every message, also of those that
begin with a class of their own.
-/

namespace RustiCache

namespace Value

mutual

/-- The value that a client makes of a serialized one. -/
def tagErrors : Value → Value
  | .error text => .error ("ERR " ++ text)
  | .array (some items) => .array (some (tagAll items))
  | value => value

def tagAll : List Value → List Value
  | [] => []
  | item :: items => tagErrors item :: tagAll items

end

/-- The value is an error or has one inside. -/
inductive HasError : Value → Prop where
  | error (text : String) : HasError (.error text)
  | array {item : Value} {items : List Value} (member : item ∈ items)
      (inside : HasError item) : HasError (.array (some items))

/-- Values whose lines are single lines, with lengths below `2 ^ 63`. -/
inductive Sendable : Value → Prop where
  | simpleString {text : String} (line : OneLine text) :
      Sendable (.simpleString text)
  | error {text : String} (line : OneLine text) : Sendable (.error text)
  | integer (number : Int64) : Sendable (.integer number)
  | nullBulk : Sendable (.bulkString none)
  | bulkString {data : Bytes} (fits : data.length < 2 ^ 63) :
      Sendable (.bulkString (some data))
  | nullArray : Sendable (.array none)
  | array {items : List Value} (fits : items.length < 2 ^ 63)
      (all : ∀ item ∈ items, Sendable item) : Sendable (.array (some items))

/-- A client decodes the reply as an error with the message. -/
def Announces (reply : Bytes) (message : String) : Prop :=
  (parse reply).1 = .ok (some (.error message))

theorem tagAll_eq (items : List Value) : tagAll items = items.map tagErrors := by
  induction items with
  | nil => rfl
  | cons item items ih => rw [tagAll, ih, List.map_cons]

/-- No value with an error inside is left as it is. -/
theorem tagErrors_ne {value : Value} (holds : HasError value) :
    tagErrors value ≠ value := by
  induction holds with
  | error text =>
      intro same
      simp [tagErrors] at same
  | @array item items member inside ih =>
      intro same
      have all : items.map tagErrors = items := by
        simpa [tagErrors, tagAll_eq] using same
      rw [← List.map_id items, List.map_map] at all
      exact ih (List.map_inj_left.mp all item member)

theorem readBack_error {text : String} (line : OneLine text) :
    ReadBack (.error ("ERR " ++ text)) (serialize (.error text)) := by
  intro rest
  have whole : OneLine ("ERR " ++ text) :=
    (oneLine_append_left (by decide) text).mpr line
  rw [serialize_error]
  exact parseRun_error whole rest

/-- What is serialized is read back with the class in front of every error, at
any depth. -/
theorem readBack_tagErrors {value : Value} (sendable : Sendable value) :
    ReadBack (tagErrors value) (serialize value) := by
  induction sendable with
  | simpleString line => exact parseRun_serialize_append (.simpleString line)
  | error line => exact readBack_error line
  | integer number => exact parseRun_serialize_append (.integer number)
  | nullBulk => exact parseRun_serialize_append .nullBulk
  | bulkString fits => exact parseRun_serialize_append (.bulkString fits)
  | nullArray => exact parseRun_serialize_append .nullArray
  | @array items fits all ih =>
      have each : ∀ row ∈ items.map fun item => (tagErrors item, serialize item),
          ReadBack row.1 row.2 := by
        intro row member
        obtain ⟨item, inItems, rfl⟩ := List.mem_map.mp member
        exact ih item inItems
      have spells : Numeral (decimal items.length)
          (items.map fun item => (tagErrors item, serialize item)).length := by
        rw [List.length_map]
        exact numeral_decimal fits
      have run := parseRun_array spells (by rwa [List.length_map]) each
      simp only [List.map_map, Function.comp_def] at run
      rw [tagErrors, tagAll_eq, serialize, serializeAll_eq]
      exact run

theorem parse_serialize_tagErrors {value : Value} (sendable : Sendable value)
    (later : Bytes) :
    parse (serialize value ++ later) = (.ok (some (tagErrors value)), later) := by
  rw [parse, readBack_tagErrors sendable later]

/-- What the error parser answers with is a single line. -/
theorem oneLine_of_parse {src : Bytes} {text : String}
    (parsed : (parse (45 :: src)).1 = .ok (some (.error text))) :
    OneLine text := by
  rw [parse, parseRun_minus, parseError, parseLine] at parsed
  cases found : lineText (45 :: src) with
  | error reason => simp [found] at parsed
  | ok line =>
      cases line with
      | none => simp [found] at parsed
      | some pair =>
          obtain ⟨content, consumed⟩ := pair
          have same : content = text := by simpa [found] using parsed
          rw [← same]
          exact (lineText_shape (by decide) found).1

/-- No message comes back as it was, whatever it contains. -/
theorem not_announces_error (message : String) :
    ¬ Announces (serialize (.error message)) message := by
  intro announces
  have line : OneLine message := by
    rw [Announces, serialize_error] at announces
    exact oneLine_of_parse announces
  have tagged := parse_serialize_tagErrors (.error line) []
  rw [List.append_nil] at tagged
  rw [Announces, tagged] at announces
  exact tagErrors_ne (.error message) (by simpa using announces)

end Value

namespace Connection

variable {hasher : String → UInt64} (config : ConnectionConfig)
  (moment : Moment) (server : ServerState hasher) (connection : Connection)
  (rawCmd : Bytes)

theorem sent_of_refused {request : Value} {message : String}
    (refused : Command.fromValue request = .error message) :
    (dispatch config moment server connection rawCmd request).connection.sent =
      connection.sent ++ (Value.error message).serialize := by
  rw [dispatch, refused]
  rfl

theorem sent_of_executed {cmd : Command} {reply : Value}
    (here : redirect server.cluster connection.isAuthenticated cmd = none)
    (executed : (cmd.execute moment server (some rawCmd) config.requirepass
      connection.isAuthenticated).reply = some reply) :
    (serve config moment server connection rawCmd cmd).connection.sent =
      connection.sent ++ reply.serialize := by
  rw [serve, here]
  dsimp only
  rw [executed]
  rfl

end Connection

namespace Value

/-- Error replies never reach the client as they were made.  A value with an
error inside is decoded as another one, which has `ERR` in front of each error;
and what a connection writes for a message of the command parser, or of the
execution of a command in any state, is not decoded as that message. -/
theorem errors_never_announced (hasher : String → UInt64) :
    (∀ value, HasError value → Sendable value → ∀ later,
      parse (serialize value ++ later) =
          (.ok (some (tagErrors value)), later) ∧
        tagErrors value ≠ value) ∧
    (∀ config moment (server : ServerState hasher) connection rawCmd request
      message, Command.fromValue request = .error message →
      ∃ reply,
        (Connection.dispatch config moment server connection rawCmd
          request).connection.sent = connection.sent ++ reply ∧
        ¬ Announces reply message) ∧
    ∀ config moment (server : ServerState hasher) connection rawCmd cmd message,
      Connection.redirect server.cluster connection.isAuthenticated cmd =
        none →
      (cmd.execute moment server (some rawCmd) config.requirepass
        connection.isAuthenticated).reply = some (.error message) →
      ∃ reply,
        (Connection.serve config moment server connection rawCmd
          cmd).connection.sent = connection.sent ++ reply ∧
        ¬ Announces reply message := by
  refine ⟨?_, ?_, ?_⟩
  · intro value holds sendable later
    exact ⟨parse_serialize_tagErrors sendable later, tagErrors_ne holds⟩
  · intro config moment server connection rawCmd request message refused
    exact ⟨_, Connection.sent_of_refused config moment server connection rawCmd
      refused, not_announces_error message⟩
  · intro config moment server connection rawCmd cmd message here executed
    exact ⟨_, Connection.sent_of_executed config moment server connection rawCmd
      here executed, not_announces_error message⟩

/-- The refusal of a client that has not given the password. -/
theorem noauth_announced_as_err :
    let server : ServerState (fun _ => 0) :=
      ⟨.withConfig _ 1 0, .newMaster none, fun _ => none, none⟩
    let reply := Value.error "NOAUTH Authentication required."
    ((Command.get "k").execute ⟨fun _ => 0, .front⟩ server none (some "secret")
        false).reply = some reply ∧
      parse (serialize reply) =
        (.ok (some (.error "ERR NOAUTH Authentication required.")), []) ∧
      ¬ Announces (serialize reply) "NOAUTH Authentication required." := by
  intro server reply
  refine ⟨rfl, ?_, not_announces_error _⟩
  decide

end Value

end RustiCache
