import RustiCache.ConnectionStreams

/-!
# Commands over the wire

A client sends a command as an array of bulk strings.  Its keywords may be
spelled in any letter case.  Every command comes through, with one exception
that no frame is read as: the assignment of no slots.  So a connection executes
the commands that a client has sent, in their order, whatever the chunks.
-/

namespace RustiCache

open FrameDecoder (stream)

/-- Keywords are spelled in any letter case. -/
def Spells (spell : String → String) : Prop :=
  ∀ word, toAsciiUppercase (spell word) = toAsciiUppercase word

def ClusterSubcommand.parts (spell : String → String) :
    ClusterSubcommand → List Bytes
  | keySlot key => [asBytes (spell "KEYSLOT"), asBytes key]
  | info => [asBytes (spell "INFO")]
  | nodes => [asBytes (spell "NODES")]
  | slots => [asBytes (spell "SLOTS")]
  | meet ip port => [asBytes (spell "MEET"), asBytes ip, decimal port.toNat]
  | addSlots numbers =>
      asBytes (spell "ADDSLOTS") :: numbers.map fun slot => decimal slot.toNat

namespace Command

/-- The keys of a command that takes at least one argument.  An argument that is
not a text is skipped. -/
def keyArguments : List String → List Bytes
  | [] => [[0xff]]
  | names => names.map asBytes

/-- The parts of the array in which a command is sent. -/
def parts (spell : String → String) : Command → List Bytes
  | ping message => asBytes (spell "PING") :: message.toList.map asBytes
  | echo message => [asBytes (spell "ECHO"), asBytes message]
  | get key => [asBytes (spell "GET"), asBytes key]
  | set key value none => [asBytes (spell "SET"), asBytes key, value]
  | set key value (some ms) =>
      [asBytes (spell "SET"), asBytes key, value, asBytes (spell "PX"),
        decimal ms.toNat]
  | del names => asBytes (spell "DEL") :: keyArguments names
  | «exists» names => asBytes (spell "EXISTS") :: keyArguments names
  | keys pattern => [asBytes (spell "KEYS"), asBytes pattern]
  | info section_ => asBytes (spell "INFO") :: section_.toList.map asBytes
  | replConf args => asBytes (spell "REPLCONF") :: args.map asBytes
  | psync replId offset =>
      [asBytes (spell "PSYNC"), asBytes replId, asBytes offset]
  | auth username password =>
      asBytes (spell "AUTH") ::
        (username.toList.map asBytes ++ [asBytes password])
  | cluster subcommand =>
      asBytes (spell "CLUSTER") :: subcommand.parts spell
  | quit => [asBytes (spell "QUIT")]
  | command => [asBytes (spell "COMMAND")]

/-- The frame in which a command is sent. -/
def frame (spell : String → String) (cmd : Command) : Bytes × Value :=
  let value := Value.bulkArray (cmd.parts spell)
  (value.serialize, value)

theorem asStr_bulk (text : String) :
    (Value.bulkString (some (asBytes text))).asStr = some text := by
  rw [Value.asStr, fromUtf8_asBytes]
  rfl

theorem texts_bulk (names : List String) :
    texts ((names.map asBytes).map fun part => .bulkString (some part)) =
      names := by
  induction names with
  | nil => rfl
  | cons name names ih =>
      rw [List.map_cons, List.map_cons, texts,
        List.filterMap_cons_some (asStr_bulk name)]
      exact congrArg (name :: ·) ih

theorem asStr_decimal (number : Nat) :
    (Value.bulkString (some (decimal number))).asStr = some (toString number) :=
  asStr_bulk (toString number)

theorem parseU64_decimal (ms : UInt64) :
    parseU64 (toString ms.toNat) = some ms := by
  have bound := ms.toNat_lt
  have read : u64.parse (asBytes (toString ms.toNat)) = .ok (ms.toNat : Int) :=
    u64.parse_decimal ms.toNat (by simp only [u64]; omega)
  rw [parseU64, read]
  simp [Except.toOption]

theorem parseU16_decimal (number : UInt16) :
    parseU16 (toString number.toNat) = some number := by
  have bound := number.toNat_lt
  have read : u16.parse (asBytes (toString number.toNat)) =
      .ok (number.toNat : Int) :=
    u16.parse_decimal number.toNat (by simp only [u16]; omega)
  rw [parseU16, read]
  simp [Except.toOption]

theorem parseSlots_decimal (slots : List UInt16) :
    ((slots.map fun slot => decimal slot.toNat).map fun part =>
      Value.bulkString (some part)).mapM parseSlot = .ok slots := by
  induction slots with
  | nil => rfl
  | cons slot slots ih =>
      rw [List.map_cons, List.map_cons, List.mapM_cons, ih, parseSlot,
        asStr_decimal, Option.bind_some, parseU16_decimal]
      rfl

theorem texts_keyArguments (names : List String) :
    texts ((keyArguments names).map fun part => .bulkString (some part)) =
      names := by
  cases names with
  | nil => decide +kernel
  | cons name names => exact texts_bulk (name :: names)

theorem keyArguments_ne_nil (names : List String) : keyArguments names ≠ [] := by
  cases names <;> simp [keyArguments]

/-- The arguments of a frame, as its items. -/
def bulks (parts : List Bytes) : List Value :=
  parts.map fun part => .bulkString (some part)

section Spelled

variable {spell : String → String} (spells : Spells spell)

include spells

theorem fromValue_parts (keyword : String)
    (upper : toAsciiUppercase keyword = keyword) (arguments : List Bytes) :
    fromValue (.bulkArray (asBytes (spell keyword) :: arguments)) =
      fromItems keyword (bulks arguments) := by
  rw [Value.bulkArray, List.map_cons, fromValue, asStr_bulk]
  dsimp only
  rw [spells keyword, upper]
  rfl

theorem fromItems_cluster (keyword : String)
    (upper : toAsciiUppercase keyword = keyword) (arguments : List Bytes) :
    fromItems "CLUSTER" (bulks (asBytes (spell keyword) :: arguments)) =
      clusterFromItems keyword (bulks arguments) := by
  rw [bulks, List.map_cons, fromItems, asStr_bulk]
  dsimp only
  rw [spells keyword, upper]
  rfl

theorem fromItems_clusterParts {subcommand : ClusterSubcommand}
    (sendable : subcommand ≠ .addSlots []) :
    fromItems "CLUSTER" (bulks (subcommand.parts spell)) =
      .ok (.cluster subcommand) := by
  cases subcommand with
  | keySlot key =>
      rw [ClusterSubcommand.parts,
        fromItems_cluster spells "KEYSLOT" (by decide)]
      simp [bulks, clusterFromItems, asStr_bulk]
  | info => exact fromItems_cluster spells "INFO" (by decide) []
  | nodes => exact fromItems_cluster spells "NODES" (by decide) []
  | slots => exact fromItems_cluster spells "SLOTS" (by decide) []
  | meet ip port =>
      rw [ClusterSubcommand.parts, fromItems_cluster spells "MEET" (by decide)]
      simp only [bulks, List.map_cons, clusterFromItems, asStr_bulk,
        asStr_decimal, Option.bind_some, parseU16_decimal, Option.getD_some]
  | addSlots numbers =>
      rw [ClusterSubcommand.parts,
        fromItems_cluster spells "ADDSLOTS" (by decide)]
      cases numbers with
      | nil => exact absurd rfl sendable
      | cons slot slots =>
          change ((bulks _).mapM parseSlot).map _ = _
          rw [bulks, parseSlots_decimal]
          rfl

/-- A command is read as it has been sent. -/
theorem fromValue_frame {cmd : Command}
    (sendable : cmd ≠ .cluster (.addSlots [])) :
    fromValue (cmd.frame spell).2 = .ok cmd := by
  change fromValue (.bulkArray (cmd.parts spell)) = .ok cmd
  have keyItems (names : List String) : bulks (keyArguments names) ≠ [] := by
    simp [bulks, keyArguments_ne_nil]
  cases cmd with
  | ping message =>
      rw [parts, fromValue_parts spells "PING" (by decide)]
      cases message <;> simp [bulks, fromItems, asStr_bulk]
  | echo message =>
      rw [parts, fromValue_parts spells "ECHO" (by decide)]
      simp [bulks, fromItems, asStr_bulk]
  | get key =>
      rw [parts, fromValue_parts spells "GET" (by decide)]
      simp [bulks, fromItems, asStr_bulk]
  | set key value pxMs =>
      cases pxMs with
      | none =>
          rw [parts, fromValue_parts spells "SET" (by decide)]
          simp [bulks, fromItems, asStr_bulk, valueBytes, Value.asBytes?,
            scanOptions]
      | some ms =>
          have isPx : toAsciiUppercase (spell "PX") = "PX" :=
            (spells "PX").trans (by decide)
          rw [parts, fromValue_parts spells "SET" (by decide)]
          simp only [bulks, List.map_cons, List.map_nil, fromItems, asStr_bulk,
            valueBytes, Value.asBytes?, Option.getD_some, scanOptions, isPx,
            if_true, asStr_decimal, parseU64_decimal]
  | del names =>
      rw [parts, fromValue_parts spells "DEL" (by decide)]
      simp only [fromItems]
      split
      next empty => exact absurd empty (keyItems names)
      next => exact congrArg (Except.ok ∘ del) (texts_keyArguments names)
  | «exists» names =>
      rw [parts, fromValue_parts spells "EXISTS" (by decide)]
      simp only [fromItems]
      split
      next empty => exact absurd empty (keyItems names)
      next => exact congrArg (Except.ok ∘ «exists») (texts_keyArguments names)
  | keys pattern =>
      rw [parts, fromValue_parts spells "KEYS" (by decide)]
      simp [bulks, fromItems, asStr_bulk]
  | info section_ =>
      rw [parts, fromValue_parts spells "INFO" (by decide)]
      cases section_ <;> simp [bulks, fromItems, asStr_bulk]
  | replConf args =>
      rw [parts, fromValue_parts spells "REPLCONF" (by decide)]
      exact congrArg (Except.ok ∘ replConf) (texts_bulk args)
  | psync replId offset =>
      rw [parts, fromValue_parts spells "PSYNC" (by decide)]
      simp [bulks, fromItems, asStr_bulk]
  | auth username password =>
      rw [parts, fromValue_parts spells "AUTH" (by decide)]
      cases username <;> simp [bulks, fromItems, asStr_bulk]
  | cluster subcommand =>
      rw [parts, fromValue_parts spells "CLUSTER" (by decide)]
      exact fromItems_clusterParts spells fun none => sendable (by rw [none])
  | quit => exact fromValue_parts spells "QUIT" (by decide) []
  | command => exact fromValue_parts spells "COMMAND" (by decide) []

end Spelled

theorem parseSlots_ne_nil {items : List Value} (nonempty : items ≠ []) :
    items.mapM parseSlot ≠ .ok [] := by
  cases items with
  | nil => exact absurd rfl nonempty
  | cons item items =>
      rw [List.mapM_cons]
      cases parseSlot item with
      | error reason => nofun
      | ok slot => cases items.mapM parseSlot <;> nofun

theorem clusterFromItems_ne_addSlots_nil (sub : String) (items : List Value) :
    clusterFromItems sub items ≠ .ok (.cluster (.addSlots [])) := by
  intro decoded
  unfold clusterFromItems at decoded
  split at decoded
  case h_6 =>
    split at decoded
    next => cases decoded
    next nonempty =>
      cases parsed : items.mapM parseSlot with
      | error reason =>
          rw [parsed] at decoded
          cases decoded
      | ok slots =>
          rw [parsed] at decoded
          cases decoded
          exact parseSlots_ne_nil nonempty parsed
  case h_5 =>
    split at decoded
    · split at decoded <;> cases decoded
    · cases decoded
  case h_1 => split at decoded <;> cases decoded
  all_goals cases decoded

/-- No frame is read as the assignment of no slots. -/
theorem fromValue_ne_addSlots_nil (value : Value) :
    fromValue value ≠ .ok (.cluster (.addSlots [])) := by
  intro decoded
  unfold fromValue at decoded
  split at decoded
  next => cases decoded
  next name items =>
    split at decoded
    next keyword isName =>
      unfold fromItems at decoded
      split at decoded
      case h_12 =>
        split at decoded
        next => cases decoded
        next =>
          split at decoded
          next => exact clusterFromItems_ne_addSlots_nil _ _ decoded
          next => cases decoded
      all_goals repeat' (first | cases decoded | split at decoded)
    next => cases decoded
  next => cases decoded

/-- A command can be sent unless it is the assignment of no slots. -/
theorem received_iff (cmd : Command) :
    (∃ value, fromValue value = .ok cmd) ↔ cmd ≠ .cluster (.addSlots []) := by
  constructor
  · rintro ⟨value, decoded⟩ rfl
    exact fromValue_ne_addSlots_nil value decoded
  · intro sendable
    exact ⟨_, fromValue_frame (fun _ => rfl : Spells id) sendable⟩

/-- What a command needs of the memory in which its frame is read. -/
structure FitsMemory (spell : String → String) (cmd : Command) : Prop where
  few : (cmd.parts spell).length * Value.valueSize < 2 ^ 63
  short : ∀ part ∈ cmd.parts spell, part.length < 2 ^ 63

theorem FitsMemory.accepts {spell : String → String} {cmd : Command}
    (fits : cmd.FitsMemory spell) :
    Value.decoder.Accepts (cmd.frame spell).1 (cmd.frame spell).2 :=
  Value.accepts_bulkArray fits.few fits.short

end Command

/-- A command as a client sends it: with its keywords in some letter case, one
that can be sent, and short enough to be read. -/
structure SentCommand where
  cmd : Command
  spell : String → String
  spells : Spells spell
  sendable : cmd ≠ .cluster (.addSlots [])
  fits : cmd.FitsMemory spell

namespace Session

variable {hasher : String → UInt64} {config : ConnectionConfig}

/-- **The commands arrive as they have been sent.**  Whatever chunks the frames
of a client's commands are cut into, and whatever other tasks do in between, the
frames that the connection has handled so far are read as the first of these
commands, in their order, and as all of them once it waits with all bytes
read. -/
theorem commands_received {sent : List SentCommand}
    {server : ServerState hasher} {events : List (SessionEvent hasher)}
    {session : Session hasher} {unread : Bytes}
    (ran : runActions (step config) (start config server) events = some session)
    (delivered : (SessionEvent.reads events).flatten ++ unread =
      stream (sent.map fun item => item.cmd.frame item.spell)) :
    session.connection.handled.map (fun frame => Command.fromValue frame.2) =
        (sent.take session.connection.handled.length).map (fun item =>
          .ok item.cmd) ∧
      (session.connection.phase = .waiting → unread = [] →
        session.connection.handled.length = sent.length) := by
  have accepted : ∀ frame ∈ sent.map fun item => item.cmd.frame item.spell,
      Value.decoder.Accepts frame.1 frame.2 := by
    intro frame member
    obtain ⟨item, -, rfl⟩ := List.mem_map.mp member
    exact item.fits.accepts
  have framed := framed_of_reaches config accepted (reaches_of_runActions ran)
    delivered
  constructor
  · have front := List.prefix_iff_eq_take.mp framed.handled
    rw [← List.map_take] at front
    generalize session.connection.handled.length = count at front
    rw [front, List.map_map]
    refine List.map_congr_left fun item _ => ?_
    exact Command.fromValue_frame item.spells item.sendable
  · rintro waiting rfl
    rw [(framed.finished accepted waiting).2, List.length_map]

/-- One keyword is spelled in lower case. -/
def lowerGet (word : String) : String :=
  if word = "GET" then "get" else word

theorem spells_lowerGet : Spells lowerGet := by
  intro word
  unfold lowerGet
  split
  next isGet =>
    rw [isGet]
    decide
  next => rfl

/-- A write with an expiry, and a read. -/
def sentCommands : List SentCommand :=
  [⟨.set "a" [118] (some 5), lowerGet, spells_lowerGet, by decide,
      by decide +kernel, by decide +kernel⟩,
    ⟨.get "a", lowerGet, spells_lowerGet, by decide, by decide +kernel,
      by decide +kernel⟩]

/-- The frames arrive in two chunks. -/
def sentEvents : List (SessionEvent fun _ => 0) :=
  let bytes := stream (sentCommands.map fun item => item.cmd.frame item.spell)
  let moment : Moment := ⟨fun _ => 0, .front⟩
  [.read (bytes.take 50), .process moment, .process moment,
    .read (bytes.drop 50), .process moment, .process moment]

theorem commands_received_sentCommands :
    let server : ServerState fun _ => 0 :=
      ⟨Db.withConfig _ 1 0, .newMaster none, fun _ => none, none⟩
    ∃ session, runActions (step ⟨none, 1024, 0⟩) (start ⟨none, 1024, 0⟩ server)
        sentEvents = some session ∧
      session.connection.handled.map (fun frame => Command.fromValue frame.2) =
        [.ok (.set "a" [118] (some 5)), .ok (.get "a")] := by
  intro server
  have found : (runActions (step ⟨none, 1024, 0⟩)
      (start ⟨none, 1024, 0⟩ server) sentEvents).map
        (·.connection.phase) = some .waiting := by
    decide +kernel
  obtain ⟨session, ran, waiting⟩ := Option.map_eq_some_iff.mp found
  have delivered : (SessionEvent.reads sentEvents).flatten ++ [] =
      stream (sentCommands.map fun item => item.cmd.frame item.spell) := by
    decide +kernel
  obtain ⟨decoded, all⟩ := commands_received ran delivered
  rw [all waiting rfl, List.take_length] at decoded
  exact ⟨session, ran, decoded⟩

end Session

end RustiCache
