import RustiCache.RespValue

/-!
# Commands

A client's value is read as a command: an array whose first element names the
command, in any letter case, followed by its arguments.
-/

namespace RustiCache

inductive ClusterSubcommand where
  | keySlot (key : String)
  | info
  | nodes
  | slots
  | meet (ip : String) (port : UInt16)
  | addSlots (slots : List UInt16)
deriving DecidableEq

inductive Command where
  | ping (message : Option String)
  | echo (message : String)
  | get (key : String)
  | set (key : String) (value : Bytes) (pxMs : Option UInt64)
  | del (keys : List String)
  | exists (keys : List String)
  | keys (pattern : String)
  | info (section_ : Option String)
  | replConf (args : List String)
  | psync (replId offset : String)
  | auth (username : Option String) (password : String)
  | cluster (subcommand : ClusterSubcommand)
  | quit
  | command
deriving DecidableEq

namespace Command

/-- The key that decides where a cluster serves the command. -/
def targetKey : Command → Option String
  | get key => some key
  | set key _ _ => some key
  | del names => names.head?
  | «exists» names => names.head?
  | _ => none

/-- The arguments that are texts; the others are skipped. -/
def texts (items : List Value) : List String :=
  items.filterMap Value.asStr

def parseU64 (text : String) : Option UInt64 :=
  ((u64.parse (asBytes text)).toOption).map fun number =>
    UInt64.ofNat number.toNat

def parseU16 (text : String) : Option UInt16 :=
  ((u16.parse (asBytes text)).toOption).map fun number =>
    UInt16.ofNat number.toNat

/-- Scan the options of `SET` for an expiry. -/
def scanOptions (pxMs : Option UInt64) : List Value → Option UInt64
  | [] => pxMs
  | [_] => pxMs
  | opt :: argument :: items =>
      if toAsciiUppercase (opt.asStr.getD "") = "PX" then
        match argument.asStr with
        | some ms => scanOptions (parseU64 ms) items
        | none => scanOptions pxMs items
      else
        scanOptions pxMs (argument :: items)

/-- The value argument of `SET`. -/
def valueBytes (item : Value) : Bytes :=
  item.asBytes?.getD (asBytes (item.asStr.getD ""))

def parseSlot (item : Value) : Except String UInt16 :=
  match item.asStr.bind parseU16 with
  | some slot => .ok slot
  | none => .error "Invalid slot integer"

def wrongArguments (name : String) : Except String Command :=
  .error s!"ERR wrong number of arguments for '{name}' command"

/-- The arguments of `CLUSTER` after the subcommand. -/
def clusterFromItems (sub : String) (items : List Value) :
    Except String Command :=
  match sub with
  | "KEYSLOT" =>
      match items with
      | key :: _ => .ok (cluster (.keySlot (key.asStr.getD "")))
      | [] => wrongArguments "cluster keyslot"
  | "INFO" => .ok (cluster .info)
  | "NODES" => .ok (cluster .nodes)
  | "SLOTS" => .ok (cluster .slots)
  | "MEET" =>
      match items with
      | ip :: port :: _ =>
          match port.asStr.bind parseU16 with
          | some port => .ok (cluster (.meet (ip.asStr.getD "127.0.0.1") port))
          | none => .error "Invalid port for 'cluster meet'"
      | _ => wrongArguments "cluster meet"
  | "ADDSLOTS" =>
      match items with
      | [] => wrongArguments "cluster addslots"
      | items => (items.mapM parseSlot).map fun slots => cluster (.addSlots slots)
  | other => .error s!"ERR unknown cluster subcommand '{other}'"

/-- The arguments of a command after its name. -/
def fromItems (name : String) (items : List Value) : Except String Command :=
  match name with
  | "PING" => .ok (ping (items.head?.bind Value.asStr))
  | "ECHO" =>
      match items with
      | message :: _ => .ok (echo (message.asStr.getD ""))
      | [] => wrongArguments "echo"
  | "GET" =>
      match items with
      | key :: _ =>
          match key.asStr with
          | some key => .ok (get key)
          | none => .error "Key must be string"
      | [] => wrongArguments "get"
  | "SET" =>
      match items with
      | key :: value :: options =>
          match key.asStr with
          | some key =>
              .ok (set key (valueBytes value) (scanOptions none options))
          | none => .error "Key must be string"
      | _ => wrongArguments "set"
  | "DEL" =>
      match items with
      | [] => wrongArguments "del"
      | items => .ok (del (texts items))
  | "EXISTS" =>
      match items with
      | [] => wrongArguments "exists"
      | items => .ok («exists» (texts items))
  | "KEYS" => .ok (keys ((items.head?.bind Value.asStr).getD "*"))
  | "INFO" => .ok (info (items.head?.bind Value.asStr))
  | "REPLCONF" => .ok (replConf (texts items))
  | "PSYNC" =>
      .ok (psync ((items.head?.bind Value.asStr).getD "?")
        ((items[1]?.bind Value.asStr).getD "-1"))
  | "AUTH" =>
      match items with
      | [] => wrongArguments "auth"
      | [password] => .ok (auth none (password.asStr.getD ""))
      | username :: password :: _ =>
          .ok (auth username.asStr (password.asStr.getD ""))
  | "CLUSTER" =>
      match items with
      | [] => wrongArguments "cluster"
      | sub :: items =>
          match sub.asStr with
          | some sub => clusterFromItems (toAsciiUppercase sub) items
          | none => .error "Subcommand must be string"
  | "QUIT" => .ok quit
  | "COMMAND" => .ok command
  | other => .error s!"unknown command '{other}'"

def fromValue : Value → Except String Command
  | .array (some []) => .error "Empty command array"
  | .array (some (name :: items)) =>
      match name.asStr with
      | some name => fromItems (toAsciiUppercase name) items
      | none => .error "First element must be string command name"
  | _ => .error "Expected Array frame for Redis command"

end Command

end RustiCache
