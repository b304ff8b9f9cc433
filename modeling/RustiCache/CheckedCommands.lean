import RustiCache.CheckedOperations
import RustiCache.Commands

/-!
# Reading commands without panics

The reader of commands once more, with every access to the argument list and
every step of the option index written out as in the source.  The length checks
before each access make it return what the plain reader returns.
-/

namespace RustiCache

namespace Command

namespace Checked

open RustiCache.Checked

/-- The option loop of `SET` from an index on, for a number of rounds. -/
def scanOptions (items : List Value) :
    Nat → Nat → Option UInt64 → Checked (Option UInt64)
  | 0, _, pxMs => return pxMs
  | rounds + 1, idx, pxMs => do
      if idx < items.length then
        let opt ← index items idx
        if toAsciiUppercase (opt.asStr.getD "") = "PX" then
          if (← add (2 ^ 64) idx 1) < items.length then
            let argument ← index items (← add (2 ^ 64) idx 1)
            let pxMs :=
              match argument.asStr with
              | some ms => parseU64 ms
              | none => pxMs
            scanOptions items rounds (← add (2 ^ 64) idx 2) pxMs
          else
            scanOptions items rounds (← add (2 ^ 64) idx 1) pxMs
        else
          scanOptions items rounds (← add (2 ^ 64) idx 1) pxMs
      else
        return pxMs

def clusterFromItems (sub : String) (items : List Value) :
    Checked (Except String Command) := do
  match sub with
  | "KEYSLOT" =>
      if items.length < 3 then
        return wrongArguments "cluster keyslot"
      else
        return .ok (cluster (.keySlot ((← index items 2).asStr.getD "")))
  | "INFO" => return .ok (cluster .info)
  | "NODES" => return .ok (cluster .nodes)
  | "SLOTS" => return .ok (cluster .slots)
  | "MEET" =>
      if items.length < 4 then
        return wrongArguments "cluster meet"
      else
        let ip := (← index items 2).asStr.getD "127.0.0.1"
        match (← index items 3).asStr.bind parseU16 with
        | some port => return .ok (cluster (.meet ip port))
        | none => return .error "Invalid port for 'cluster meet'"
  | "ADDSLOTS" =>
      if items.length < 3 then
        return wrongArguments "cluster addslots"
      else
        return ((← sliceFrom items 2).mapM parseSlot).map fun slots =>
          cluster (.addSlots slots)
  | other => return .error s!"ERR unknown cluster subcommand '{other}'"

/-- The arguments of a command, with its name at index zero. -/
def fromItems (name : String) (items : List Value) :
    Checked (Except String Command) := do
  match name with
  | "PING" =>
      if 1 < items.length then
        return .ok (ping (← index items 1).asStr)
      else
        return .ok (ping none)
  | "ECHO" =>
      if items.length < 2 then
        return wrongArguments "echo"
      else
        return .ok (echo ((← index items 1).asStr.getD ""))
  | "GET" =>
      if items.length < 2 then
        return wrongArguments "get"
      else
        match (← index items 1).asStr with
        | some key => return .ok (get key)
        | none => return .error "Key must be string"
  | "SET" =>
      if items.length < 3 then
        return wrongArguments "set"
      else
        match (← index items 1).asStr with
        | some key =>
            let value := valueBytes (← index items 2)
            let pxMs ← scanOptions items items.length 3 none
            return .ok (set key value pxMs)
        | none => return .error "Key must be string"
  | "DEL" =>
      if items.length < 2 then
        return wrongArguments "del"
      else
        return .ok (del (texts (← sliceFrom items 1)))
  | "EXISTS" =>
      if items.length < 2 then
        return wrongArguments "exists"
      else
        return .ok («exists» (texts (← sliceFrom items 1)))
  | "KEYS" =>
      if 1 < items.length then
        return .ok (keys ((← index items 1).asStr.getD "*"))
      else
        return .ok (keys "*")
  | "INFO" => return .ok (info (items[1]?.bind Value.asStr))
  | "REPLCONF" => return .ok (replConf (texts (← sliceFrom items 1)))
  | "PSYNC" =>
      return .ok (psync ((items[1]?.bind Value.asStr).getD "?")
        ((items[2]?.bind Value.asStr).getD "-1"))
  | "AUTH" =>
      if items.length = 2 then
        return .ok (auth none ((← index items 1).asStr.getD ""))
      else if 3 ≤ items.length then
        let username := (← index items 1).asStr
        return .ok (auth username ((← index items 2).asStr.getD ""))
      else
        return wrongArguments "auth"
  | "CLUSTER" =>
      if items.length < 2 then
        return wrongArguments "cluster"
      else
        match (← index items 1).asStr with
        | some sub => clusterFromItems (toAsciiUppercase sub) items
        | none => return .error "Subcommand must be string"
  | "QUIT" => return .ok quit
  | "COMMAND" => return .ok command
  | other => return .error s!"unknown command '{other}'"

def fromValue : Value → Checked (Except String Command)
  | .array (some items) => do
      if items.isEmpty then
        return .error "Empty command array"
      else
        match (← index items 0).asStr with
        | some name => fromItems (toAsciiUppercase name) items
        | none => return .error "First element must be string command name"
  | _ => return .error "Expected Array frame for Redis command"

/-- The option loop from an index on scans the arguments behind it. -/
theorem scanOptions_eq {items : List Value} (short : items.length < 2 ^ 63)
    (rounds idx : Nat) (pxMs : Option UInt64)
    (enough : items.length ≤ idx + rounds) :
    scanOptions items rounds idx pxMs =
      .ok (Command.scanOptions pxMs (items.drop idx)) := by
  induction rounds generalizing idx pxMs with
  | zero =>
      have nothing : items.drop idx = [] := List.drop_eq_nil_of_le enough
      rw [nothing]
      rfl
  | succ rounds ih =>
      rw [scanOptions]
      by_cases within : idx < items.length
      · have one : add (2 ^ 64) idx 1 = .ok (idx + 1) := add_eq (by omega)
        have two : add (2 ^ 64) idx 2 = .ok (idx + 2) := add_eq (by omega)
        have next := List.drop_eq_getElem_cons within
        have optAt : index items idx = .ok items[idx] :=
          index_eq (List.getElem?_eq_getElem within)
        rw [if_pos within, optAt, ok_bind, one, two]
        simp only [ok_bind]
        rw [ih (idx + 1) pxMs (by omega)]
        cases rest : items.drop (idx + 1) with
        | nil =>
            have last : items.length ≤ idx + 1 :=
              List.drop_eq_nil_iff.mp rest
            rw [if_neg (Nat.not_lt_of_le last), next, rest, ite_self]
            rfl
        | cons argument others =>
            have further : idx + 1 < items.length := by
              by_contra beyond
              rw [List.drop_eq_nil_of_le (Nat.le_of_not_lt beyond)] at rest
              cases rest
            have behind := List.drop_eq_getElem_cons further
            rw [rest] at behind
            obtain ⟨same, tail⟩ := List.cons.inj behind
            have argumentAt : index items (idx + 1) = .ok argument := by
              rw [same]
              exact index_eq (List.getElem?_eq_getElem further)
            rw [if_pos further, argumentAt, ok_bind,
              ih (idx + 2) _ (by omega), ← tail, next, rest,
              Command.scanOptions]
            split
            · cases argument.asStr <;> rfl
            · rfl
      · rw [if_neg within, List.drop_eq_nil_of_le (Nat.le_of_not_lt within)]
        rfl

theorem clusterFromItems_eq (sub : String) (name head : Value)
    (rest : List Value) :
    clusterFromItems sub (name :: head :: rest) =
      .ok (Command.clusterFromItems sub rest) := by
  unfold clusterFromItems
  split
  · cases rest <;> rfl
  · rfl
  · rfl
  · rfl
  · match rest with
    | [] => rfl
    | [_] => rfl
    | ip :: port :: rest =>
        have ipAt : index (name :: head :: ip :: port :: rest) 2 = .ok ip := rfl
        have portAt :
            index (name :: head :: ip :: port :: rest) 3 = .ok port := rfl
        rw [if_neg (by simp), ipAt, portAt]
        simp only [ok_bind]
        cases number : port.asStr.bind parseU16 <;>
          simp [Command.clusterFromItems, number]
  · cases rest with
    | nil => rfl
    | cons slot rest =>
        have slots : sliceFrom (name :: head :: slot :: rest) 2 =
            .ok (slot :: rest) := sliceFrom_eq (by simp)
        rw [if_neg (by simp), slots]
        rfl
  · simp only [Command.clusterFromItems, pure_eq]

/-- Every access to the arguments is guarded. -/
theorem fromItems_eq (name : String) (head : Value) (rest : List Value)
    (short : (head :: rest).length < 2 ^ 63) :
    fromItems name (head :: rest) = .ok (Command.fromItems name rest) := by
  have tail : sliceFrom (head :: rest) 1 = .ok rest := sliceFrom_eq (by simp)
  unfold fromItems
  split
  · cases rest <;> rfl
  · cases rest <;> rfl
  · cases rest with
    | nil => rfl
    | cons key rest =>
        have keyAt : index (head :: key :: rest) 1 = .ok key := rfl
        rw [if_neg (by simp), keyAt, ok_bind]
        cases text : key.asStr <;> simp [Command.fromItems, text]
  · rcases rest with _ | ⟨key, _ | ⟨value, options⟩⟩
    · rfl
    · rfl
    · have keyAt : index (head :: key :: value :: options) 1 = .ok key := rfl
      have valueAt :
          index (head :: key :: value :: options) 2 = .ok value := rfl
      have scanned := scanOptions_eq short
        (head :: key :: value :: options).length 3 none
        (Nat.le_add_left _ _)
      rw [if_neg (by simp), keyAt, valueAt, scanned]
      simp only [ok_bind]
      cases text : key.asStr <;> simp [Command.fromItems, text]
  · cases rest with
    | nil => rfl
    | cons key rest =>
        rw [if_neg (by simp), tail]
        rfl
  · cases rest with
    | nil => rfl
    | cons key rest =>
        rw [if_neg (by simp), tail]
        rfl
  · cases rest <;> rfl
  · cases rest <;> rfl
  · rw [tail]
    rfl
  · rcases rest with _ | ⟨replId, _ | ⟨offset, others⟩⟩
    · rfl
    · rfl
    · rfl
  · rcases rest with _ | ⟨username, _ | ⟨password, others⟩⟩
    · rfl
    · rfl
    · rw [if_neg (by simp), if_pos (by simp)]
      rfl
  · cases rest with
    | nil => rfl
    | cons sub rest =>
        have subAt : index (head :: sub :: rest) 1 = .ok sub := rfl
        rw [if_neg (by simp), subAt, ok_bind]
        cases text : sub.asStr with
        | none => simp [Command.fromItems, text]
        | some name =>
            simp only [Command.fromItems, text]
            exact clusterFromItems_eq _ head sub rest
  · rfl
  · rfl
  · simp only [Command.fromItems, pure_eq]

/-- Reading a command does not panic. -/
theorem fromValue_eq {value : Value}
    (short : ∀ items, value = .array (some items) → items.length < 2 ^ 63) :
    fromValue value = .ok (Command.fromValue value) := by
  match value with
  | .simpleString _ => rfl
  | .error _ => rfl
  | .integer _ => rfl
  | .bulkString _ => rfl
  | .array none => rfl
  | .array (some []) => rfl
  | .array (some (name :: items)) =>
      have nameAt : index (name :: items) 0 = .ok name := rfl
      rw [fromValue, if_neg (by simp), nameAt, ok_bind, Command.fromValue]
      cases name.asStr with
      | none => rfl
      | some text => exact fromItems_eq _ name items (short _ rfl)

end Checked

end Command

end RustiCache
