import RustiCache.Commands
import RustiCache.ReplyFrames

/-!
# Refused requests

A frame that is no command is refused with a text.  The text repeats a part of
the frame in two cases only: a command of an unknown name, and a subcommand of
`CLUSTER` of an unknown name.
-/

namespace RustiCache

open Value (OneLine)

namespace Command

def knownNames : List String :=
  ["PING", "ECHO", "GET", "SET", "DEL", "EXISTS", "KEYS", "INFO", "REPLCONF",
    "PSYNC", "AUTH", "CLUSTER", "QUIT", "COMMAND"]

def knownSubcommands : List String :=
  ["KEYSLOT", "INFO", "NODES", "SLOTS", "MEET", "ADDSLOTS"]

/-- The name of a command, or of a subcommand of `CLUSTER`, if there is none of
that name. -/
def unknownIn (name : String) (items : List Value) : Option String :=
  if name ∉ knownNames then
    some name
  else if name = "CLUSTER" then
    ((items.head?.bind Value.asStr).map toAsciiUppercase).filter
      (· ∉ knownSubcommands)
  else
    none

def unknownName : Value → Option String
  | .array (some (name :: items)) =>
      name.asStr.bind fun name => unknownIn (toAsciiUppercase name) items
  | _ => none

theorem fromItems_of_unknown {name : String} (unknown : name ∉ knownNames)
    (items : List Value) :
    fromItems name items = .error s!"unknown command '{name}'" := by
  unfold fromItems
  split
  all_goals first
    | rfl
    | exact absurd (by decide) unknown

theorem clusterFromItems_of_unknown {sub : String}
    (unknown : sub ∉ knownSubcommands) (items : List Value) :
    clusterFromItems sub items =
      .error s!"ERR unknown cluster subcommand '{sub}'" := by
  unfold clusterFromItems
  split
  all_goals first
    | rfl
    | exact absurd (by decide) unknown

theorem parseSlots_error {items : List Value} {reason : String}
    (failed : items.mapM parseSlot = .error reason) :
    reason = "Invalid slot integer" := by
  induction items with
  | nil => cases failed
  | cons item items ih =>
      rw [List.mapM_cons] at failed
      cases first : parseSlot item with
      | error refusal =>
          rw [first] at failed
          cases failed
          rw [parseSlot] at first
          split at first <;> cases first
          rfl
      | ok slot =>
          rw [first] at failed
          cases others : items.mapM parseSlot with
          | error refusal =>
              rw [others] at failed
              cases failed
              exact ih others
          | ok slots =>
              rw [others] at failed
              cases failed

theorem clusterFromItems_known {sub : String} (known : sub ∈ knownSubcommands)
    {items : List Value} {reason : String}
    (failed : clusterFromItems sub items = .error reason) :
    OneLine reason := by
  unfold clusterFromItems at failed
  split at failed
  · split at failed <;> cases failed
    decide +kernel
  · cases failed
  · cases failed
  · cases failed
  · split at failed
    · split at failed <;> cases failed
      decide +kernel
    · cases failed
      decide +kernel
  · split at failed
    · cases failed
      decide +kernel
    · cases parsed : items.mapM parseSlot with
      | error refusal =>
          rw [parsed] at failed
          cases failed
          rw [parseSlots_error parsed]
          decide +kernel
      | ok slots =>
          rw [parsed] at failed
          cases failed
  · simp_all [knownSubcommands]

theorem fromItems_known {name : String} (known : name ∈ knownNames)
    (notCluster : name ≠ "CLUSTER") {items : List Value} {reason : String}
    (failed : fromItems name items = .error reason) : OneLine reason := by
  unfold fromItems at failed
  split at failed
  case h_12 => exact absurd rfl notCluster
  case h_15 => simp_all [knownNames]
  all_goals
    repeat' split at failed
    all_goals
      cases failed
      try decide +kernel

theorem unknownIn_cluster (items : List Value) :
    unknownIn "CLUSTER" items =
      ((items.head?.bind Value.asStr).map toAsciiUppercase).filter
        (· ∉ knownSubcommands) := by
  rw [unknownIn, if_neg (by decide), if_pos rfl]

theorem oneLine_unknown {front : String}
    (noReturn : (13 : UInt8) ∉ asBytes front) (name : String) :
    OneLine (front ++ name ++ "'") ↔
      ∀ text ∈ (some name).toList, OneLine text := by
  rw [Value.oneLine_quoted, Value.oneLine_append_left noReturn]
  simp

theorem oneLine_subcommandRefusal {items : List Value} {reason : String}
    (refused : fromItems "CLUSTER" items = .error reason) :
    OneLine reason ↔
      ∀ name ∈ (unknownIn "CLUSTER" items).toList, OneLine name := by
  rw [unknownIn_cluster]
  cases items with
  | nil =>
      cases refused
      exact iff_of_true (by decide +kernel) (by decide)
  | cons item items =>
      rw [List.head?_cons, Option.bind_some]
      cases named : item.asStr with
      | none =>
          simp only [fromItems, named] at refused
          cases refused
          exact iff_of_true (by decide +kernel) (by decide)
      | some sub =>
          simp only [fromItems, named] at refused
          rw [Option.map_some]
          by_cases known : toAsciiUppercase sub ∈ knownSubcommands
          · rw [Option.filter_some_neg (by simpa using known)]
            exact iff_of_true (clusterFromItems_known known refused) (by simp)
          · rw [clusterFromItems_of_unknown known] at refused
            cases refused
            rw [Option.filter_some_pos (by simpa using known)]
            exact oneLine_unknown (by decide) _

theorem oneLine_nameRefusal {name : String} {items : List Value}
    {reason : String} (refused : fromItems name items = .error reason) :
    OneLine reason ↔ ∀ text ∈ (unknownIn name items).toList, OneLine text := by
  by_cases known : name ∈ knownNames
  · by_cases isCluster : name = "CLUSTER"
    · subst isCluster
      exact oneLine_subcommandRefusal refused
    · rw [unknownIn, if_neg (not_not.mpr known), if_neg isCluster]
      exact iff_of_true (fromItems_known known isCluster refused) (by simp)
  · rw [fromItems_of_unknown known] at refused
    cases refused
    rw [unknownIn, if_pos known]
    exact oneLine_unknown (by decide) name

/-- The only text of a frame that a refusal repeats is an unknown name. -/
theorem oneLine_refusal {value : Value} {reason : String}
    (refused : fromValue value = .error reason) :
    OneLine reason ↔ ∀ name ∈ (unknownName value).toList, OneLine name := by
  unfold fromValue at refused
  split at refused
  · cases refused
    exact iff_of_true (by decide +kernel) (by simp [unknownName])
  next name items =>
    cases named : name.asStr with
    | none =>
        rw [named] at refused
        cases refused
        exact iff_of_true (by decide +kernel) (by simp [unknownName, named])
    | some name =>
        rw [named] at refused
        rw [unknownName, named]
        exact oneLine_nameRefusal refused
  · cases refused
    exact iff_of_true (by decide +kernel) (by simp [unknownName])

end Command

end RustiCache
