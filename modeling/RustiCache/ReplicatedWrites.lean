import RustiCache.RelayedWrites
import RustiCache.ReplicaStream
import RustiCache.TimedMapRefinement

/-!
# Writes on a master and the replication stream

Executing `SET` or `DEL` on a master is not one step: every operation on the
store is one, and handing the raw command to the replicas is another, guarded by
another lock.  The system below interleaves the steps of any number of clients.
A replica applies what it has been sent, in the order it was sent.
-/

namespace RustiCache

/-- A write to the store, with the deadline of the binding. -/
abbrev StoreWrite := KeyWrite String (Bytes × Option Instant)

/-- What is left to do of a `SET` without expiry or of a `DEL`. -/
inductive WriteStage where
  | set (key : String) (value : Bytes)
  | del (names : List String) (count : Nat)
  | propagate
deriving DecidableEq

/-- A client in the middle of a command, with the writes it has made. -/
structure Writer where
  rawCmd : Bytes
  stage : WriteStage
  written : List StoreWrite

structure WriterSystem (hasher : String → UInt64) where
  server : ServerState hasher
  writers : Nat → Option Writer

inductive WriterAction where
  | issue (client : Nat) (rawCmd : Bytes)
  | operate (client : Nat) (moment : Moment)
  | propagate (client : Nat)

def WriterAction.client : WriterAction → Nat
  | issue client _ => client
  | operate client _ => client
  | propagate client => client

namespace Command

/-- The command in a raw frame. -/
def ofRaw (rawCmd : Bytes) : Option Command :=
  match Value.attempt rawCmd with
  | .complete value consumed =>
      if consumed = rawCmd.length then (fromValue value).toOption else none
  | _ => none

end Command

namespace WriteStage

def ofCommand : Command → Option WriteStage
  | .set key value none => some (set key value)
  | .del names => some (del names 0)
  | _ => none

/-- The writes that are left. -/
def remaining : WriteStage → List StoreWrite
  | set key value => [.put key (value, none)]
  | del names _ => names.map .remove
  | propagate => []

/-- The command is already due to be propagated. -/
def counted : WriteStage → Bool
  | set _ _ => false
  | del _ count => 0 < count
  | propagate => true

end WriteStage

def Writer.progress (writer : Writer) :
    Progress String (Bytes × Option Instant) :=
  ⟨writer.written, writer.stage.remaining, writer.stage.counted⟩

namespace WriterSystem

variable {hasher : String → UInt64}

def start (server : ServerState hasher) : WriterSystem hasher :=
  ⟨server, fun _ => none⟩

def step (system : WriterSystem hasher) :
    WriterAction → Option (WriterSystem hasher)
  | .issue client rawCmd =>
      match system.writers client,
        (Command.ofRaw rawCmd).bind WriteStage.ofCommand with
      | none, some stage =>
          some { system with
            writers := Function.update system.writers client
              (some ⟨rawCmd, stage, []⟩) }
      | _, _ => none
  | .operate client moment =>
      match system.writers client with
      | some ⟨rawCmd, .set key value, written⟩ =>
          let db := system.server.db.set moment.arrangement (moment.clock 1) key
            value none
          some ⟨{ system.server with db := db },
            Function.update system.writers client
              (some ⟨rawCmd, .propagate,
                written ++ [.put key (value, none)]⟩)⟩
      | some ⟨rawCmd, .del (key :: names) count, written⟩ =>
          let (removed, db) := system.server.db.del key
          some ⟨{ system.server with db := db },
            Function.update system.writers client
              (some ⟨rawCmd, .del names (if removed then count + 1 else count),
                written ++ [.remove key]⟩)⟩
      | _ => none
  | .propagate client =>
      match system.writers client with
      | some ⟨rawCmd, .propagate, _⟩ =>
          some ⟨Command.propagate system.server (some rawCmd),
            Function.update system.writers client none⟩
      | some ⟨rawCmd, .del [] count, _⟩ =>
          some ⟨if 0 < count then Command.propagate system.server (some rawCmd)
              else system.server,
            Function.update system.writers client none⟩
      | _ => none

/-- The keys that a client has written in its command and not yet propagated. -/
def touched (system : WriterSystem hasher) (client : Nat) : List String :=
  Progress.keys ((system.writers client).map Writer.progress)

/-- A client operates on a key only while no other client has operated on it
and not yet propagated its command. -/
def Undisturbed (system : WriterSystem hasher) : WriterAction → Prop
  | .operate client _ =>
      ∀ writer ∈ system.writers client,
        ∀ write ∈ writer.stage.remaining.head?,
          ∀ other, other ≠ client → write.key ∉ system.touched other
  | _ => True

section Alone

variable {system : WriterSystem hasher} {client : Nat} {rawCmd : Bytes}

/-- The loop of `DEL` over its keys, when no other client interferes. -/
theorem run_delKeys (moment : Moment) (names : List String) (count : Nat)
    (written : List StoreWrite)
    (busy : system.writers client = some ⟨rawCmd, .del names count, written⟩) :
    runActions step system
        (List.replicate names.length (.operate client moment)) =
      some ⟨{ system.server with
          db := (Command.delKeys names system.server.db).2 },
        Function.update system.writers client
          (some ⟨rawCmd,
            .del [] (count + (Command.delKeys names system.server.db).1),
            written ++ names.map .remove⟩)⟩ := by
  induction names generalizing system count written with
  | nil =>
      have same : Function.update system.writers client
          (some ⟨rawCmd, .del [] count, written⟩) = system.writers := by
        rw [← busy, Function.update_eq_self]
      simp [runActions, Command.delKeys, same]
  | cons key names ih =>
      rw [List.length_cons, List.replicate_succ, runActions]
      simp only [step, busy, Option.bind_some]
      rw [ih _ _ (Function.update_self ..)]
      simp only [Function.update_idem, Command.delKeys, List.map_cons,
        List.append_assoc, List.cons_append, List.nil_append]
      have order : ∀ rest : Nat, count + 1 + rest = count + (rest + 1) := by
        intro rest
        omega
      cases (system.server.db.del key).1 with
      | false => simp
      | true => simp [order]

/-- A client that runs a command without interference has the effect of
executing it. -/
theorem execute_alone {cmd : Command} (idle : system.writers client = none)
    (raw : Command.ofRaw rawCmd = some cmd)
    (writes : (WriteStage.ofCommand cmd).isSome) (moment : Moment) :
    ∃ actions, runActions step system actions =
      some { system with
        server := (cmd.perform moment system.server (some rawCmd)
          true).server } := by
  have same : ∀ writer : Writer, Function.update
      (Function.update system.writers client (some writer)) client none =
        system.writers := by
    intro writer
    rw [Function.update_idem, ← idle, Function.update_eq_self]
  rcases Option.isSome_iff_exists.mp writes with ⟨stage, isWrite⟩
  unfold WriteStage.ofCommand at isWrite
  split at isWrite
  next key value =>
    refine ⟨[.issue client rawCmd, .operate client moment, .propagate client],
      ?_⟩
    simp [runActions, step, idle, raw, WriteStage.ofCommand, Command.perform,
      Function.update_idem, same]
  next names =>
    obtain ⟨begun, issued, busy, unchanged, erased⟩ : ∃ begun,
        system.step (.issue client rawCmd) = some begun ∧
          begun.writers client = some ⟨rawCmd, .del names 0, []⟩ ∧
          begun.server = system.server ∧
          Function.update begun.writers client none = system.writers := by
      refine ⟨⟨system.server, Function.update system.writers client
        (some ⟨rawCmd, .del names 0, []⟩)⟩, ?_, Function.update_self .., rfl,
        same _⟩
      simp [step, idle, raw, WriteStage.ofCommand]
    have looped := run_delKeys moment names 0 [] busy
    refine ⟨.issue client rawCmd ::
      (List.replicate names.length (.operate client moment) ++
        [.propagate client]), ?_⟩
    rw [runActions, issued, Option.bind_some, runActions_append, looped,
      Option.bind_some]
    simp [runActions, step, Command.perform, Function.update_idem, erased,
      unchanged]
  next => cases isWrite

end Alone

end WriterSystem

end RustiCache
