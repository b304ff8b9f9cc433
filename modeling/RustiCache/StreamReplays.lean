import RustiCache.ReplicatedWrites

/-!
# Replaying raw writes

A replica that gets the raw bytes of a `SET` or `DEL` parses them back and makes
the same writes to its own store.
-/

namespace RustiCache

namespace Command

variable {hasher : String → UInt64}

/-- Apply one frame of the replication stream. -/
def replayFrame (moment : Moment) (server : ServerState hasher)
    (rawCmd : Bytes) : ServerState hasher :=
  match Value.attempt rawCmd with
  | .complete value _ => replay moment server value
  | _ => server

/-- Apply frames in order, each at its own moment. -/
def replayFrames (moments : Nat → Moment) (server : ServerState hasher) :
    List Bytes → ServerState hasher
  | [] => server
  | rawCmd :: frames =>
      replayFrames (fun index => moments (index + 1))
        (replayFrame (moments 0) server rawCmd) frames

theorem replayFrames_snoc (moments : Nat → Moment) (server : ServerState hasher)
    (frames : List Bytes) (rawCmd : Bytes) :
    replayFrames moments server (frames ++ [rawCmd]) =
      replayFrame (moments frames.length) (replayFrames moments server frames)
        rawCmd := by
  induction frames generalizing moments server with
  | nil => rfl
  | cons first frames ih => exact ih _ _

/-- The writes of a raw `SET` without expiry or `DEL`. -/
def writesOf (rawCmd : Bytes) : Option (List StoreWrite) :=
  ((ofRaw rawCmd).bind WriteStage.ofCommand).map WriteStage.remaining

theorem contents_delKeys (names : List String) (db : Db hasher) :
    (delKeys names db).2.contents =
      KeyWrite.applyAll db.contents (names.map .remove) := by
  induction names generalizing db with
  | nil => rfl
  | cons key names ih =>
      change (delKeys names (db.del key).2).2.contents = _
      rw [ih, db.contents_del]
      rfl

theorem maxMemoryBytes_delKeys (names : List String) (db : Db hasher) :
    (delKeys names db).2.maxMemoryBytes = db.maxMemoryBytes := by
  induction names generalizing db with
  | nil => rfl
  | cons key names ih =>
      change (delKeys names (db.del key).2).2.maxMemoryBytes = _
      rw [ih]
      exact db.maxMemoryBytes_call ⟨.del key, 0, .front⟩

theorem contents_set_unbounded {db : Db hasher}
    (unbounded : db.maxMemoryBytes = 0) (moment : Moment) (key : String)
    (value : Bytes) :
    (db.set moment.arrangement (moment.clock 1) key value none).contents =
        (KeyWrite.put key (value, none)).apply db.contents ∧
      (db.set moment.arrangement (moment.clock 1) key value
        none).maxMemoryBytes = 0 := by
  constructor
  · obtain ⟨kept, -, all, written⟩ := db.contents_set moment.arrangement
      (moment.clock 1) key value none
    rw [written, all unbounded]
    rfl
  · exact (db.maxMemoryBytes_call
      ⟨.set key value none, moment.clock 1, moment.arrangement⟩).trans unbounded

/-- A frame that writes is replayed as its writes. -/
theorem replayFrame_writes {rawCmd : Bytes} {writes : List StoreWrite}
    (raw : writesOf rawCmd = some writes) {server : ServerState hasher}
    (unbounded : server.db.maxMemoryBytes = 0) (moment : Moment) :
    (replayFrame moment server rawCmd).db.contents =
        KeyWrite.applyAll server.db.contents writes ∧
      (replayFrame moment server rawCmd).db.maxMemoryBytes = 0 := by
  obtain ⟨stage, bound, rfl⟩ := Option.map_eq_some_iff.mp raw
  obtain ⟨cmd, isCommand, isWrite⟩ := Option.bind_eq_some_iff.mp bound
  obtain ⟨value, consumed, found, decoded⟩ : ∃ value consumed,
      Value.attempt rawCmd = .complete value consumed ∧
        fromValue value = .ok cmd := by
    unfold ofRaw at isCommand
    split at isCommand
    next value consumed found =>
      split at isCommand
      next =>
        refine ⟨value, consumed, found, ?_⟩
        cases decoded : fromValue value with
        | ok other =>
            rw [decoded] at isCommand
            cases isCommand
            rfl
        | error reason =>
            rw [decoded] at isCommand
            cases isCommand
      next => cases isCommand
    next => cases isCommand
  simp only [replayFrame, found, replay, executable, decoded]
  unfold WriteStage.ofCommand at isWrite
  split at isWrite
  next key data =>
    cases isWrite
    have written := contents_set_unbounded unbounded moment key data
    simpa [apply, execute, perform, propagate, WriteStage.remaining,
      KeyWrite.applyAll] using written
  next names =>
    cases isWrite
    have deleted := contents_delKeys names server.db
    have kept := (maxMemoryBytes_delKeys names server.db).trans unbounded
    simpa [apply, execute, perform, propagate, WriteStage.remaining] using
      And.intro deleted kept
  next => cases isWrite

end Command

end RustiCache
