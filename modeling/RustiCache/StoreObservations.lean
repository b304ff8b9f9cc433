import RustiCache.TimedMapRefinement

/-!
# Observing a sharded store

The reads of a run are matched with the timed map at the moment of each read.
Purging calls leave no trace there, so two runs that differ in them only make
the same observations.  The closing theorem collects what the store guarantees
for any hash function and any number of shards.
-/

namespace RustiCache

namespace StoreOp

/-- Two answers tell an observer the same: equal, or listings of the same keys
in different iteration orders. -/
def SameAnswer (first second : StoreAnswer) : Prop :=
  first = second ∨
    ∃ names others, first = .names names ∧ second = .names others ∧
      names.Perm others

theorem sameAnswer_of_answers {map : TimedMap String Bytes Instant}
    {now : Instant} {op : StoreOp} {first second : StoreAnswer}
    (read : op.isRead) (firstAnswers : op.Answers map now first)
    (secondAnswers : op.Answers map now second) :
    SameAnswer first second := by
  cases op with
  | get key => exact Or.inl (firstAnswers.trans secondAnswers.symm)
  | «exists» key => exact Or.inl (firstAnswers.trans secondAnswers.symm)
  | keys =>
      obtain ⟨names, listed, distinct, exactly⟩ := firstAnswers
      obtain ⟨others, otherListed, otherDistinct, otherExactly⟩ := secondAnswers
      refine Or.inr ⟨names, others, listed, otherListed, ?_⟩
      apply (List.perm_ext_iff_of_nodup distinct otherDistinct).mpr
      intro key
      rw [exactly, otherExactly]
  | set key value expiresAt => cases read
  | del key => cases read
  | purgeExpiredSample samplePerShard => cases read

/-- The calls that are not purges, as the timed map sees them. -/
def withoutPurges (calls : List StoreCall) : List (StoreOp × Instant) :=
  (calls.filter fun call => !call.op.isPurge).map fun call =>
    (call.op, call.now)

/-- The answers to the reads among the calls. -/
def observations (calls : List StoreCall) (answers : List StoreAnswer) :
    List StoreAnswer :=
  ((calls.zip answers).filter fun pair => pair.1.op.isRead).map Prod.snd

/-- The timed map at each read. -/
def readPoints (map : TimedMap String Bytes Instant) :
    List (StoreOp × Instant) →
      List (TimedMap String Bytes Instant × StoreOp × Instant)
  | [] => []
  | (op, now) :: rest =>
      if op.isRead then
        (map, op, now) :: readPoints (op.apply map) rest
      else
        readPoints (op.apply map) rest

/-- An answer is the timed map's at a read. -/
def Matches (answer : StoreAnswer)
    (point : TimedMap String Bytes Instant × StoreOp × Instant) : Prop :=
  point.2.1.isRead ∧ point.2.1.Answers point.1 point.2.2 answer

theorem matches_of_explained {map : TimedMap String Bytes Instant}
    {calls : List StoreCall} {answers : List StoreAnswer}
    (explained : Explained Answers map calls answers) :
    List.Forall₂ Matches (observations calls answers)
      (readPoints map (withoutPurges calls)) := by
  induction calls generalizing map answers with
  | nil =>
      cases answers with
      | nil => exact List.Forall₂.nil
      | cons answer answers => exact explained.elim
  | cons request calls ih =>
      cases answers with
      | nil => exact explained.elim
      | cons answer answers =>
          obtain ⟨allowed, rest⟩ := explained
          have tail := ih rest
          rcases request with ⟨op, now, arrangement⟩
          cases op with
          | get key => exact List.Forall₂.cons ⟨rfl, allowed⟩ tail
          | «exists» key => exact List.Forall₂.cons ⟨rfl, allowed⟩ tail
          | keys => exact List.Forall₂.cons ⟨rfl, allowed⟩ tail
          | set key value expiresAt => exact tail
          | del key => exact tail
          | purgeExpiredSample samplePerShard => exact tail

theorem forall₂_sameAnswer {first second : List StoreAnswer}
    {points : List (TimedMap String Bytes Instant × StoreOp × Instant)}
    (firstMatches : List.Forall₂ Matches first points)
    (secondMatches : List.Forall₂ Matches second points) :
    List.Forall₂ SameAnswer first second := by
  induction firstMatches generalizing second with
  | nil =>
      cases secondMatches
      exact List.Forall₂.nil
  | cons head _ ih =>
      cases secondMatches with
      | cons otherHead otherTail =>
          exact List.Forall₂.cons
            (sameAnswer_of_answers head.1 head.2 otherHead.2) (ih otherTail)

end StoreOp

namespace Db

variable {hasher : String → UInt64}

theorem withConfig_explained (hasher : String → UInt64) (shardCount : Nat)
    {calls : List StoreCall} (ordered : ClockOrdered calls) :
    StoreOp.Explained StoreOp.Answers TimedMap.empty calls
      ((withConfig hasher shardCount 0).run calls).1 := by
  have forgets : TimedMap.Forgets 0 TimedMap.empty
      (withConfig hasher shardCount 0).contents := by
    rw [contents_withConfig]
    exact TimedMap.Forgets.refl _ _
  exact run_explained ordered rfl forgets fun _ _ => Nat.zero_le _

/-- A write leaves every other key's binding alone in an unbounded store. -/
theorem get_call_of_written {db : Db hasher} (unbounded : db.maxMemoryBytes = 0)
    {request : StoreCall} {key other : String}
    (written : request.op.written = some key) (differ : other ≠ key)
    {later : Instant} (order : request.now ≤ later) :
    (db.call request).2.contents.get later other =
      db.contents.get later other := by
  obtain ⟨kept, _, same, forgets⟩ := db.contents_call request
  rw [same unbounded] at forgets
  rw [forgets.get order]
  rcases request with ⟨op, now, arrangement⟩
  cases op with
  | set target value expiresAt =>
      cases written
      exact TimedMap.get_write_ne _ _ _ _ differ
  | del target =>
      cases written
      exact TimedMap.get_delete_ne _ _ differ
  | _ => cases written

theorem get_after_set (db : Db hasher) (arrangement : Arrangement)
    (now later : Instant) (key : String) (value : Bytes)
    (expiresAt : Option Instant) (live : TimedMap.liveAt later expiresAt) :
    ((db.set arrangement now key value expiresAt).get later key).1 =
      some value := by
  obtain ⟨kept, _, _, written⟩ :=
    db.contents_set arrangement now key value expiresAt
  rw [get_answer, written]
  exact TimedMap.get_write_self _ _ _ _ live

/-- The sharded store refines the timed map.  An unbounded store answers every
read like the map, a write changes no other key's answers, and purging calls
change no answers; a bounded store answers a `get` with the map's value or not
at all, and a `get` right after a `set` finds the value. -/
theorem store_refines_timedMap (hasher : String → UInt64) (shardCount : Nat)
    (calls : List StoreCall) (ordered : ClockOrdered calls) :
    StoreOp.Explained StoreOp.Answers TimedMap.empty calls
        ((withConfig hasher shardCount 0).run calls).1 ∧
    (∀ (request : StoreCall) (key other : String) (later : Instant),
      request.op.written = some key → other ≠ key → request.now ≤ later →
      let before := ((withConfig hasher shardCount 0).run calls).2
      let after := (before.call request).2
      (after.get later other).1 = (before.get later other).1 ∧
      (after.exists later other).1 = (before.exists later other).1 ∧
      (other ∈ after.keys later ↔ other ∈ before.keys later)) ∧
    (∀ purging : List StoreCall, ClockOrdered purging →
      StoreOp.withoutPurges purging = StoreOp.withoutPurges calls →
      List.Forall₂ StoreOp.SameAnswer
        (StoreOp.observations purging
          ((withConfig hasher shardCount 0).run purging).1)
        (StoreOp.observations calls
          ((withConfig hasher shardCount 0).run calls).1)) ∧
    ∀ maxMemoryBytes, 0 < maxMemoryBytes →
      StoreOp.Explained StoreOp.AnswersWithin TimedMap.empty calls
        ((withConfig hasher shardCount maxMemoryBytes).run calls).1 ∧
      ∀ (arrangement : Arrangement) (now later : Instant) (key : String)
        (value : Bytes) (expiresAt : Option Instant),
        TimedMap.liveAt later expiresAt →
        ((((withConfig hasher shardCount maxMemoryBytes).run calls).2.set
          arrangement now key value expiresAt).get later key).1 =
          some value := by
  refine ⟨withConfig_explained hasher shardCount ordered, ?_, ?_, ?_⟩
  · intro request key other later written differ order before after
    have unbounded : before.maxMemoryBytes = 0 := maxMemoryBytes_run _ calls
    have same : after.contents.get later other =
        before.contents.get later other :=
      get_call_of_written unbounded written differ order
    refine ⟨?_, ?_, ?_⟩
    · rw [get_answer, get_answer, same]
    · simp only [Db.exists, get_answer, same]
    · rw [mem_keys_iff, mem_keys_iff, same]
  · intro purging purgingOrdered sameWrites
    have purgingMatches := StoreOp.matches_of_explained
      (withConfig_explained hasher shardCount purgingOrdered)
    rw [sameWrites] at purgingMatches
    exact StoreOp.forall₂_sameAnswer purgingMatches
      (StoreOp.matches_of_explained (withConfig_explained hasher shardCount ordered))
  · intro maxMemoryBytes _
    have within : TimedMap.Within TimedMap.empty
        (withConfig hasher shardCount maxMemoryBytes).contents := by
      rw [contents_withConfig]
      exact TimedMap.Within.refl _
    refine ⟨run_explained_within calls within, ?_⟩
    intro arrangement now later key value expiresAt live
    exact get_after_set _ arrangement now later key value expiresAt live

/-- A binding that is read, expires, is purged and is looked for again. -/
def expiringCalls : List StoreCall :=
  [⟨.set "a" [1] (some 10), 0, .front⟩, ⟨.get "a", 5, .front⟩,
    ⟨.purgeExpiredSample 4, 10, .front⟩, ⟨.exists "a", 12, .front⟩]

theorem store_refines_timedMap_expiringCalls :
    ClockOrdered expiringCalls ∧
      StoreOp.Explained StoreOp.Answers TimedMap.empty expiringCalls
        ((withConfig (fun _ => 7) 3 0).run expiringCalls).1 :=
  ⟨by decide, (store_refines_timedMap _ 3 expiringCalls (by decide)).1⟩

example :
    ((withConfig (fun _ => 7) 3 0).run expiringCalls).1 =
      [.done, .value (some [1]), .count 1, .flag false] := by
  decide +kernel

end Db

end RustiCache
