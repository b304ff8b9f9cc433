import Mathlib.Data.Finset.Card
import RustiCache.CommandSafety
import RustiCache.CommandWrites

/-!
# What a deletion counts

`DEL` counts the keys it takes out of the tables, `EXISTS` those that have not
expired.  A key that has expired and that no purge has come to yet is counted by
the first and not by the second, so that the reply to `DEL` tells whether the
purge has been there.
-/

namespace RustiCache

namespace Command

variable {hasher : String → UInt64}

/-- The listed keys that are stored, expired or not. -/
def storedKeys (db : Db hasher) (names : List String) : Finset String :=
  names.toFinset.filter fun key => (db.contents key).isSome

/-- The listed keys that can be read. -/
def liveKeys (db : Db hasher) (now : Instant) (names : List String) :
    Finset String :=
  names.toFinset.filter fun key => (db.contents.get now key).isSome

theorem storedKeys_cons (db : Db hasher) (key : String) (names : List String) :
    storedKeys db (key :: names) =
      if (db.contents key).isSome then
        insert key (storedKeys (db.del key).2 names)
      else
        storedKeys (db.del key).2 names := by
  ext other
  by_cases same : other = key
  · subst same
    cases stored : db.contents other with
    | none => simp [storedKeys, stored, db.contents_del, TimedMap.delete]
    | some binding => simp [storedKeys, stored]
  · have kept : (db.del key).2.contents other = db.contents other := by
      rw [db.contents_del]
      exact Function.update_of_ne same ..
    cases (db.contents key).isSome <;> simp [storedKeys, kept, same]

/-- A key listed twice is counted once, whichever was listed between. -/
theorem delKeys_count (names : List String) (db : Db hasher) :
    (delKeys names db).1 = (storedKeys db names).card := by
  induction names generalizing db with
  | nil => rfl
  | cons key names ih =>
      have missing : key ∉ storedKeys (db.del key).2 names := by
        simp [storedKeys, db.contents_del, TimedMap.delete]
      change (if (db.del key).1 then (delKeys names (db.del key).2).1 + 1
        else (delKeys names (db.del key).2).1) = _
      rw [storedKeys_cons, ih, db.del_answer]
      split
      next => rw [Finset.card_insert_of_notMem missing]
      next => rfl

theorem liveKeys_subset (db : Db hasher) (now : Instant) (names : List String) :
    liveKeys db now names ⊆ storedKeys db names := by
  intro key member
  rw [liveKeys, Finset.mem_filter] at member
  rw [storedKeys, Finset.mem_filter]
  refine ⟨member.1, ?_⟩
  cases stored : db.contents key with
  | none => simp [TimedMap.get_of_none stored] at member
  | some binding => rfl

/-- The two counts differ by the listed keys that have expired. -/
theorem liveKeys_eq_iff (db : Db hasher) (now : Instant) (names : List String) :
    liveKeys db now names = storedKeys db names ↔
      ∀ key ∈ names, ¬ TimedMap.ExpiredBy now (db.contents key) := by
  constructor
  · intro same key listed expired
    have stored : key ∈ storedKeys db names := by
      obtain ⟨value, deadline, bound, -⟩ := expired
      simp [storedKeys, listed, bound]
    rw [← same, liveKeys, Finset.mem_filter,
      TimedMap.get_of_expired expired (le_refl now)] at stored
    exact absurd stored.2 (by decide)
  · intro current
    apply Finset.Subset.antisymm (liveKeys_subset db now names)
    intro key member
    rw [storedKeys, Finset.mem_filter, List.mem_toFinset] at member
    rw [liveKeys, Finset.mem_filter, List.mem_toFinset]
    refine ⟨member.1, ?_⟩
    obtain ⟨⟨value, deadline⟩, bound⟩ := Option.isSome_iff_exists.mp member.2
    have unreached : TimedMap.liveAt now deadline = true := by
      by_contra passed
      obtain ⟨instant, same, reached⟩ :=
        TimedMap.liveAt_eq_false_iff.mp (Bool.eq_false_iff.mpr passed)
      exact current key member.1 ⟨value, instant, by rw [bound, same], reached⟩
    rw [TimedMap.get, bound]
    simp [unreached]

/-- Whatever has been forgotten by then, the unexpired keys are still stored. -/
theorem storedKeys_of_forgets {full kept : Db hasher} {now : Instant}
    {names : List String}
    (forgets : TimedMap.Forgets now full.contents kept.contents)
    (current : ∀ key ∈ names, ¬ TimedMap.ExpiredBy now (full.contents key)) :
    storedKeys kept names = storedKeys full names := by
  apply Finset.filter_congr
  intro key member
  rcases forgets key with same | ⟨-, expired⟩
  · rw [same]
  · exact absurd expired (current key (List.mem_toFinset.mp member))

section Deletion

variable (moment : Moment) (server : ServerState hasher)
  (rawCmd : Option Bytes) (requirepass : Option String)
  (isAuthenticated : Bool) (names : List String)

/-- The listed keys to which `EXISTS`, for that key alone, replies 1. -/
def existingKeys : Finset String :=
  names.toFinset.filter fun key =>
    (execute moment server none requirepass isAuthenticated
      (.exists [key])).reply = some (.integer 1)

/-- The server after a purge of its store. -/
def afterPurge (now : Instant) (samplePerShard : Nat) : ServerState hasher :=
  { server with db := (server.db.purgeExpiredSample now samplePerShard).2 }

/-- `DEL` replies with the number of distinct listed keys that exist, also if a
purge has run before it, and deletes these keys and no other. -/
structure CountsLive : Prop where
  reply : (execute moment server rawCmd requirepass isAuthenticated
      (.del names)).reply =
    some (.integer (Int64.ofNat
      (existingKeys moment server requirepass isAuthenticated names).card))
  purged : ∀ earlier ≤ moment.clock 0, ∀ samplePerShard,
    (execute moment (afterPurge server earlier samplePerShard) rawCmd
        requirepass isAuthenticated (.del names)).reply =
      (execute moment server rawCmd requirepass isAuthenticated
        (.del names)).reply
  gone : ∀ key ∈ names, ∀ later,
    ((execute moment server rawCmd requirepass isAuthenticated
      (.del names)).server.db.exists later key).1 = false
  kept : ∀ key ∉ names, ∀ later,
    ((execute moment server rawCmd requirepass isAuthenticated
        (.del names)).server.db.get later key).1 =
      (server.db.get later key).1

variable {requirepass isAuthenticated}

theorem execute_admitted (admitted : Admitted requirepass isAuthenticated)
    (cmd : Command) :
    execute moment server rawCmd requirepass isAuthenticated cmd =
      perform moment server rawCmd isAuthenticated cmd := by
  cases requirepass with
  | none => rfl
  | some pass =>
      rcases admitted with absent | authenticated
      · cases absent
      · rw [authenticated]
        rfl

theorem reply_del (admitted : Admitted requirepass isAuthenticated) :
    (execute moment server rawCmd requirepass isAuthenticated
        (.del names)).reply =
      some (.integer (Int64.ofNat (storedKeys server.db names).card)) := by
  rw [execute_admitted moment server rawCmd admitted, perform, ← delKeys_count]

theorem contents_after_del (admitted : Admitted requirepass isAuthenticated)
    (key : String) :
    (execute moment server rawCmd requirepass isAuthenticated
        (.del names)).server.db.contents key =
      if key ∈ names then none else server.db.contents key := by
  rw [execute_admitted moment server rawCmd admitted, perform,
    ← KeyWrite.applyAll_removals, ← contents_delKeys]
  dsimp only
  split
  next => rw [(propagate_db _ rawCmd).1]
  next => rfl

theorem existingKeys_eq (admitted : Admitted requirepass isAuthenticated) :
    existingKeys moment server requirepass isAuthenticated names =
      liveKeys server.db (moment.clock 0) names := by
  apply Finset.filter_congr
  intro key member
  have count : (existsKeys moment.clock 0 [key] server.db).1 =
      if (server.db.get (moment.clock 0) key).1.isSome then 1 else 0 := rfl
  rw [execute_admitted moment server none admitted, perform]
  dsimp only
  rw [count, server.db.get_answer]
  cases server.db.contents.get (moment.clock 0) key with
  | none => decide
  | some value => simp

theorem card_storedKeys_le (db : Db hasher) :
    (storedKeys db names).card ≤ names.length :=
  (Finset.card_filter_le _ _).trans (List.toFinset_card_le names)

theorem int64_ofNat_inj {first second : Nat} (small : first < 2 ^ 63)
    (alsoSmall : second < 2 ^ 63)
    (same : Int64.ofNat first = Int64.ofNat second) : first = second := by
  have values := congrArg Int64.toInt same
  rw [Int64.toInt_ofNat_of_lt small, Int64.toInt_ofNat_of_lt alsoSmall] at values
  exact Int.ofNat.inj values

/-- `DEL` counts what exists exactly if none of the listed keys has an entry that
has expired and is still stored. -/
theorem del_counts_live_iff (admitted : Admitted requirepass isAuthenticated)
    (fits : names.length < 2 ^ 63) :
    CountsLive moment server rawCmd requirepass isAuthenticated names ↔
      ∀ key ∈ names, ¬ TimedMap.ExpiredBy (moment.clock 0)
        (server.db.contents key) := by
  have live := existingKeys_eq moment server names admitted
  constructor
  · intro counts
    have cards : (storedKeys server.db names).card =
        (liveKeys server.db (moment.clock 0) names).card := by
      have reply := counts.reply
      rw [reply_del moment server rawCmd names admitted, live] at reply
      have stored := card_storedKeys_le names server.db
      have fewer := Finset.card_le_card
        (liveKeys_subset server.db (moment.clock 0) names)
      exact int64_ofNat_inj (by omega) (by omega) (by simpa using reply)
    rw [← liveKeys_eq_iff]
    exact Finset.eq_of_subset_of_card_le (liveKeys_subset ..) cards.le
  · intro current
    refine ⟨?_, ?_, ?_, ?_⟩
    · rw [reply_del moment server rawCmd names admitted, live,
        (liveKeys_eq_iff ..).mpr current]
    · intro earlier before samplePerShard
      have forgets : TimedMap.Forgets (moment.clock 0) server.db.contents
          (server.db.purgeExpiredSample earlier samplePerShard).2.contents :=
        TimedMap.Forgets.trans
          (server.db.contents_purgeExpiredSample earlier samplePerShard)
          (TimedMap.Forgets.refl (moment.clock 0) _) before
      rw [reply_del moment _ rawCmd names admitted,
        reply_del moment server rawCmd names admitted]
      rw [afterPurge, storedKeys_of_forgets forgets current]
    · intro key listed later
      have absent := contents_after_del moment server rawCmd names admitted key
      rw [if_pos listed] at absent
      rw [Db.exists]
      dsimp only
      rw [Db.get_answer, TimedMap.get_of_none absent]
      rfl
    · intro key unlisted later
      have same := contents_after_del moment server rawCmd names admitted key
      rw [if_neg unlisted] at same
      rw [Db.get_answer, Db.get_answer, TimedMap.get_congr same]

end Deletion

/-- A store of one shard with the keys `a`, for good, and `b`, until instant 5. -/
def halfExpiring : ServerState fun _ => 0 :=
  ⟨((Db.withConfig _ 1 0).set .front 0 "a" [1] none).set .front 0 "b" [2] (some 5),
    .newMaster none, fun _ => none, none⟩

theorem del_counts_live_iff_halfExpiring :
    CountsLive ⟨fun _ => 4, .front⟩ halfExpiring none none false
      ["b", "c", "b"] := by
  apply (del_counts_live_iff ⟨fun _ => 4, .front⟩ halfExpiring none
    ["b", "c", "b"] (Or.inl rfl) (by decide)).mpr
  have live : ∀ key ∈ ["b", "c", "b"], ((halfExpiring.db.contents key).all
      fun binding => TimedMap.liveAt 4 binding.2) = true := by
    decide +kernel
  rintro key listed ⟨value, deadline, bound, passed⟩
  have unreached := live key listed
  rw [bound] at unreached
  simp [TimedMap.liveAt_eq_false_of_le passed] at unreached

/-- Once `b` has expired, `EXISTS b` replies 0 and `DEL b` replies 1, or 0 if the
purge has come first. -/
theorem expired_key_counted :
    let moment : Moment := ⟨fun _ => 5, .front⟩
    (execute moment halfExpiring none none false (.exists ["b"])).reply =
        some (.integer 0) ∧
      (execute moment halfExpiring none none false (.del ["b"])).reply =
        some (.integer 1) ∧
      (execute moment (afterPurge halfExpiring 5 2) none none false
        (.del ["b"])).reply = some (.integer 0) ∧
      ¬ CountsLive moment halfExpiring none none false ["b"] := by
  intro moment
  have absent : (execute moment halfExpiring none none false
      (.exists ["b"])).reply = some (.integer 0) := by decide +kernel
  have deleted : (execute moment halfExpiring none none false
      (.del ["b"])).reply = some (.integer 1) := by decide +kernel
  refine ⟨absent, deleted, by decide +kernel, ?_⟩
  intro counts
  have none : existingKeys moment halfExpiring none false ["b"] = ∅ := by
    decide +kernel
  have reply := counts.reply
  rw [deleted, none] at reply
  exact absurd reply (by decide)

end Command

end RustiCache
