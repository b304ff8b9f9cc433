import Mathlib.Algebra.Order.Monoid.Unbundled.Basic
import Mathlib.Tactic.GCongr
import RustiCache.TimedMaps

/-!
# Writes that are made again later

The writes to a timed map are made again on a copy of it, in the same order but
later.  The lifetime of a binding begins when the write is made, so the binding
expires later on the copy.  What can be read from the map, now or at a later
time, can then be read from the copy, unless a write to its key has still to be
made there.
-/

namespace RustiCache

/-- A write whose binding may have a lifetime. -/
inductive LateWrite (κ ν τ : Type) where
  | set (key : κ) (value : ν) (lifetime : Option τ)
  | remove (names : List κ)

namespace LateWrite

variable {κ ν τ : Type} [DecidableEq κ]

/-- The write is made at a time. -/
def apply [Add τ] (now : τ) (map : TimedMap κ ν τ) :
    LateWrite κ ν τ → TimedMap κ ν τ
  | set key value lifetime => map.write key value (lifetime.map (now + ·))
  | remove names => map.without names

/-- What a write does at a key: it leaves it alone, removes it, or binds it for a
lifetime. -/
def effect (key : κ) : LateWrite κ ν τ → Option (Option (ν × Option τ))
  | set name value lifetime =>
      if name = key then some (some (value, lifetime)) else none
  | remove names => if key ∈ names then some none else none

/-- What the last of several writes to a key does there. -/
def lastEffect (key : κ) :
    List (LateWrite κ ν τ) → Option (Option (ν × Option τ))
  | [] => none
  | write :: writes => (lastEffect key writes).or (write.effect key)

theorem lastEffect_snoc (key : κ) (writes : List (LateWrite κ ν τ))
    (write : LateWrite κ ν τ) :
    lastEffect key (writes ++ [write]) =
      (write.effect key).or (lastEffect key writes) := by
  induction writes with
  | nil => simp [lastEffect]
  | cons first writes ih =>
      rw [List.cons_append, lastEffect, ih, lastEffect, Option.or_assoc]

theorem lastEffect_eq_none {key : κ} {writes : List (LateWrite κ ν τ)}
    (untouched : ∀ write ∈ writes, write.effect key = none) :
    lastEffect key writes = none := by
  induction writes with
  | nil => rfl
  | cons write writes ih =>
      obtain ⟨first, others⟩ := List.forall_mem_cons.mp untouched
      rw [lastEffect, first, ih others]
      rfl

theorem apply_of_untouched [Add τ] (now : τ) (map : TimedMap κ ν τ)
    {write : LateWrite κ ν τ} {key : κ} (untouched : write.effect key = none) :
    write.apply now map key = map key := by
  cases write with
  | set name value lifetime =>
      have differ : name ≠ key := by
        rintro rfl
        simp [effect] at untouched
      exact Function.update_of_ne differ.symm ..
  | remove names =>
      have outside : key ∉ names := by
        intro listed
        simp [effect, listed] at untouched
      exact if_neg outside

theorem apply_of_touched [Add τ] (now : τ) (map : TimedMap κ ν τ)
    {write : LateWrite κ ν τ} {key : κ} {binding : Option (ν × Option τ)}
    (touched : write.effect key = some binding) :
    write.apply now map key =
      binding.map fun bound => (bound.1, bound.2.map (now + ·)) := by
  cases write with
  | set name value lifetime =>
      simp only [effect] at touched
      split at touched
      next same =>
        subst same
        cases touched
        exact Function.update_self ..
      next => cases touched
  | remove names =>
      simp only [effect] at touched
      split at touched
      next listed =>
        cases touched
        exact if_pos listed
      next => cases touched

end LateWrite

namespace TimedMap

variable {κ ν τ : Type} [DecidableEq κ] [LinearOrder τ]

omit [DecidableEq κ] in
theorem get_eq_some_iff {map : TimedMap κ ν τ} {now : τ} {key : κ} {value : ν} :
    map.get now key = some value ↔
      ∃ deadline, map key = some (value, deadline) ∧
        ∀ limit ∈ deadline, now < limit := by
  cases bound : map key with
  | none => simp [get_of_none bound]
  | some binding =>
      obtain ⟨stored, deadline⟩ := binding
      rw [get_of_binding bound]
      cases deadline with
      | none => simp [liveAt]
      | some limit => simp [liveAt, and_comm]

variable [Add τ]

/-- Whatever can be read from the map, now or later, is or will be on the copy,
when the given writes have still to be made there. -/
def Outlives (now : τ) (map : TimedMap κ ν τ) (writes : List (LateWrite κ ν τ))
    (copy : TimedMap κ ν τ) : Prop :=
  ∀ key time value, now ≤ time → map.get time key = some value →
    match LateWrite.lastEffect key writes with
    | none => copy.get time key = some value
    | some binding => ∃ lifetime, binding = some (value, lifetime) ∧
        ∀ span ∈ lifetime, time < now + span

namespace Outlives

variable {now later : τ} {map copy next : TimedMap κ ν τ}
  {writes : List (LateWrite κ ν τ)}

theorem get (outlives : Outlives now map writes copy) {key : κ}
    (untouched : ∀ write ∈ writes, write.effect key = none) {time : τ}
    (order : now ≤ time) {value : ν} (live : map.get time key = some value) :
    copy.get time key = some value := by
  have held := outlives key time value order live
  rwa [LateWrite.lastEffect_eq_none untouched] at held

variable [AddRightMono τ]

/-- Time goes by, and bindings of the map disappear. -/
theorem shrink (outlives : Outlives now map writes copy) (order : now ≤ later)
    (kept : ∀ key time value, later ≤ time → next.get time key = some value →
      map.get time key = some value) :
    Outlives later next writes copy := by
  intro key time value after live
  have held := outlives key time value (order.trans after)
    (kept key time value after live)
  split at held
  next => exact held
  next =>
    obtain ⟨lifetime, same, early⟩ := held
    refine ⟨lifetime, same, fun span member => ?_⟩
    calc time < now + span := early span member
      _ ≤ later + span := by gcongr

theorem forget (outlives : Outlives now map writes copy) (order : now ≤ later)
    (forgets : Forgets later map next) : Outlives later next writes copy := by
  refine outlives.shrink order fun key time value after live => ?_
  rwa [forgets.get after] at live

theorem wait (outlives : Outlives now map writes copy) (order : now ≤ later) :
    Outlives later map writes copy :=
  outlives.shrink order fun _ _ _ _ live => live

/-- A write to the map has also to be made on the copy. -/
theorem write (outlives : Outlives now map writes copy) {instant : τ}
    (begins : now ≤ instant) (ends : instant ≤ later)
    (write : LateWrite κ ν τ) :
    Outlives later (write.apply instant map) (writes ++ [write]) copy := by
  intro key time value after live
  rw [LateWrite.lastEffect_snoc]
  cases touched : write.effect key with
  | none =>
      have waited := outlives.wait (begins.trans ends)
      rw [get_congr (LateWrite.apply_of_untouched instant map touched)] at live
      exact waited key time value after live
  | some binding =>
      obtain ⟨deadline, bound, early⟩ := get_eq_some_iff.mp live
      rw [LateWrite.apply_of_touched instant map touched] at bound
      obtain ⟨⟨stored, lifetime⟩, rfl, same⟩ := Option.map_eq_some_iff.mp bound
      cases same
      refine ⟨lifetime, rfl, fun span member => ?_⟩
      calc time < instant + span :=
            early _ (Option.mem_map_of_mem _ member)
        _ ≤ later + span := by gcongr

/-- The next write is made on the copy. -/
theorem arrive {write : LateWrite κ ν τ}
    (outlives : Outlives now map (write :: writes) copy) {instant : τ}
    (begins : now ≤ instant) (ends : instant ≤ later) :
    Outlives later map writes (write.apply instant copy) := by
  intro key time value after live
  have waited := outlives.wait (begins.trans ends) key time value after live
  have held := outlives key time value ((begins.trans ends).trans after) live
  rw [LateWrite.lastEffect] at held waited
  cases last : LateWrite.lastEffect key writes with
  | some binding =>
      rw [last] at waited
      exact waited
  | none =>
      rw [last, Option.none_or] at held
      cases touched : write.effect key with
      | none =>
          rw [touched] at held
          rw [get_congr (LateWrite.apply_of_untouched instant copy touched)]
          exact held
      | some binding =>
          -- the copy's lifetime begins now, and the map's began before
          rw [touched] at held
          obtain ⟨lifetime, rfl, early⟩ := held
          refine get_eq_some_iff.mpr ⟨_,
            LateWrite.apply_of_touched instant copy touched, ?_⟩
          intro limit member
          obtain ⟨span, isSpan, rfl⟩ := Option.map_eq_some_iff.mp member
          calc time < now + span := early span isSpan
            _ ≤ instant + span := by gcongr

/-- The copy loses what has expired. -/
theorem lapse (outlives : Outlives now map writes copy) (order : now ≤ later)
    (forgets : Forgets later copy next) : Outlives later map writes next := by
  intro key time value after live
  have waited := outlives.wait order key time value after live
  split at waited
  next => rwa [forgets.get after]
  next => exact waited

end Outlives

end TimedMap

end RustiCache
