import Mathlib.Logic.Function.Basic
import Mathlib.Order.Lattice
import Mathlib.Tactic.Common

/-!
# Maps whose bindings expire

A timed map binds a key to a value with an optional deadline, and a binding can
be read while the clock is before its deadline.  An implementation may drop a
binding once its deadline has passed, or drop any binding at all if it evicts.
The relations `Forgets` and `Within` describe the two, and each is preserved by
reads, writes and deletions on both sides.
-/

namespace RustiCache

abbrev TimedMap (κ ν τ : Type) : Type :=
  κ → Option (ν × Option τ)

namespace TimedMap

variable {κ ν τ : Type} [DecidableEq κ] [LinearOrder τ]

def empty : TimedMap κ ν τ :=
  fun _ => none

/-- A deadline has not been reached. -/
def liveAt (now : τ) (deadline : Option τ) : Bool :=
  deadline.all (now < ·)

def get (map : TimedMap κ ν τ) (now : τ) (key : κ) : Option ν :=
  match map key with
  | some (value, deadline) => if liveAt now deadline then some value else none
  | none => none

def write (map : TimedMap κ ν τ) (key : κ) (value : ν) (deadline : Option τ) :
    TimedMap κ ν τ :=
  Function.update map key (some (value, deadline))

def delete (map : TimedMap κ ν τ) (key : κ) : TimedMap κ ν τ :=
  Function.update map key none

/-- Delete all of the listed keys. -/
def without (map : TimedMap κ ν τ) (names : List κ) : TimedMap κ ν τ :=
  fun key => if key ∈ names then none else map key

/-- Every binding kept is one of the full map. -/
def Within (full kept : TimedMap κ ν τ) : Prop :=
  ∀ key, kept key = full key ∨ kept key = none

/-- A binding whose deadline has been reached. -/
def ExpiredBy (now : τ) (binding : Option (ν × Option τ)) : Prop :=
  ∃ value deadline, binding = some (value, some deadline) ∧ deadline ≤ now

/-- All that is missing has expired. -/
def Forgets (now : τ) (full kept : TimedMap κ ν τ) : Prop :=
  ∀ key, kept key = full key ∨ kept key = none ∧ ExpiredBy now (full key)

/-- No binding has a deadline. -/
def Lasting (map : TimedMap κ ν τ) : Prop :=
  ∀ key value deadline, map key ≠ some (value, some deadline)

omit [DecidableEq κ] in
/-- What does not expire is not forgotten. -/
theorem Forgets.eq_of_lasting {now : τ} {full kept : TimedMap κ ν τ}
    (forgets : Forgets now full kept) (lasting : Lasting full) :
    kept = full := by
  ext1 key
  rcases forgets key with same | ⟨-, value, deadline, bound, -⟩
  · exact same
  · exact absurd bound (lasting key value deadline)

omit [LinearOrder τ] in
theorem Lasting.write {map : TimedMap κ ν τ} (lasting : Lasting map) (key : κ)
    (value : ν) : Lasting (map.write key value none) := by
  intro other stored deadline bound
  by_cases same : other = key
  · rw [same, TimedMap.write, Function.update_self] at bound
    cases bound
  · rw [TimedMap.write, Function.update_of_ne same] at bound
    exact lasting other stored deadline bound

theorem liveAt_eq_false_of_le {now deadline : τ} (passed : deadline ≤ now) :
    liveAt now (some deadline) = false := by
  simpa [liveAt] using passed

theorem liveAt_eq_false_iff {now : τ} {deadline : Option τ} :
    liveAt now deadline = false ↔ ∃ limit, deadline = some limit ∧ limit ≤ now := by
  cases deadline with
  | none => simp [liveAt]
  | some limit => simp [liveAt]

omit [DecidableEq κ] in
theorem get_of_binding {map : TimedMap κ ν τ} {key : κ} {value : ν}
    {deadline : Option τ} (bound : map key = some (value, deadline)) (now : τ) :
    map.get now key = if liveAt now deadline then some value else none := by
  rw [get, bound]

omit [DecidableEq κ] in
theorem get_of_none {map : TimedMap κ ν τ} {key : κ}
    (unbound : map key = none) (now : τ) : map.get now key = none := by
  rw [get, unbound]

omit [DecidableEq κ] in
theorem get_of_expired {map : TimedMap κ ν τ} {now later : τ} {key : κ}
    (expired : ExpiredBy now (map key)) (order : now ≤ later) :
    map.get later key = none := by
  obtain ⟨value, deadline, bound, passed⟩ := expired
  rw [get_of_binding bound, liveAt_eq_false_of_le (le_trans passed order)]
  rfl

omit [DecidableEq κ] in
theorem get_congr {first second : TimedMap κ ν τ} {key : κ}
    (same : first key = second key) (now : τ) :
    first.get now key = second.get now key := by
  rw [get, get, same]

theorem get_write_self (map : TimedMap κ ν τ) (key : κ) (value : ν)
    (deadline : Option τ) {now : τ} (live : liveAt now deadline) :
    (map.write key value deadline).get now key = some value := by
  have bound : map.write key value deadline key = some (value, deadline) :=
    Function.update_self ..
  rw [get_of_binding bound, if_pos live]

theorem get_write_ne (map : TimedMap κ ν τ) {key other : κ} (value : ν)
    (deadline : Option τ) (now : τ) (differ : other ≠ key) :
    (map.write key value deadline).get now other = map.get now other :=
  get_congr (Function.update_of_ne differ ..) now

theorem get_delete_ne (map : TimedMap κ ν τ) {key other : κ} (now : τ)
    (differ : other ≠ key) :
    (map.delete key).get now other = map.get now other :=
  get_congr (Function.update_of_ne differ ..) now

namespace Within

omit [DecidableEq κ] [LinearOrder τ] in
theorem refl (map : TimedMap κ ν τ) : Within map map :=
  fun _ => Or.inl rfl

omit [DecidableEq κ] [LinearOrder τ] in
theorem trans {full middle kept : TimedMap κ ν τ}
    (outer : Within full middle) (inner : Within middle kept) :
    Within full kept := by
  intro key
  rcases inner key with same | missing
  · rw [same]
    exact outer key
  · exact Or.inr missing

omit [LinearOrder τ] in
theorem update {full kept : TimedMap κ ν τ} (within : Within full kept)
    (key : κ) (binding : Option (ν × Option τ)) :
    Within (Function.update full key binding)
      (Function.update kept key binding) := by
  intro other
  by_cases same : other = key
  · subst same
    left
    rw [Function.update_self, Function.update_self]
  · rw [Function.update_of_ne same, Function.update_of_ne same]
    exact within other

omit [LinearOrder τ] in
theorem of_delete (map : TimedMap κ ν τ) (key : κ) :
    Within map (map.delete key) := by
  intro other
  by_cases same : other = key
  · right
    rw [same]
    exact Function.update_self ..
  · left
    exact Function.update_of_ne same ..

omit [DecidableEq κ] in
theorem get {full kept : TimedMap κ ν τ} (within : Within full kept)
    (now : τ) (key : κ) :
    kept.get now key = none ∨ kept.get now key = full.get now key := by
  rcases within key with same | missing
  · exact Or.inr (get_congr same now)
  · exact Or.inl (get_of_none missing now)

end Within

namespace Forgets

omit [DecidableEq κ] in
theorem refl (now : τ) (map : TimedMap κ ν τ) : Forgets now map map :=
  fun _ => Or.inl rfl

omit [DecidableEq κ] in
theorem within {now : τ} {full kept : TimedMap κ ν τ}
    (forgets : Forgets now full kept) : Within full kept :=
  fun key => (forgets key).imp_right And.left

omit [DecidableEq κ] in
/-- Forgetting goes on as the clock advances. -/
theorem trans {now later : τ} {full middle kept : TimedMap κ ν τ}
    (outer : Forgets now full middle) (inner : Forgets later middle kept)
    (order : now ≤ later) : Forgets later full kept := by
  intro key
  rcases outer key with same | ⟨missing, value, deadline, bound, passed⟩
  · rw [← same]
    exact inner key
  · right
    refine ⟨?_, value, deadline, bound, le_trans passed order⟩
    rcases inner key with kept | ⟨dropped, _⟩
    · rw [kept, missing]
    · exact dropped

theorem update {now : τ} {full kept : TimedMap κ ν τ}
    (forgets : Forgets now full kept) (key : κ)
    (binding : Option (ν × Option τ)) :
    Forgets now (Function.update full key binding)
      (Function.update kept key binding) := by
  intro other
  by_cases same : other = key
  · subst same
    left
    rw [Function.update_self, Function.update_self]
  · rw [Function.update_of_ne same, Function.update_of_ne same]
    exact forgets other

theorem without {now : τ} {full kept : TimedMap κ ν τ}
    (forgets : Forgets now full kept) (names : List κ) :
    Forgets now (full.without names) (kept.without names) := by
  intro key
  unfold TimedMap.without
  split
  next => exact Or.inl rfl
  next => exact forgets key

omit [DecidableEq κ] in
theorem later {now later : τ} {full kept : TimedMap κ ν τ}
    (forgets : Forgets now full kept) (order : now ≤ later) :
    Forgets later full kept :=
  forgets.trans (Forgets.refl later kept) order

/-- Dropping an expired binding. -/
theorem of_delete {now : τ} {map : TimedMap κ ν τ} {key : κ}
    (expired : ExpiredBy now (map key)) :
    Forgets now map (map.delete key) := by
  intro other
  by_cases same : other = key
  · subst same
    exact Or.inr ⟨Function.update_self .., expired⟩
  · exact Or.inl (Function.update_of_ne same ..)

omit [DecidableEq κ] in
/-- Forgetting what has expired cannot be observed. -/
theorem get {now later : τ} {full kept : TimedMap κ ν τ}
    (forgets : Forgets now full kept) (order : now ≤ later) (key : κ) :
    kept.get later key = full.get later key := by
  rcases forgets key with same | ⟨missing, expired⟩
  · exact get_congr same later
  · rw [get_of_none missing, get_of_expired expired order]

end Forgets

end TimedMap

end RustiCache
