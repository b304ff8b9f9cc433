import RustiCache.Commands
import RustiCache.RespDecoder

/-!
# Bounds on the values of the program

A value that the program holds has no allocation above `isize::MAX` bytes.  So
the lists and texts of a command that is read from it are no longer than that
either.
-/

namespace RustiCache

namespace Value

mutual

/-- The sizes in bytes of the allocations that a value holds. -/
def allocations : Value → List Nat
  | .simpleString text => [(asBytes text).length]
  | .error text => [(asBytes text).length]
  | .integer _ => []
  | .bulkString data => (data.map List.length).toList
  | .array none => []
  | .array (some items) => items.length * valueSize :: allocationsAll items

def allocationsAll : List Value → List Nat
  | [] => []
  | item :: items => allocations item ++ allocationsAll items

end

/-- No allocation exceeds `isize::MAX` bytes. -/
def Resident (value : Value) : Prop :=
  ∀ size ∈ allocations value, size < 2 ^ 63

theorem Resident.length_lt {items : List Value}
    (resident : Resident (.array (some items))) : items.length < 2 ^ 63 := by
  have bound := resident (items.length * valueSize) (by simp [allocations])
  simp only [valueSize] at bound
  omega

theorem mem_allocationsAll {items : List Value} {item : Value} {size : Nat}
    (member : item ∈ items) (allocated : size ∈ allocations item) :
    size ∈ allocationsAll items := by
  induction items with
  | nil => cases member
  | cons first items ih =>
      rw [allocationsAll]
      rcases List.mem_cons.mp member with rfl | later
      · exact List.mem_append_left _ allocated
      · exact List.mem_append_right _ (ih later)

theorem Resident.of_mem {items : List Value}
    (resident : Resident (.array (some items))) {item : Value}
    (member : item ∈ items) : Resident item := by
  intro size allocated
  apply resident
  rw [allocations]
  exact List.mem_cons_of_mem _ (mem_allocationsAll member allocated)

theorem Resident.asStr_lt {item : Value} (resident : Resident item)
    {text : String} (read : item.asStr = some text) :
    (asBytes text).length < 2 ^ 63 := by
  cases item with
  | simpleString content =>
      cases read
      exact resident _ (by simp [allocations])
  | bulkString data =>
      cases data with
      | none => cases read
      | some data =>
          rw [asStr] at read
          cases valid : fromUtf8 data with
          | error invalid =>
              rw [valid] at read
              cases read
          | ok content =>
              rw [valid] at read
              cases read
              rw [asBytes_of_fromUtf8 valid]
              exact resident _ (by simp [allocations])
  | error => cases read
  | integer => cases read
  | array => cases read

end Value

namespace Command

/-- The lists and texts of a command that its loops and sums depend on. -/
def Bounded : Command → Prop
  | del names => names.length < 2 ^ 63
  | «exists» names => names.length < 2 ^ 63
  | cluster (.keySlot key) => (asBytes key).length < 2 ^ 63
  | _ => True

theorem bounded_of_clusterFromItems {sub : String} {items : List Value}
    (resident : ∀ item ∈ items, item.Resident) {cmd : Command}
    (read : clusterFromItems sub items = .ok cmd) : cmd.Bounded := by
  unfold clusterFromItems at read
  split at read
  · split at read
    next key rest =>
      cases read
      cases text : key.asStr with
      | none => exact Nat.two_pow_pos 63
      | some content => exact (resident key List.mem_cons_self).asStr_lt text
    next => cases read
  · cases read
    trivial
  · cases read
    trivial
  · cases read
    trivial
  · split at read
    next =>
      split at read
      · cases read
        trivial
      · cases read
    next => cases read
  · split at read
    next => cases read
    next =>
      cases slots : items.mapM parseSlot with
      | error reason =>
          rw [slots] at read
          cases read
      | ok slots =>
          rw [slots] at read
          cases read
          trivial
  · cases read

theorem length_texts_le (items : List Value) :
    (texts items).length ≤ items.length :=
  List.length_filterMap_le _ _

theorem bounded_of_fromItems {name : String} {items : List Value}
    (few : items.length < 2 ^ 63)
    (resident : ∀ item ∈ items, item.Resident) {cmd : Command}
    (read : fromItems name items = .ok cmd) : cmd.Bounded := by
  have listed : (texts items).length < 2 ^ 63 :=
    (length_texts_le items).trans_lt few
  unfold fromItems at read
  split at read
  all_goals try (cases read; trivial)
  · split at read
    next => cases read; trivial
    next => cases read
  · split at read
    next =>
      split at read
      · cases read
        trivial
      · cases read
    next => cases read
  · split at read
    next =>
      split at read
      · cases read
        trivial
      · cases read
    next => cases read
  · split at read
    next => cases read
    next =>
      cases read
      exact listed
  · split at read
    next => cases read
    next =>
      cases read
      exact listed
  · split at read
    next => cases read
    next => cases read; trivial
    next => cases read; trivial
  · split at read
    next => cases read
    next sub rest =>
      split at read
      next =>
        refine bounded_of_clusterFromItems ?_ read
        intro item member
        exact resident item (List.mem_cons_of_mem _ member)
      next => cases read
  · cases read

/-- What is read from a value of the program is within its bounds. -/
theorem bounded_of_fromValue {value : Value} (resident : value.Resident)
    {cmd : Command} (read : fromValue value = .ok cmd) : cmd.Bounded := by
  unfold fromValue at read
  split at read
  next => cases read
  next name items =>
    have few := resident.length_lt
    rw [List.length_cons] at few
    split at read
    next text _ =>
      refine bounded_of_fromItems (by omega) ?_ read
      intro item member
      exact resident.of_mem (List.mem_cons_of_mem _ member)
    next => cases read
  next => cases read

end Command

end RustiCache
