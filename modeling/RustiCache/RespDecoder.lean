import RustiCache.FrameDecoders
import RustiCache.RespRoundTrip
import RustiCache.RespStability

/-!
# The parser as a frame decoder

A reservation of more than `isize::MAX` bytes makes the parser panic instead
of answering.  The decoder treats that as one more kind of malformed input; like
an error, it is not revised when more bytes arrive.
-/

namespace RustiCache

namespace Value

/-- The bytes of one element of a reserved vector of values: five words, four
of them for the largest variant and one for the tag. -/
def valueSize : Nat := 40

/-- Some reservation exceeds `isize::MAX` bytes. -/
def ParseRun.panics (run : ParseRun) : Bool :=
  run.reserved.any fun count => 2 ^ 63 - 1 < count * valueSize

/-- Why the parser does not answer with a value or a request for data. -/
inductive Fault
  | parseError (reason : RespParseError)
  | panic
  deriving DecidableEq

def attempt (src : Bytes) : Attempt Value Fault :=
  if (parseRun src).panics then .malformed .panic
  else
    match (parseRun src).result with
    | .error reason => .malformed (.parseError reason)
    | .ok none => .incomplete
    | .ok (some value) =>
        .complete value (src.length - (parseRun src).rest.length)

/-- The attempt on an empty buffer is not decided. -/
theorem ne_nil_of_attempt {src : Bytes} (decided : attempt src ≠ .incomplete) :
    src ≠ [] := by
  rintro rfl
  exact decided rfl

theorem panics_append {src : Bytes} (extra : Bytes)
    (panicked : (parseRun src).panics = true) :
    (parseRun (src ++ extra)).panics = true := by
  have kept : (parseRun src).reserved <+:
      (parseRun (src ++ extra)).reserved := by
    have extended := parseRun_append src extra
    unfold ParseRun.ExtendsTo at extended
    split at extended
    · exact ⟨[], by rw [List.append_nil, extended]⟩
    · exact extended
    · exact ⟨[], by rw [List.append_nil, extended.2]⟩
  rw [ParseRun.panics, List.any_eq_true] at panicked ⊢
  obtain ⟨count, member, large⟩ := panicked
  exact ⟨count, kept.subset member, large⟩

theorem attempt_complete_iff {src : Bytes} {value : Value}
    {consumed : Nat} :
    attempt src = .complete value consumed ↔
      (parseRun src).panics = false ∧
        (parseRun src).result = .ok (some value) ∧
        consumed = src.length - (parseRun src).rest.length := by
  unfold attempt
  cases (parseRun src).panics with
  | true => simp
  | false =>
      cases (parseRun src).result with
      | error reason => simp
      | ok found => cases found <;> simp [eq_comm]

theorem attempt_bounds {src : Bytes} {value : Value} {consumed : Nat}
    (complete : attempt src = .complete value consumed) :
    0 < consumed ∧ consumed ≤ src.length := by
  obtain ⟨-, parsed, rfl⟩ := attempt_complete_iff.mp complete
  have enough := parseRun_consumed parsed
  omega

theorem attempt_complete_append {src : Bytes} {value : Value} {consumed : Nat}
    (extra : Bytes) (complete : attempt src = .complete value consumed) :
    attempt (src ++ extra) = .complete value consumed := by
  obtain ⟨calm, parsed, rfl⟩ := attempt_complete_iff.mp complete
  have extended := parseRun_append src extra
  simp only [ParseRun.ExtendsTo, parsed] at extended
  apply attempt_complete_iff.mpr
  rw [extended]
  refine ⟨calm, rfl, ?_⟩
  simp only [List.length_append]
  omega

theorem attempt_malformed_append {src : Bytes} {fault : Fault}
    (extra : Bytes) (malformed : attempt src = .malformed fault) :
    attempt (src ++ extra) = .malformed fault := by
  unfold attempt at malformed ⊢
  split at malformed
  next panicked =>
    rw [if_pos (panics_append extra panicked)]
    exact malformed
  next calm =>
    have extended := parseRun_append src extra
    unfold ParseRun.ExtendsTo at extended
    split at malformed
    next failed =>
      rw [failed] at extended
      dsimp only at extended
      rw [ParseRun.panics, extended.2, ← ParseRun.panics, if_neg calm,
        extended.1]
      exact malformed
    · cases malformed
    · cases malformed

/-- The RESP parser as a frame decoder. -/
def decoder : FrameDecoder UInt8 Value Fault where
  attempt := attempt
  attempt_nil := rfl
  consumed_bounds := attempt_bounds
  complete_append := attempt_complete_append
  malformed_append := attempt_malformed_append

/-- What `serialize` writes for a transparent value is accepted, as long as its
arrays can be reserved. -/
theorem accepts_serialize {value : Value} (transparent : Transparent value)
    (reservable : ∀ count ∈ reservations value, count * valueSize < 2 ^ 63) :
    decoder.Accepts (serialize value) value := by
  have run := parseRun_serialize_append transparent []
  rw [List.append_nil] at run
  apply attempt_complete_iff.mpr
  rw [run]
  refine ⟨?_, rfl, rfl⟩
  rw [ParseRun.panics, List.any_eq_false]
  intro count member
  have bound := reservable count member
  simp only [decide_eq_true_eq]
  omega

/-- The array of bulk strings in which a command is sent. -/
def bulkArray (parts : List Bytes) : Value :=
  .array (some (parts.map fun part => .bulkString (some part)))

/-- The frame of a command given by its words. -/
def wordsFrame (words : List String) : Bytes × Value :=
  let value := bulkArray (words.map asBytes)
  (value.serialize, value)

theorem reservationsAll_bulkStrings (parts : List Bytes) :
    reservationsAll (parts.map fun part => .bulkString (some part)) = [] := by
  induction parts with
  | nil => rfl
  | cons part parts ih => exact ih

theorem accepts_bulkArray {parts : List Bytes}
    (few : parts.length * valueSize < 2 ^ 63)
    (short : ∀ part ∈ parts, part.length < 2 ^ 63) :
    decoder.Accepts (serialize (bulkArray parts)) (bulkArray parts) := by
  apply accepts_serialize
  · apply Transparent.array
    · rw [List.length_map]
      simp only [valueSize] at few
      omega
    · intro item member
      obtain ⟨part, inParts, rfl⟩ := List.mem_map.mp member
      exact .bulkString (short part inParts)
  · intro count member
    rw [bulkArray, reservations, reservationsAll_bulkStrings,
      List.mem_singleton, List.length_map] at member
    rw [member]
    exact few

end Value

end RustiCache
