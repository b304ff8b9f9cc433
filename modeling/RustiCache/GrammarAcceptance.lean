import RustiCache.DeclaredCounts

/-!
# What the parser accepts

With its panics taken into account, the parser answers with a value exactly on
the encodings of that value.  Only values that the program can hold are meant:
an encoding of a larger array is met with a panic.
-/

namespace RustiCache

namespace Value

/-- No vector takes more than `isize::MAX` bytes, so no value of the program
has a larger array. -/
def Representable (value : Value) : Prop :=
  ∀ count ∈ reservations value, count * valueSize < 2 ^ 63

/-- `Value::parse` answers with the value and consumes so many bytes. -/
def Accepts (src : Bytes) (value : Value) (consumed : Nat) : Prop :=
  consumed ≤ src.length ∧
    Checked.parse valueSize src = .ok (.ok (some value), src.drop consumed)

theorem parseRun_of_overlong {src : Bytes} (overlong : Checked.Overlong src) :
    (parseRun src).result = .ok none := by
  have found := Checked.lineLength_of_overlong overlong
  obtain ⟨length, numeral, _, layout⟩ := overlong
  rw [List.cons_append] at layout
  subst layout
  rw [parseRun_dollar, parseBulkString, found]
  dsimp only
  rw [if_neg (by omega), if_neg (by omega), Int.toNat_natCast,
    if_pos (by omega)]

/-- An encoding at the front of a buffer fixes the run of the parser. -/
theorem parseRun_of_encodes {src : Bytes} (short : src.length < 2 ^ 63)
    {value : Value} {consumed : Nat}
    (encodes : Encodes value (src.take consumed)) :
    parseRun src =
      ⟨.ok (some value), src.drop consumed, reservations value⟩ := by
  have front : (src.take consumed).length < 2 ^ 63 :=
    (List.length_take_le' consumed src).trans_lt short
  have run := readBack_of_encodes encodes front (src.drop consumed)
  rwa [List.take_append_drop] at run

/-- What is accepted has been read without a panic. -/
theorem settled_of_accepts {src : Bytes} (short : src.length < 2 ^ 63)
    {value : Value} {consumed : Nat} (accepted : Accepts src value consumed) :
    (.ok (some value), src.drop consumed) =
        ((parseRun src).result, (parseRun src).rest) ∧
      ∀ count, Declares src count → count * valueSize < 2 ^ 63 := by
  obtain ⟨-, parsed⟩ := accepted
  have usual : ¬ Checked.Overlong src := by
    intro overlong
    rw [Checked.parse_of_overlong overlong] at parsed
    cases parsed
  rwa [Checked.parse_eq_settle short usual, settle_ok_iff short] at parsed

/-- What is accepted is an encoding. -/
theorem encodes_of_accepts {src : Bytes} (short : src.length < 2 ^ 63)
    {value : Value} {consumed : Nat} (accepted : Accepts src value consumed) :
    Encodes value (src.take consumed) := by
  obtain ⟨outcome, -⟩ := settled_of_accepts short accepted
  obtain ⟨result, rest⟩ := Prod.mk.inj outcome
  obtain ⟨front, encodes, layout⟩ :=
    parseRun_takesEncoding src value result.symm
  rw [← rest] at layout
  have same : front ++ src.drop consumed =
      src.take consumed ++ src.drop consumed := by
    rw [← layout, List.take_append_drop]
  rwa [← List.append_cancel_right same]

/-- What is accepted is a value that the program can hold. -/
theorem representable_of_accepts {src : Bytes} (short : src.length < 2 ^ 63)
    {value : Value} {consumed : Nat} (accepted : Accepts src value consumed) :
    Representable value := by
  have run := parseRun_of_encodes short (encodes_of_accepts short accepted)
  obtain ⟨-, fits⟩ := settled_of_accepts short accepted
  intro count member
  apply fits
  rw [← mem_reserved_iff short, run]
  exact member

/-- An encoding is accepted, if there is room for what it declares. -/
theorem accepts_of_encodes {src : Bytes} (short : src.length < 2 ^ 63)
    {value : Value} (representable : Representable value) {consumed : Nat}
    (bound : consumed ≤ src.length)
    (encodes : Encodes value (src.take consumed)) :
    Accepts src value consumed := by
  have run := parseRun_of_encodes short encodes
  have usual : ¬ Checked.Overlong src := by
    intro overlong
    have undecided := parseRun_of_overlong overlong
    rw [run] at undecided
    cases undecided
  refine ⟨bound, ?_⟩
  rw [Checked.parse_eq_settle short usual, settle_ok_iff short, run]
  refine ⟨rfl, ?_⟩
  intro count declares
  rw [← mem_reserved_iff short, run] at declares
  exact representable count declares

/-- A buffer has at most one encoding at its front. -/
theorem encoding_unique {src : Bytes} (short : src.length < 2 ^ 63)
    {first second : Value} {firstLength secondLength : Nat}
    (firstBound : firstLength ≤ src.length)
    (firstEncodes : Encodes first (src.take firstLength))
    (secondBound : secondLength ≤ src.length)
    (secondEncodes : Encodes second (src.take secondLength)) :
    first = second ∧ firstLength = secondLength := by
  have firstRun := parseRun_of_encodes short firstEncodes
  have secondRun := parseRun_of_encodes short secondEncodes
  rw [firstRun] at secondRun
  simp only [ParseRun.mk.injEq, Except.ok.injEq, Option.some.injEq] at secondRun
  refine ⟨secondRun.1, ?_⟩
  have lengths := congrArg List.length secondRun.2.1
  simp only [List.length_drop] at lengths
  omega

/-- `Value::parse` accepts exactly the encodings of its grammar, and a buffer
has at most one at its front. -/
theorem parse_accepts_iff {src : Bytes} (short : src.length < 2 ^ 63) :
    (∀ value consumed, Accepts src value consumed → Representable value) ∧
    (∀ value, Representable value → ∀ consumed,
      Accepts src value consumed ↔
        consumed ≤ src.length ∧ Encodes value (src.take consumed)) ∧
    ∀ first second firstLength secondLength,
      firstLength ≤ src.length → Encodes first (src.take firstLength) →
      secondLength ≤ src.length → Encodes second (src.take secondLength) →
      first = second ∧ firstLength = secondLength := by
  refine ⟨?_, ?_, ?_⟩
  · intro value consumed accepted
    exact representable_of_accepts short accepted
  · intro value representable consumed
    constructor
    · intro accepted
      exact ⟨accepted.1, encodes_of_accepts short accepted⟩
    · rintro ⟨bound, encodes⟩
      exact accepts_of_encodes short representable bound encodes
  · intro first second firstLength secondLength firstBound firstEncodes
      secondBound secondEncodes
    exact encoding_unique short firstBound firstEncodes secondBound
      secondEncodes

/-- A frame spelled with leading zeros and a sign, and bytes behind it. -/
theorem parse_accepts_iff_spelled :
    (asBytes "*+01\r\n:-007\r\nrest").length < 2 ^ 63 ∧
      Encodes (.array (some [.integer (-7)]))
        ((asBytes "*+01\r\n:-007\r\nrest").take 13) := by
  have short : (asBytes "*+01\r\n:-007\r\nrest").length < 2 ^ 63 := by decide
  refine ⟨short, ?_⟩
  have accepted : Accepts (asBytes "*+01\r\n:-007\r\nrest")
      (.array (some [.integer (-7)])) 13 := by
    constructor
    · decide
    · decide +kernel
  obtain ⟨holdable, accepts, -⟩ := parse_accepts_iff short
  exact ((accepts _ (holdable _ 13 accepted) 13).mp accepted).2

end Value

end RustiCache
