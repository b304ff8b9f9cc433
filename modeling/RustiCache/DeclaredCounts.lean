import RustiCache.ParserPanics
import RustiCache.RespDecoder

/-!
# The counts that a buffer declares

The parser comes to an array header at the front of the buffer, or inside an
array after elements that are complete.  It reserves a vector for the count that
each of these headers declares, whether or not so many elements follow.  This
says on the input when the parser panics.
-/

namespace RustiCache

namespace Value

/-- The counts of the array headers that the parser comes to. -/
inductive Declares : Bytes → Nat → Prop where
  | header {numeral rest : Bytes} {count : Nat}
      (spells : Numeral numeral count) (fits : count < 2 ^ 63) :
      Declares (42 :: numeral ++ crlf ++ rest) count
  | element {numeral rest : Bytes} {count inner : Nat}
      {rows : List (Value × Bytes)} (spells : Numeral numeral count)
      (fits : count < 2 ^ 63) (each : ∀ row ∈ rows, Encodes row.1 row.2)
      (fewer : rows.length < count) (deeper : Declares rest inner) :
      Declares (42 :: numeral ++ crlf ++ ((rows.map Prod.snd).flatten ++ rest))
        inner

theorem parseLine_reserved (build : String → Except RespParseError Value)
    (src : Bytes) : (parseLine build src).reserved = [] := by
  unfold parseLine
  split
  · rfl
  · rfl
  · split <;> rfl

theorem parseBulkString_reserved (src : Bytes) :
    (parseBulkString src).reserved = [] := by
  unfold parseBulkString
  split
  · rfl
  · rfl
  · dsimp only
    split_ifs <;> rfl

theorem parseRun_array_reserved {numeral : Bytes} {count : Nat}
    (spells : Numeral numeral count) (fits : count < 2 ^ 63) (rest : Bytes) :
    (parseRun (42 :: numeral ++ crlf ++ rest)).reserved =
      count :: (parseElements parseRun count rest).reserved := by
  simp only [List.cons_append, parseRun_star, parseArray]
  rw [← List.cons_append, ← List.cons_append,
    lineLength_numeral (by decide) spells (fits_isize fits) rest]
  dsimp only
  rw [if_neg (by omega), if_neg (by omega), List.drop_left,
    Int.toNat_natCast]
  split <;> rfl

theorem parseArray_reserved_of_negative {src : Bytes} {length : Int}
    {lineLen : Nat} (found : lineLength src = .ok (some (length, lineLen)))
    (negative : length < 0) : (parseArray parseRun src).reserved = [] := by
  unfold parseArray
  rw [found]
  dsimp only
  split_ifs <;> rfl

section Elements

theorem mem_reserved_of_first {count number : Nat} {temp : Bytes}
    (some : 0 < count) (member : number ∈ (parseRun temp).reserved) :
    number ∈ (parseElements parseRun count temp).reserved := by
  obtain ⟨others, rfl⟩ := Nat.exists_eq_add_of_lt some
  rw [Nat.zero_add, parseElements]
  dsimp only
  split
  · exact member
  · exact member
  · exact List.mem_append_left _ member

theorem elements_of_mem_reserved {temp : Bytes} (short : temp.length < 2 ^ 63)
    {count number : Nat}
    (member : number ∈ (parseElements parseRun count temp).reserved) :
    ∃ (rows : List (Value × Bytes)) (rest : Bytes), rows.length < count ∧
      (∀ row ∈ rows, Encodes row.1 row.2) ∧
      temp = (rows.map Prod.snd).flatten ++ rest ∧
      number ∈ (parseRun rest).reserved := by
  induction count generalizing temp with
  | zero => cases member
  | succ count ih =>
      have first : number ∈ (parseRun temp).reserved →
          ∃ (rows : List (Value × Bytes)) (rest : Bytes),
            rows.length < count + 1 ∧ (∀ row ∈ rows, Encodes row.1 row.2) ∧
            temp = (rows.map Prod.snd).flatten ++ rest ∧
            number ∈ (parseRun rest).reserved :=
        fun here => ⟨[], temp, Nat.succ_pos count, by simp, rfl, here⟩
      simp only [parseElements] at member
      split at member
      next => exact first member
      next => exact first member
      next element found =>
        rcases List.mem_append.mp member with here | later
        · exact first here
        · obtain ⟨front, encodes, layout⟩ :=
            parseRun_takesEncoding temp element found
          have shorter := (parseRun_rest temp).length_le
          obtain ⟨rows, rest, fewer, each, split, deeper⟩ :=
            ih (by omega) later
          refine ⟨(element, front) :: rows, rest, ?_, ?_, ?_, deeper⟩
          · rw [List.length_cons]
            omega
          · exact List.forall_mem_cons.mpr ⟨encodes, each⟩
          · rw [List.map_cons, List.flatten_cons, List.append_assoc, ← split]
            exact layout

theorem mem_reserved_of_elements {rows : List (Value × Bytes)} {rest : Bytes}
    {count number : Nat} (fewer : rows.length < count)
    (each : ∀ row ∈ rows, Encodes row.1 row.2)
    (short : ((rows.map Prod.snd).flatten ++ rest).length < 2 ^ 63)
    (member : number ∈ (parseRun rest).reserved) :
    number ∈ (parseElements parseRun count
      ((rows.map Prod.snd).flatten ++ rest)).reserved := by
  induction rows generalizing count with
  | nil => exact mem_reserved_of_first fewer member
  | cons row rows ih =>
      obtain ⟨others, rfl⟩ := Nat.exists_eq_add_of_lt fewer
      simp only [List.map_cons, List.flatten_cons, List.append_assoc,
        List.length_append] at short
      have head := readBack_of_encodes (each row (by simp)) (by omega)
        ((rows.map Prod.snd).flatten ++ rest)
      simp only [List.map_cons, List.flatten_cons, List.append_assoc,
        parseElements, head]
      apply List.mem_append_right
      apply ih
      · rw [List.length_cons]
        omega
      · exact fun other inRows => each other (List.mem_cons_of_mem row inRows)
      · rw [List.length_append]
        omega

/-- The element loop reserves what is declared after some of its elements. -/
theorem mem_reserved_elements_iff {temp : Bytes} (short : temp.length < 2 ^ 63)
    (count number : Nat) :
    number ∈ (parseElements parseRun count temp).reserved ↔
      ∃ (rows : List (Value × Bytes)) (rest : Bytes), rows.length < count ∧
        (∀ row ∈ rows, Encodes row.1 row.2) ∧
        temp = (rows.map Prod.snd).flatten ++ rest ∧
        number ∈ (parseRun rest).reserved := by
  constructor
  · exact elements_of_mem_reserved short
  · rintro ⟨rows, rest, fewer, each, rfl, member⟩
    exact mem_reserved_of_elements fewer each short member

end Elements

/-- What an array reserves is declared by its header or inside it. -/
theorem declares_of_mem_array {src : Bytes} {number : Nat}
    (short : (42 :: src).length < 2 ^ 63)
    (member : number ∈ (parseArray parseRun (42 :: src)).reserved)
    (inside : ∀ rest : Bytes, rest.length ≤ src.length →
      number ∈ (parseRun rest).reserved → Declares rest number) :
    Declares (42 :: src) number := by
  cases found : lineLength (42 :: src) with
  | error reason => simp [parseArray, found] at member
  | ok header =>
      cases header with
      | none => simp [parseArray, found] at member
      | some header =>
          obtain ⟨length, lineLen⟩ := header
          by_cases negative : length < 0
          · rw [parseArray_reserved_of_negative found negative] at member
            cases member
          · obtain ⟨numeral, rest, spells, fits, rfl, layout⟩ :=
              lineLength_shape (by decide) found
            have lengths := congrArg List.length layout
            simp only [List.length_append, List.length_cons] at lengths short
            obtain ⟨count, rfl⟩ := Int.eq_ofNat_of_zero_le
              (Int.not_lt.mp negative)
            have small : count < 2 ^ 63 := by
              have upper := fits.2
              simp only [isize] at upper
              omega
            rw [← parseRun_star, layout, parseRun_array_reserved spells small]
              at member
            rw [layout]
            rcases List.mem_cons.mp member with rfl | later
            · exact .header spells small
            · obtain ⟨rows, last, fewer, each, rfl, deeper⟩ :=
                (mem_reserved_elements_iff (by omega) count number).mp later
              rw [List.length_append] at lengths
              exact .element spells small each fewer
                (inside last (by omega) deeper)

/-- The parser reserves vectors for the declared counts. -/
theorem mem_reserved_iff {src : Bytes} (short : src.length < 2 ^ 63)
    (number : Nat) : number ∈ (parseRun src).reserved ↔ Declares src number := by
  constructor
  · induction bound : src.length using Nat.strong_induction_on
        generalizing src with
    | _ bound ih =>
        intro member
        cases src with
        | nil => cases member
        | cons first src =>
            rw [parseRun_eq] at member
            simp only [parseFrame] at member
            split_ifs at member with plus minus colon dollar star
            · rw [parseSimpleString, parseLine_reserved] at member
              cases member
            · rw [parseError, parseLine_reserved] at member
              cases member
            · rw [parseInteger, parseLine_reserved] at member
              cases member
            · rw [parseBulkString_reserved] at member
              cases member
            · subst star
              refine declares_of_mem_array short member ?_
              intro rest shorter deeper
              rw [List.length_cons] at bound short
              exact ih rest.length (by omega) (by omega) rfl deeper
            · cases member
  · intro declares
    induction declares with
    | @header numeral rest count spells fits =>
        rw [parseRun_array_reserved spells fits]
        exact List.mem_cons_self
    | @element numeral rest count inner rows spells fits each fewer deeper ih =>
        simp only [List.length_append] at short
        rw [parseRun_array_reserved spells fits]
        apply List.mem_cons_of_mem
        apply (mem_reserved_elements_iff (by
          rw [List.length_append]
          omega) count inner).mpr
        exact ⟨rows, rest, fewer, each, rfl, ih (by omega)⟩

/-- The checked parser returns if no reservation is too large. -/
theorem settle_ok_iff {size : Nat} {src : Bytes} (short : src.length < 2 ^ 63)
    (outcome : Outcome) :
    Checked.settle size (parseRun src) = .ok outcome ↔
      outcome = ((parseRun src).result, (parseRun src).rest) ∧
        ∀ count, Declares src count → count * size < 2 ^ 63 := by
  simp only [← mem_reserved_iff short]
  rcases RustiCache.Checked.reserveAll_cases size (parseRun src).reserved with
    ⟨reserved, all⟩ | ⟨panicked, count, member, large⟩
  · rw [Checked.settle, reserved]
    constructor
    · rintro ⟨⟩
      exact ⟨rfl, all⟩
    · rintro ⟨rfl, _⟩
      rfl
  · rw [Checked.settle, panicked]
    constructor
    · rintro ⟨⟩
    · rintro ⟨_, all⟩
      exact absurd (all count member) (Nat.not_lt_of_le large)

/-- For elements of any size, `Value::parse` returns without a panic exactly if
every array header it comes to declares a count whose reservation fits, and the
buffer is not a bulk string header of `isize::MAX` bytes announcing as many. -/
theorem parse_returns_iff (size : Nat) {src : Bytes}
    (short : src.length < 2 ^ 63) :
    (∃ outcome, Checked.parse size src = .ok outcome) ↔
      ¬ Checked.Overlong src ∧
        ∀ count, Declares src count → count * size < 2 ^ 63 := by
  by_cases overlong : Checked.Overlong src
  · rw [Checked.parse_of_overlong overlong]
    refine iff_of_false ?_ fun usual => usual.1 overlong
    rintro ⟨outcome, ⟨⟩⟩
  · rw [Checked.parse_eq_settle short overlong]
    simp only [settle_ok_iff short]
    constructor
    · rintro ⟨outcome, _, all⟩
      exact ⟨overlong, all⟩
    · rintro ⟨_, all⟩
      exact ⟨_, rfl, all⟩

theorem parse_returns_iff_nested :
    ¬ Checked.Overlong (asBytes "*2\r\n*1\r\n+a\r\n$1\r\nb\r\n") ∧
      ∀ count, Declares (asBytes "*2\r\n*1\r\n+a\r\n$1\r\nb\r\n") count →
        count * valueSize < 2 ^ 63 :=
  (parse_returns_iff valueSize (by decide)).mp
    ⟨(.ok (some (.array (some [.array (some [.simpleString "a"]),
      .bulkString (some [98])]))), []), by decide +kernel⟩

/-- A header that declares more elements than a vector can be reserved for. -/
theorem parse_panics_on_large_count :
    Checked.parse valueSize (asBytes "*9223372036854775807\r\n") =
      .error .capacity := by
  decide +kernel

end Value

end RustiCache
