import RustiCache.RespAcceptance

/-!
# What a parse error leaves behind

The line parsers and the array parser report an error before they move the
buffer, the array parser because it works on a copy.  The bulk string parser
has already taken header and payload off the buffer when it looks at the line
terminator behind the payload.  A payload without its terminator is therefore
the only input on which an error consumes anything.
-/

namespace RustiCache

namespace Value

/-- A bulk string whose payload is all there and is followed by something other
than a line terminator. -/
def Misterminated (src : Bytes) : Prop :=
  ∃ numeral data tail, src = 36 :: numeral ++ crlf ++ (data ++ tail) ∧
    Numeral numeral data.length ∧ data.length < 2 ^ 63 ∧
    2 ≤ tail.length ∧ tail.take 2 ≠ crlf

section Unmoved

variable {reason : RespParseError}

theorem parseLine_of_error {build : String → Except RespParseError Value}
    {src : Bytes} (failed : (parseLine build src).result = .error reason) :
    (parseLine build src).rest = src := by
  unfold parseLine at failed ⊢
  split
  · rfl
  · rfl
  next found =>
    rw [found] at failed
    dsimp only at failed ⊢
    split
    · rfl
    next built =>
      rw [built] at failed
      cases failed

/-- Whatever goes wrong with an element, the array parser has only moved its
copy of the buffer. -/
theorem parseArray_of_error {parse : Bytes → ParseRun} {src : Bytes}
    (failed : (parseArray parse src).result = .error reason) :
    (parseArray parse src).rest = src := by
  unfold parseArray at failed ⊢
  split
  · rfl
  · rfl
  next found =>
    rw [found] at failed
    dsimp only at failed ⊢
    split_ifs at failed ⊢
    · rfl
    · split
      · rfl
      · rfl
      next elements =>
        rw [elements] at failed
        cases failed

/-- An error of the bulk string parser leaves the buffer as it was, or is about
the terminator. -/
theorem parseBulkString_of_error {src : Bytes}
    (failed : (parseBulkString (36 :: src)).result = .error reason) :
    (parseBulkString (36 :: src)).rest = 36 :: src ∨
      Misterminated (36 :: src) := by
  unfold parseBulkString at failed ⊢
  split
  · exact Or.inl rfl
  · exact Or.inl rfl
  next length lineLen found =>
    obtain ⟨numeral, rest, spells, fits, rfl, layout⟩ :=
      lineLength_shape (by decide) found
    rw [found] at failed
    dsimp only at failed ⊢
    split_ifs at failed ⊢ with null negative short terminated
    · exact Or.inl rfl
    · right
      rw [layout, List.drop_left] at terminated
      have enough : length.toNat + 2 ≤ rest.length := by
        rw [layout, List.length_append] at short
        omega
      have sized : ((rest.take length.toNat).length : Int) = length := by
        rw [List.length_take, Nat.min_eq_left (by omega)]
        omega
      refine ⟨numeral, rest.take length.toNat, rest.drop length.toNat,
        ?_, ?_, ?_, ?_, terminated⟩
      · rw [List.take_append_drop]
        exact layout
      · rw [sized]
        exact spells
      · have upper := fits.2
        simp only [isize] at upper
        omega
      · rw [List.length_drop]
        omega

/-- An error leaves the buffer as it was, or the terminator of a bulk string is
wrong. -/
theorem parseRun_of_error {src : Bytes}
    (failed : (parseRun src).result = .error reason) :
    (parseRun src).rest = src ∨ Misterminated src := by
  rw [parseRun_eq] at failed ⊢
  cases src with
  | nil => exact Or.inl rfl
  | cons first src =>
      simp only [parseFrame] at failed ⊢
      split_ifs at failed ⊢ with plus minus colon dollar star
      · exact Or.inl (parseLine_of_error failed)
      · exact Or.inl (parseLine_of_error failed)
      · exact Or.inl (parseLine_of_error failed)
      · subst dollar
        exact parseBulkString_of_error failed
      · exact Or.inl (parseArray_of_error failed)
      · exact Or.inl rfl

end Unmoved

/-- Without the terminator, header and payload are lost with the error. -/
theorem parseRun_of_misterminated {numeral data tail : Bytes}
    (spells : Numeral numeral data.length) (fits : data.length < 2 ^ 63)
    (enough : 2 ≤ tail.length) (unterminated : tail.take 2 ≠ crlf) :
    parseRun (36 :: numeral ++ crlf ++ (data ++ tail)) =
      ⟨.error (.protocol "Expected CRLF after bulk string data"), tail, []⟩ := by
  have header := lineLength_numeral (by decide : (36 : UInt8) ≠ 13) spells
    (fits_isize fits) (data ++ tail)
  have notNull : ¬ (data.length : Int) = -1 := by omega
  have notNegative : ¬ (data.length : Int) < 0 := by omega
  have present : ¬ (36 :: numeral ++ crlf ++ (data ++ tail)).length <
      (36 :: numeral ++ crlf).length + data.length + 2 := by
    simp only [List.length_append]
    omega
  simp only [List.cons_append, parseRun_dollar, parseBulkString]
  rw [← List.cons_append, ← List.cons_append, header]
  simp only [notNull, notNegative, if_false, Int.toNat_natCast]
  rw [if_neg present, List.drop_left, List.drop_left, if_pos unterminated]

/-- A parse error leaves the caller's buffer as it was, at whatever nesting level
it arises, unless the buffer is a bulk string without its terminator. -/
theorem parse_error_unmoved_iff (src : Bytes) :
    (∀ reason, (parse src).1 = .error reason → (parse src).2 = src) ↔
      ¬ Misterminated src := by
  constructor
  · rintro unmoved ⟨numeral, data, tail, rfl, spells, fits, enough, unterminated⟩
    have run := parseRun_of_misterminated spells fits enough unterminated
    have same := unmoved _ (by rw [parse, run])
    rw [parse, run] at same
    have lengths := congrArg List.length same
    simp only [List.length_append, List.length_cons] at lengths
    omega
  · intro terminated reason failed
    exact (parseRun_of_error failed).resolve_right terminated

/-- A payload of one byte with two others in place of the terminator. -/
theorem parse_consumes_misterminated :
    parse (asBytes "$1\r\naXY") =
        (.error (.protocol "Expected CRLF after bulk string data"),
          asBytes "XY") ∧
      asBytes "XY" ≠ asBytes "$1\r\naXY" := by
  decide

end Value

end RustiCache
