import RustiCache.CheckedParser
import RustiCache.RespAcceptance

/-!
# Where the parser panics

Frame by frame, the checked parser follows the plain one, up to the first
reservation that is too large.  The addition in a bulk string header overflows
only if the header alone fills a buffer of `isize::MAX` bytes.
-/

namespace RustiCache

namespace Value

namespace Checked

open RustiCache.Checked

/-- The plain run, stopped by the first reservation that is too large. -/
def settle (size : Nat) (run : ParseRun) : Checked Outcome := do
  reserveAll size run.reserved
  return (run.result, run.rest)

section Frames

variable {size : Nat} {first : UInt8} {src : Bytes}

theorem parseLine_eq {build : String → Except RespParseError Value}
    (ordinary : first ≠ 13) (short : (first :: src).length < 2 ^ 64) :
    parseLine build (first :: src) =
      settle size (Value.parseLine build (first :: src)) := by
  rw [parseLine, lineText_eq ordinary short, Value.parseLine]
  cases found : Value.lineText (first :: src) with
  | error reason => rfl
  | ok line =>
      cases line with
      | none => rfl
      | some line =>
          obtain ⟨content, consumed⟩ := line
          have bounds := lineText_consumed found
          simp only [ok_bind, sliceFrom_eq bounds.2]
          cases build content <;> rfl

theorem startsWithCrlf_eq (src : Bytes) :
    startsWithCrlf src = .ok (decide (src.take 2 = crlf)) := by
  match src with
  | [] => rfl
  | [_] => simp [startsWithCrlf, crlf]
  | first :: second :: rest =>
      have firstAt : index (first :: second :: rest) 0 = .ok first := rfl
      have secondAt : index (first :: second :: rest) 1 = .ok second := rfl
      rw [startsWithCrlf, if_neg (by simp), firstAt, secondAt]
      by_cases carriage : first = 13
      · simp [carriage, crlf]
      · simp [carriage, crlf]

/-- A bulk string whose required length fits a machine word. -/
theorem parseBulkString_eq (ordinary : first ≠ 13)
    (short : (first :: src).length < 2 ^ 64)
    (fits : ∀ length lineLen,
      Value.lineLength (first :: src) = .ok (some (length, lineLen)) →
      lineLen + length.toNat + 2 < 2 ^ 64) :
    parseBulkString (first :: src) =
      settle size (Value.parseBulkString (first :: src)) := by
  rw [parseBulkString, lineLength_eq ordinary short, Value.parseBulkString]
  cases found : Value.lineLength (first :: src) with
  | error reason => rfl
  | ok header =>
      cases header with
      | none => rfl
      | some header =>
          obtain ⟨length, lineLen⟩ := header
          have bounds := lineLength_consumed found
          have required := fits length lineLen found
          simp only [ok_bind, sliceFrom_eq bounds.2]
          by_cases null : length = -1
          · rw [if_pos null, if_pos null]
            rfl
          · rw [if_neg null, if_neg null]
            by_cases negative : length < 0
            · rw [if_pos negative, if_pos negative]
              rfl
            · rw [if_neg negative, if_neg negative, add_eq (by omega), ok_bind,
                add_eq required, ok_bind]
              by_cases incomplete : (first :: src).length <
                  lineLen + length.toNat + 2
              · rw [if_pos incomplete, if_pos incomplete]
                rfl
              · have payload :
                    length.toNat ≤ ((first :: src).drop lineLen).length := by
                  rw [List.length_drop]
                  omega
                rw [if_neg incomplete, if_neg incomplete, splitTo_eq payload,
                  ok_bind, startsWithCrlf_eq, ok_bind]
                dsimp only
                by_cases ended : (((first :: src).drop lineLen).drop
                    length.toNat).take 2 = crlf
                · have two : 2 ≤ (((first :: src).drop lineLen).drop
                      length.toNat).length := by
                    simp only [List.length_drop] at payload ⊢
                    omega
                  rw [decide_eq_true ended, if_pos rfl, if_neg (not_not.mpr ended),
                    sliceFrom_eq two]
                  rfl
                · rw [decide_eq_false ended, if_neg (by simp), if_pos ended]
                  rfl

/-- A bulk string whose required length overflows. -/
theorem parseBulkString_overflow (ordinary : first ≠ 13)
    (short : (first :: src).length < 2 ^ 64) {length lineLen : Nat}
    (found : Value.lineLength (first :: src) = .ok (some (length, lineLen)))
    (large : 2 ^ 64 ≤ lineLen + length + 2) :
    parseBulkString (first :: src) = .error .overflow := by
  rw [parseBulkString, lineLength_eq ordinary short, found, ok_bind]
  dsimp only
  rw [if_neg (by omega), if_neg (by omega), Int.toNat_natCast, add]
  split
  next => rw [ok_bind, add, if_neg (by omega)]; rfl
  next => rfl

/-- The element loop panics where the parser of one element does. -/
theorem parseElements_eq {parse : Bytes → Checked Outcome}
    {plain : Bytes → ParseRun} (shrinks : ∀ src, (plain src).rest <:+ src)
    (count : Nat) (temp : Bytes)
    (agree : ∀ src : Bytes, src.length ≤ temp.length →
      parse src = settle size (plain src)) :
    parseElements parse count temp =
      (reserveAll size (Value.parseElements plain count temp).reserved >>=
        fun _ => .ok ((Value.parseElements plain count temp).result,
          (Value.parseElements plain count temp).temp)) := by
  induction count generalizing temp with
  | zero => rfl
  | succ count ih =>
      have others := ih (plain temp).rest fun src fits =>
        agree src (fits.trans (shrinks temp).length_le)
      rw [parseElements, agree temp le_rfl, settle, Value.parseElements]
      cases result : (plain temp).result with
      | error reason =>
          cases reserveAll size (plain temp).reserved <;> rfl
      | ok found =>
          cases found with
          | none => cases reserveAll size (plain temp).reserved <;> rfl
          | some element =>
              simp only [reserveAll_append]
              cases reserveAll size (plain temp).reserved with
              | error reason => rfl
              | ok done =>
                  simp only [ok_bind, pure_eq, others]
                  cases reserveAll size (Value.parseElements plain count
                    (plain temp).rest).reserved <;> rfl

theorem parseArray_eq {parse : Bytes → Checked Outcome}
    {plain : Bytes → ParseRun} (shrinks : ∀ src, (plain src).rest <:+ src)
    (ordinary : first ≠ 13) (short : (first :: src).length < 2 ^ 64)
    (agree : ∀ part : Bytes, part.length < (first :: src).length →
      parse part = settle size (plain part)) :
    parseArray size parse (first :: src) =
      settle size (Value.parseArray plain (first :: src)) := by
  rw [parseArray, lineLength_eq ordinary short, Value.parseArray]
  cases found : Value.lineLength (first :: src) with
  | error reason => rfl
  | ok header =>
      cases header with
      | none => rfl
      | some header =>
          obtain ⟨count, lineLen⟩ := header
          have bounds := lineLength_consumed found
          have loop := parseElements_eq shrinks count.toNat
            ((first :: src).drop lineLen) fun part fits => agree part (by
              rw [List.length_drop] at fits
              omega)
          have left := (parseElements_temp shrinks count.toNat
            ((first :: src).drop lineLen)).length_le
          rw [List.length_drop] at left
          simp only [ok_bind, sliceFrom_eq bounds.2, loop]
          by_cases null : count = -1
          · rw [if_pos null, if_pos null]
            rfl
          · rw [if_neg null, if_neg null]
            by_cases negative : count < 0
            · rw [if_pos negative, if_pos negative]
              rfl
            · rw [if_neg negative, if_neg negative]
              generalize Value.parseElements plain count.toNat
                ((first :: src).drop lineLen) = run at left
              obtain ⟨result, temp, reserved⟩ := run
              dsimp only at left
              rcases result with reason | _ | items
              · simp only [settle, reserveAll]
                cases withCapacity size count.toNat <;>
                  cases reserveAll size reserved <;> rfl
              · simp only [settle, reserveAll]
                cases withCapacity size count.toNat <;>
                  cases reserveAll size reserved <;> rfl
              · simp only [settle, reserveAll]
                cases withCapacity size count.toNat with
                | error reason => rfl
                | ok done =>
                    cases reserveAll size reserved with
                    | error reason => rfl
                    | ok done =>
                        simp only [ok_bind]
                        rw [sub_eq (by omega), ok_bind,
                          sliceFrom_eq (Nat.sub_le _ _)]
                        rfl

end Frames

/-- A bulk string header of `isize::MAX` bytes that announces as many. -/
def Overlong (src : Bytes) : Prop :=
  src.length = 2 ^ 63 - 1 ∧
    ∃ numeral, Numeral numeral (2 ^ 63 - 1) ∧ src = 36 :: numeral ++ crlf

theorem lineLength_of_overlong {src : Bytes} (overlong : Overlong src) :
    Value.lineLength src = .ok (some ((2 ^ 63 - 1 : Nat), 2 ^ 63 - 1)) := by
  obtain ⟨length, numeral, spells, rfl⟩ := overlong
  have header := lineLength_numeral (by decide : (36 : UInt8) ≠ 13) spells
    (by decide) []
  rw [List.append_nil, length] at header
  exact header

/-- The addition overflows only for an overlong header. -/
theorem required_lt_of_not_overlong {src : Bytes}
    (short : (36 :: src).length < 2 ^ 63) (usual : ¬ Overlong (36 :: src))
    {length : Int} {lineLen : Nat}
    (found : Value.lineLength (36 :: src) = .ok (some (length, lineLen))) :
    lineLen + length.toNat + 2 < 2 ^ 64 := by
  obtain ⟨numeral, rest, spells, fits, rfl, layout⟩ :=
    lineLength_shape (by decide) found
  have bounds := (lineLength_consumed found).2
  have announced : length.toNat < 2 ^ 63 := by
    have upper := fits.2
    simp only [isize] at upper
    omega
  by_contra overflow
  apply usual
  have longest : (36 :: numeral ++ crlf).length = 2 ^ 63 - 1 := by omega
  have whole : (36 :: src).length = 2 ^ 63 - 1 := by omega
  have value : length = 2 ^ 63 - 1 := by omega
  have nothing : rest = [] := by
    have lengths := congrArg List.length layout
    rw [List.length_append] at lengths
    exact List.eq_nil_of_length_eq_zero (by omega)
  rw [nothing, List.append_nil] at layout
  rw [value] at spells
  exact ⟨whole, numeral, spells, layout⟩

section Runs

variable {size : Nat}

theorem parseFrame_eq {parse : Bytes → Checked Outcome}
    {plain : Bytes → ParseRun} (shrinks : ∀ src, (plain src).rest <:+ src)
    {src : Bytes} (short : src.length < 2 ^ 63) (usual : ¬ Overlong src)
    (agree : ∀ part : Bytes, part.length < src.length →
      parse part = settle size (plain part)) :
    parseFrame size parse src = settle size (Value.parseFrame plain src) := by
  cases src with
  | nil => rfl
  | cons first src =>
      have word : (first :: src).length < 2 ^ 64 := by omega
      have firstAt : index (first :: src) 0 = .ok first := rfl
      rw [parseFrame, if_neg (by simp), firstAt, ok_bind]
      simp only [Value.parseFrame]
      split_ifs with plus minus colon dollar star
      · exact parseLine_eq (by rw [plus]; decide) word
      · exact parseLine_eq (by rw [minus]; decide) word
      · exact parseLine_eq (by rw [colon]; decide) word
      · subst dollar
        exact parseBulkString_eq (by decide) word fun _ _ found =>
          required_lt_of_not_overlong short usual found
      · exact parseArray_eq shrinks (by rw [star]; decide) word agree
      · rfl

theorem parseFrame_of_overlong (parse : Bytes → Checked Outcome) {src : Bytes}
    (overlong : Overlong src) :
    parseFrame size parse src = .error .overflow := by
  have found := lineLength_of_overlong overlong
  obtain ⟨length, numeral, _, layout⟩ := overlong
  rw [List.cons_append] at layout
  subst layout
  exact parseBulkString_overflow (by decide) (by omega) found (by decide)

theorem parseAt_eq (depth : Nat) {src : Bytes}
    (short : src.length < 2 ^ 63 - 1) :
    parseAt size depth src = settle size (Value.parseAt depth src) := by
  induction depth generalizing src with
  | zero => rfl
  | succ depth ih =>
      apply parseFrame_eq (parseAt_rest depth) (by omega)
      · rintro ⟨length, _⟩
        omega
      · intro part shorter
        exact ih (by omega)

/-- The run of the checked parser. -/
theorem parse_eq_settle {src : Bytes} (short : src.length < 2 ^ 63)
    (usual : ¬ Overlong src) :
    parse size src = settle size (parseRun src) := by
  rw [parse, parseRun]
  cases buffered : src.length with
  | zero => rfl
  | succ depth =>
      apply parseFrame_eq (parseAt_rest depth) short usual
      intro part shorter
      exact parseAt_eq depth (by omega)

theorem parse_of_overlong {src : Bytes} (overlong : Overlong src) :
    parse size src = .error .overflow := by
  rw [parse, overlong.1]
  exact parseFrame_of_overlong _ overlong

/-- The checked parser in the recursive shape of the source. -/
theorem parse_eq {src : Bytes} (short : src.length < 2 ^ 63) :
    parse size src = parseFrame size (parse size) src := by
  by_cases overlong : Overlong src
  · rw [parse_of_overlong overlong, parseFrame_of_overlong _ overlong]
  · rw [parse_eq_settle short overlong, parseRun_eq]
    symm
    apply parseFrame_eq parseRun_rest short overlong
    intro part shorter
    apply parse_eq_settle (by omega)
    rintro ⟨length, _⟩
    omega

end Runs

end Checked

end Value

end RustiCache
