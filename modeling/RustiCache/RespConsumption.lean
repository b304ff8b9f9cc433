import RustiCache.RespParser

/-!
# What the parser removes from its buffer

A request for more data leaves the buffer as it was, and every parsed value
takes at least three bytes: a type byte and a line terminator.
-/

namespace RustiCache

namespace Value

theorem parseElements_temp {parse : Bytes → ParseRun}
    (shrinks : ∀ src, (parse src).rest <:+ src) (count : Nat)
    (temp : Bytes) : (parseElements parse count temp).temp <:+ temp := by
  induction count generalizing temp with
  | zero => exact List.suffix_rfl
  | succ count ih =>
      simp only [parseElements]
      split
      · exact shrinks temp
      · exact shrinks temp
      · exact (ih _).trans (shrinks temp)

theorem parseLine_of_none {build : String → Except RespParseError Value}
    {src : Bytes} (undecided : (parseLine build src).result = .ok none) :
    (parseLine build src).rest = src := by
  unfold parseLine at undecided ⊢
  split
  · rfl
  · rfl
  next found =>
    rw [found] at undecided
    dsimp only at undecided ⊢
    split
    · rfl
    next built =>
      rw [built] at undecided
      cases undecided

theorem parseBulkString_of_none {src : Bytes}
    (undecided : (parseBulkString src).result = .ok none) :
    (parseBulkString src).rest = src := by
  unfold parseBulkString at undecided ⊢
  split
  · rfl
  · rfl
  next found =>
    rw [found] at undecided
    dsimp only at undecided ⊢
    split_ifs at undecided ⊢
    · cases undecided
    · rfl
    · cases undecided

theorem parseArray_of_none {parse : Bytes → ParseRun} {src : Bytes}
    (undecided : (parseArray parse src).result = .ok none) :
    (parseArray parse src).rest = src := by
  unfold parseArray at undecided ⊢
  split
  · rfl
  · rfl
  next found =>
    rw [found] at undecided
    dsimp only at undecided ⊢
    split_ifs at undecided ⊢
    · cases undecided
    · split
      · rfl
      · rfl
      next elements =>
        rw [elements] at undecided
        cases undecided

theorem parseFrame_of_none {parse : Bytes → ParseRun} {src : Bytes}
    (undecided : (parseFrame parse src).result = .ok none) :
    (parseFrame parse src).rest = src := by
  cases src with
  | nil => rfl
  | cons first src =>
      simp only [parseFrame] at undecided ⊢
      split_ifs at undecided ⊢
      · exact parseLine_of_none undecided
      · exact parseLine_of_none undecided
      · exact parseLine_of_none undecided
      · exact parseBulkString_of_none undecided
      · exact parseArray_of_none undecided

/-- A request for more data leaves the buffer as it was. -/
theorem parseRun_of_none {src : Bytes}
    (undecided : (parseRun src).result = .ok none) :
    (parseRun src).rest = src := by
  rw [parseRun_eq] at undecided ⊢
  exact parseFrame_of_none undecided

theorem three_le_of_lineText {first : UInt8} {src : Bytes}
    {content : String} {consumed : Nat} (ordinary : first ≠ 13)
    (found : lineText (first :: src) = .ok (some (content, consumed))) :
    3 ≤ consumed := by
  unfold lineText at found
  split at found
  · cases found
  next line length lineFound =>
    obtain ⟨rfl, rest, layout⟩ := getLine_spec lineFound
    have nonempty : line ≠ [] := by
      rintro rfl
      simp only [crlf, List.nil_append, List.cons_append,
        List.cons.injEq] at layout
      exact ordinary layout.1
    have positive := List.length_pos_iff.mpr nonempty
    split at found
    · cases found
    · cases found
      omega

theorem three_le_of_lineLength {first : UInt8} {src : Bytes}
    {length : Int} {consumed : Nat} (ordinary : first ≠ 13)
    (found : lineLength (first :: src) = .ok (some (length, consumed))) :
    3 ≤ consumed := by
  unfold lineLength at found
  split at found
  · cases found
  · cases found
  next textFound =>
    split at found
    · cases found
    · cases found
      exact three_le_of_lineText ordinary textFound

theorem parseLine_consumed {build : String → Except RespParseError Value}
    {first : UInt8} {src : Bytes} {value : Value} (ordinary : first ≠ 13)
    (parsed : (parseLine build (first :: src)).result = .ok (some value)) :
    (parseLine build (first :: src)).rest.length + 3 ≤
      (first :: src).length := by
  unfold parseLine at parsed ⊢
  split
  next found => simp [found] at parsed
  next found => simp [found] at parsed
  next found =>
    have atLeast := three_le_of_lineText ordinary found
    have bounds := lineText_consumed found
    rw [found] at parsed
    dsimp only at parsed ⊢
    split
    next built => simp [built] at parsed
    · simp only [List.length_drop]
      omega

theorem parseBulkString_consumed {first : UInt8} {src : Bytes}
    {value : Value} (ordinary : first ≠ 13)
    (parsed : (parseBulkString (first :: src)).result = .ok (some value)) :
    (parseBulkString (first :: src)).rest.length + 3 ≤
      (first :: src).length := by
  unfold parseBulkString at parsed ⊢
  split
  next found => simp [found] at parsed
  next found => simp [found] at parsed
  next found =>
    have atLeast := three_le_of_lineLength ordinary found
    have bounds := lineLength_consumed found
    rw [found] at parsed
    dsimp only at parsed ⊢
    split_ifs at parsed ⊢
    · simp only [List.length_drop]
      omega
    · cases parsed
    · simp only [List.length_drop]
      omega

theorem parseArray_consumed {parse : Bytes → ParseRun}
    (shrinks : ∀ src, (parse src).rest <:+ src) {first : UInt8}
    {src : Bytes} {value : Value} (ordinary : first ≠ 13)
    (parsed :
      (parseArray parse (first :: src)).result = .ok (some value)) :
    (parseArray parse (first :: src)).rest.length + 3 ≤
      (first :: src).length := by
  unfold parseArray at parsed ⊢
  split
  next found => simp [found] at parsed
  next found => simp [found] at parsed
  next count lineLen found =>
    have atLeast := three_le_of_lineLength ordinary found
    have bounds := lineLength_consumed found
    have left := (parseElements_temp shrinks count.toNat
      ((first :: src).drop lineLen)).length_le
    rw [List.length_drop] at left
    rw [found] at parsed
    dsimp only at parsed ⊢
    split_ifs at parsed ⊢
    · simp only [List.length_drop]
      omega
    · split
      next elements => simp [elements] at parsed
      next elements => simp [elements] at parsed
      · simp only [List.length_drop]
        omega

/-- Every parsed value takes at least three bytes out of the buffer. -/
theorem parseRun_consumed {src : Bytes} {value : Value}
    (parsed : (parseRun src).result = .ok (some value)) :
    (parseRun src).rest.length + 3 ≤ src.length := by
  rw [parseRun_eq] at parsed ⊢
  cases src with
  | nil => cases parsed
  | cons first src =>
      simp only [parseFrame] at parsed ⊢
      split_ifs at parsed ⊢ with plus minus colon dollar star
      · exact parseLine_consumed (by rw [plus]; decide) parsed
      · exact parseLine_consumed (by rw [minus]; decide) parsed
      · exact parseLine_consumed (by rw [colon]; decide) parsed
      · exact parseBulkString_consumed (by rw [dollar]; decide) parsed
      · exact parseArray_consumed parseRun_rest (by rw [star]; decide) parsed

end Value

end RustiCache
