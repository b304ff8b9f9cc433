import RustiCache.NumeralGrammar
import RustiCache.RespParser

/-!
# The grammar of the wire format

An encoding of a value is a type byte, a line, and for bulk strings and arrays
what the line announces.  Lengths and integers may be spelled with a sign and
leading zeros.  Whatever bytes follow an encoding, the parser reads it back and
leaves them in the buffer, as long as the announced lengths fit a machine
integer.
-/

namespace RustiCache

namespace Value

/-- The encodings of a value. -/
inductive Encodes : Value → Bytes → Prop where
  | simpleString {text : String} (clean : ¬ crlf <:+: asBytes text) :
      Encodes (.simpleString text) (43 :: asBytes text ++ crlf)
  | error {text : String} (clean : ¬ crlf <:+: asBytes text) :
      Encodes (.error text) (45 :: asBytes text ++ crlf)
  | integer {numeral : Bytes} {number : Int} (spells : Numeral numeral number)
      (fits : i64.Fits number) :
      Encodes (.integer (Int64.ofInt number)) (58 :: numeral ++ crlf)
  | nullBulk {numeral : Bytes} (spells : Numeral numeral (-1)) :
      Encodes (.bulkString none) (36 :: numeral ++ crlf)
  | bulkString {numeral data : Bytes} (spells : Numeral numeral data.length) :
      Encodes (.bulkString (some data)) (36 :: numeral ++ crlf ++ (data ++ crlf))
  | nullArray {numeral : Bytes} (spells : Numeral numeral (-1)) :
      Encodes (.array none) (42 :: numeral ++ crlf)
  | array {numeral : Bytes} {rows : List (Value × Bytes)}
      (spells : Numeral numeral rows.length)
      (each : ∀ row ∈ rows, Encodes row.1 row.2) :
      Encodes (.array (some (rows.map Prod.fst)))
        (42 :: numeral ++ crlf ++ (rows.map Prod.snd).flatten)

section Headers

theorem clean_cons {first : UInt8} {line : Bytes} (ordinary : first ≠ 13)
    (clean : ¬ crlf <:+: line) : ¬ crlf <:+: first :: line := by
  intro found
  rcases List.infix_cons_iff.mp found with starts | inner
  · obtain ⟨rest, same⟩ := starts
    simp only [crlf, List.cons_append, List.cons.injEq] at same
    exact ordinary same.1.symm
  · exact clean inner

theorem clean_of_not_mem {line : Bytes} (noReturn : (13 : UInt8) ∉ line) :
    ¬ crlf <:+: line := by
  intro found
  exact noReturn (found.subset (by simp [crlf]))

theorem lineText_crlf {first : UInt8} (ordinary : first ≠ 13)
    (text : String) (clean : ¬ crlf <:+: asBytes text) (rest : Bytes) :
    lineText (first :: asBytes text ++ crlf ++ rest) =
      .ok (some (text, (first :: asBytes text ++ crlf).length)) := by
  have found := getLine_crlf (clean_cons ordinary clean) rest
  simp only [lineText, found, List.drop_succ_cons, List.drop_zero,
    fromUtf8_asBytes]
  simp [crlf]

theorem numeral_clean {numeral : Bytes} {number : Int}
    (spells : Numeral numeral number) : ¬ crlf <:+: numeral := by
  apply clean_of_not_mem
  intro member
  have sign := spells.toNat_of_mem member
  revert sign
  decide

theorem lineLength_numeral {first : UInt8} (ordinary : first ≠ 13)
    {numeral : Bytes} {number : Int} (spells : Numeral numeral number)
    (fits : isize.Fits number) (rest : Bytes) :
    lineLength (first :: numeral ++ crlf ++ rest) =
      .ok (some (number, (first :: numeral ++ crlf).length)) := by
  have clean := numeral_clean spells
  obtain ⟨text, rfl⟩ := spells.exists_text
  have header := lineText_crlf ordinary text clean rest
  have read : isize.parse (asBytes text) = .ok number :=
    (isize.parse_ok_iff rfl _ _).mpr ⟨spells, fits⟩
  simp only [lineLength, header, read]

theorem fits_isize {length : Nat} (small : length < 2 ^ 63) :
    isize.Fits length := by
  constructor
  · simp only [isize]
    omega
  · simp only [isize]
    omega

end Headers

section Reading

theorem parseRun_simpleString {text : String}
    (clean : ¬ crlf <:+: asBytes text) (rest : Bytes) :
    parseRun (43 :: asBytes text ++ crlf ++ rest) =
      ⟨.ok (some (.simpleString text)), rest, []⟩ := by
  simp only [List.cons_append, parseRun_plus, parseSimpleString, parseLine]
  rw [← List.cons_append, ← List.cons_append,
    lineText_crlf (by decide) text clean rest]
  simp

theorem parseRun_error {text : String}
    (clean : ¬ crlf <:+: asBytes text) (rest : Bytes) :
    parseRun (45 :: asBytes text ++ crlf ++ rest) =
      ⟨.ok (some (.error text)), rest, []⟩ := by
  simp only [List.cons_append, parseRun_minus, parseError, parseLine]
  rw [← List.cons_append, ← List.cons_append,
    lineText_crlf (by decide) text clean rest]
  simp

theorem parseRun_integer {numeral : Bytes} {number : Int}
    (spells : Numeral numeral number) (fits : i64.Fits number) (rest : Bytes) :
    parseRun (58 :: numeral ++ crlf ++ rest) =
      ⟨.ok (some (.integer (Int64.ofInt number))), rest, []⟩ := by
  have clean := numeral_clean spells
  obtain ⟨text, rfl⟩ := spells.exists_text
  have read : i64.parse (asBytes text) = .ok number :=
    (i64.parse_ok_iff rfl _ _).mpr ⟨spells, fits⟩
  simp only [List.cons_append, parseRun_colon, parseInteger, parseLine]
  rw [← List.cons_append, ← List.cons_append,
    lineText_crlf (by decide) text clean rest]
  simp only [read, List.drop_left]

theorem parseRun_nullBulk {numeral : Bytes} (spells : Numeral numeral (-1))
    (rest : Bytes) :
    parseRun (36 :: numeral ++ crlf ++ rest) =
      ⟨.ok (some (.bulkString none)), rest, []⟩ := by
  simp only [List.cons_append, parseRun_dollar, parseBulkString]
  rw [← List.cons_append, ← List.cons_append,
    lineLength_numeral (by decide) spells (by decide) rest]
  simp only [if_true, List.drop_left]

theorem parseRun_bulkString {numeral data : Bytes}
    (spells : Numeral numeral data.length) (fits : data.length < 2 ^ 63)
    (rest : Bytes) :
    parseRun (36 :: numeral ++ crlf ++ (data ++ crlf) ++ rest) =
      ⟨.ok (some (.bulkString (some data))), rest, []⟩ := by
  have header := lineLength_numeral (by decide : (36 : UInt8) ≠ 13) spells
    (fits_isize fits) (data ++ crlf ++ rest)
  have notNull : ¬ (data.length : Int) = -1 := by omega
  have notNegative : ¬ (data.length : Int) < 0 := by omega
  -- Header, payload and terminator are all present.
  have enough : ¬ (36 :: numeral ++ crlf ++ (data ++ crlf ++ rest)).length <
      (36 :: numeral ++ crlf).length + data.length + 2 := by
    simp only [List.length_append, crlf, List.length_cons, List.length_nil]
    omega
  rw [List.append_assoc]
  simp only [List.cons_append, parseRun_dollar, parseBulkString]
  rw [← List.cons_append, ← List.cons_append, header]
  simp only [notNull, notNegative, if_false, Int.toNat_natCast]
  rw [if_neg enough, List.drop_left, List.append_assoc, List.drop_left,
    List.take_left]
  simp [crlf]

theorem parseRun_nullArray {numeral : Bytes} (spells : Numeral numeral (-1))
    (rest : Bytes) :
    parseRun (42 :: numeral ++ crlf ++ rest) =
      ⟨.ok (some (.array none)), rest, []⟩ := by
  simp only [List.cons_append, parseRun_star, parseArray]
  rw [← List.cons_append, ← List.cons_append,
    lineLength_numeral (by decide) spells (by decide) rest]
  simp only [if_true, List.drop_left]

mutual

/-- The element counts that parsing the value reserves vectors for. -/
def reservations : Value → List Nat
  | .array (some elements) => elements.length :: reservationsAll elements
  | _ => []

def reservationsAll : List Value → List Nat
  | [] => []
  | element :: elements => reservations element ++ reservationsAll elements

end

/-- The bytes are read back as the value, whatever follows them. -/
def ReadBack (value : Value) (bytes : Bytes) : Prop :=
  ∀ rest, parseRun (bytes ++ rest) =
    ⟨.ok (some value), rest, reservations value⟩

/-- The element loop reads back a list of values whose elements are read back
one by one. -/
theorem parseElements_rows {rows : List (Value × Bytes)}
    (each : ∀ row ∈ rows, ReadBack row.1 row.2) (rest : Bytes) :
    parseElements parseRun rows.length
        ((rows.map Prod.snd).flatten ++ rest) =
      ⟨.ok (some (rows.map Prod.fst)), rest,
        reservationsAll (rows.map Prod.fst)⟩ := by
  induction rows with
  | nil => rfl
  | cons row rows ih =>
      have head := each row (by simp) ((rows.map Prod.snd).flatten ++ rest)
      have tail := ih fun other member =>
        each other (List.mem_cons_of_mem row member)
      simp only [List.map_cons, List.flatten_cons, List.length_cons,
        List.append_assoc, parseElements, head, tail, reservationsAll]
      rfl

theorem parseRun_array {numeral : Bytes} {rows : List (Value × Bytes)}
    (spells : Numeral numeral rows.length) (fits : rows.length < 2 ^ 63)
    (each : ∀ row ∈ rows, ReadBack row.1 row.2) :
    ReadBack (.array (some (rows.map Prod.fst)))
      (42 :: numeral ++ crlf ++ (rows.map Prod.snd).flatten) := by
  intro rest
  have header := lineLength_numeral (by decide : (42 : UInt8) ≠ 13) spells
    (fits_isize fits) ((rows.map Prod.snd).flatten ++ rest)
  have notNull : ¬ (rows.length : Int) = -1 := by omega
  have notNegative : ¬ (rows.length : Int) < 0 := by omega
  have consumed : (42 :: numeral ++ crlf ++
      ((rows.map Prod.snd).flatten ++ rest)).length - rest.length =
      (42 :: numeral ++ crlf ++ (rows.map Prod.snd).flatten).length := by
    simp only [List.length_append]
    omega
  rw [List.append_assoc]
  simp only [List.cons_append, parseRun_star, parseArray]
  rw [← List.cons_append, ← List.cons_append, header]
  simp only [notNull, notNegative, if_false, Int.toNat_natCast]
  rw [List.drop_left, parseElements_rows each rest]
  simp only [reservations, List.length_map]
  rw [consumed, ← List.append_assoc, List.drop_left]

end Reading

end Value

end RustiCache
