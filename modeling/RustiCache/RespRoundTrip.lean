import RustiCache.RespGrammar

/-!
# Parsing a serialized value

Every value without error nodes is recovered from its own serialization, at
any nesting depth, whatever bytes follow it.  Simple strings are terminated by
the first CR LF, so their text must not contain that pair; bulk strings are
delimited by their length and may contain anything.
-/

namespace RustiCache

namespace Value

/-- Values that the wire format represents without loss: no error nodes, no
CR LF inside a simple string, and lengths below `2 ^ 63`. -/
inductive Transparent : Value → Prop
  | simpleString {text : String} (clean : ¬ crlf <:+: asBytes text) :
      Transparent (.simpleString text)
  | integer (number : Int64) : Transparent (.integer number)
  | nullBulk : Transparent (.bulkString none)
  | bulkString {data : Bytes} (fits : data.length < 2 ^ 63) :
      Transparent (.bulkString (some data))
  | nullArray : Transparent (.array none)
  | array {items : List Value} (fits : items.length < 2 ^ 63)
      (all : ∀ item ∈ items, Transparent item) :
      Transparent (.array (some items))

theorem numeral_signedDecimal (number : Int64) :
    Numeral (signedDecimal number.toInt) number.toInt ∧
      i64.Fits number.toInt := by
  have bounds : i64.Fits number.toInt := by
    have lower := Int64.le_toInt number
    have upper := Int64.toInt_lt number
    constructor <;> simp only [i64] <;> omega
  have read := i64.parse_signedDecimal rfl number.toInt bounds
  exact (i64.parse_ok_iff rfl _ _).mp read

theorem numeral_decimal {length : Nat} (fits : length < 2 ^ 63) :
    Numeral (decimal length) length := by
  have read := isize.parse_decimal length (fits_isize fits).2
  exact ((isize.parse_ok_iff rfl _ _).mp read).1

theorem numeral_minusOne : Numeral (asBytes "-1") (-1) :=
  ((isize.parse_ok_iff rfl _ _).mp (by decide :
    isize.parse (asBytes "-1") = .ok (-1))).1

theorem serializeAll_eq (items : List Value) :
    serializeAll items = (items.map serialize).flatten := by
  induction items with
  | nil => rfl
  | cons item items ih => rw [serializeAll, ih, List.map_cons, List.flatten_cons]

theorem parseRun_serialize_append {value : Value}
    (transparent : Transparent value) (rest : Bytes) :
    parseRun (serialize value ++ rest) =
      ⟨.ok (some value), rest, reservations value⟩ := by
  induction transparent generalizing rest with
  | simpleString clean => exact parseRun_simpleString clean rest
  | integer number =>
      obtain ⟨spells, fits⟩ := numeral_signedDecimal number
      have run := parseRun_integer spells fits rest
      rwa [Int64.ofInt_toInt] at run
  | nullBulk => exact parseRun_nullBulk numeral_minusOne rest
  | @bulkString data fits =>
      have run := parseRun_bulkString (numeral_decimal fits) fits rest
      rw [serialize, List.append_assoc _ data]
      exact run
  | nullArray => exact parseRun_nullArray numeral_minusOne rest
  | @array items fits all ih =>
      have each : ∀ row ∈ items.map fun item => (item, serialize item),
          ReadBack row.1 row.2 := by
        intro row member
        obtain ⟨item, inItems, rfl⟩ := List.mem_map.mp member
        exact ih item inItems
      have spells : Numeral (decimal items.length)
          (items.map fun item => (item, serialize item)).length := by
        rw [List.length_map]
        exact numeral_decimal fits
      have run := parseRun_array spells (by rwa [List.length_map]) each rest
      simp only [List.map_map, Function.comp_def, List.map_id'] at run
      rw [serialize, serializeAll_eq]
      exact run

/-- A transparent value followed by any bytes is parsed back, and exactly the
following bytes stay in the buffer. -/
theorem parse_serialize_append {value : Value}
    (transparent : Transparent value) (rest : Bytes) :
    parse (serialize value ++ rest) = (.ok (some value), rest) := by
  rw [parse, parseRun_serialize_append transparent]

/-- A nested array whose payloads look like protocol data. -/
def nestedSample : Value :=
  .array (some [.simpleString "a\r", .integer (-5),
    .bulkString (some (asBytes "\r\n*1\r\n$")), .bulkString none,
    .array (some [.array none, .array (some [])])])

theorem nestedSample_transparent : Transparent nestedSample := by
  refine .array (by decide) ?_
  simp only [List.forall_mem_cons, List.not_mem_nil, false_implies,
    implies_true, and_true]
  refine ⟨.simpleString (by decide), .integer _, .bulkString (by decide),
    .nullBulk, .array (by decide) ?_⟩
  simp only [List.forall_mem_cons, List.not_mem_nil, false_implies,
    implies_true, and_true]
  exact ⟨.nullArray, .array (by decide) (by simp)⟩

theorem parse_serialize_nestedSample :
    parse (serialize nestedSample ++ asBytes "+OK\r\n") =
      (.ok (some nestedSample), asBytes "+OK\r\n") :=
  parse_serialize_append nestedSample_transparent _

end Value

end RustiCache
