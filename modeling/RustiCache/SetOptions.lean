import RustiCache.Commands
import RustiCache.NumeralGrammar

/-!
# The expiry option of `SET`

The options of `SET` are scanned from left to right.  A `PX` takes the argument
behind it as its operand, and the last operand decides.  An operand that is not
an unsigned numeral of 64 bits, and a `PX` without an operand, are passed over in
silence, so that a key meant to expire is stored for good.
-/

namespace RustiCache

namespace Command

/-- The option asks for an expiry, in any letter case. -/
def isPx (item : Value) : Bool :=
  toAsciiUppercase (item.asStr.getD "") = "PX"

/-- What stands behind each `PX` that the scan meets. -/
def pxOperands : List Value → List (Option Value)
  | [] => []
  | [opt] => if isPx opt then [none] else []
  | opt :: argument :: items =>
      if isPx opt then
        some argument :: pxOperands items
      else
        pxOperands (argument :: items)

/-- The last `PX` is followed by the decimal numeral of a number. -/
def LastExpiry (options : List Value) (ms : Nat) : Prop :=
  ∃ operand text, (pxOperands options).getLast? = some (some operand) ∧
    operand.asStr = some text ∧ UnsignedNumeral (asBytes text) ms

/-- A request that meets a `PX` is refused, or the expiry behind the last one is
part of the command. -/
def KeepsExpiry (request : Value) (options : List Value) : Prop :=
  pxOperands options ≠ [] →
    (∃ reason, fromValue request = .error reason) ∨
      ∃ key data ms, fromValue request = .ok (.set key data (some ms)) ∧
        LastExpiry options ms.toNat

theorem parseU64_eq_some_iff (text : String) (ms : UInt64) :
    parseU64 text = some ms ↔ UnsignedNumeral (asBytes text) ms.toNat := by
  rw [parseU64, Option.map_eq_some_iff]
  constructor
  · rintro ⟨value, read, rfl⟩
    have parsed : u64.parse (asBytes text) = .ok value := by
      cases found : u64.parse (asBytes text) with
      | error kind => simp [found, Except.toOption] at read
      | ok number => simpa [found, Except.toOption] using read
    obtain ⟨number, rfl, numeral, fits⟩ :=
      (u64.parse_unsigned_ok_iff rfl _ _).mp parsed
    have small : number < 2 ^ 64 := by
      have upper := fits.2
      simp only [u64] at upper
      omega
    rw [Int.toNat_natCast, UInt64.toNat_ofNat_of_lt' small]
    exact numeral
  · intro numeral
    have small := ms.toNat_lt
    have fits : u64.Fits (ms.toNat : Int) := by
      constructor <;> simp only [u64] <;> omega
    have parsed : u64.parse (asBytes text) = .ok (ms.toNat : Int) :=
      (u64.parse_unsigned_ok_iff rfl _ _).mpr ⟨ms.toNat, rfl, numeral, fits⟩
    refine ⟨ms.toNat, ?_, ?_⟩
    · rw [parsed]
      rfl
    · rw [Int.toNat_natCast, UInt64.ofNat_toNat]

/-- What an operand makes of the expiry found so far. -/
def applyOperand (pxMs : Option UInt64) (operand : Option Value) :
    Option UInt64 :=
  match operand.bind Value.asStr with
  | some text => parseU64 text
  | none => pxMs

/-- The scan applies the operands one after another. -/
theorem scanOptions_eq_foldl (options : List Value) (pxMs : Option UInt64) :
    scanOptions pxMs options =
      (pxOperands options).foldl applyOperand pxMs := by
  induction options using pxOperands.induct generalizing pxMs with
  | case1 => rfl
  | case2 opt isPx =>
      rw [pxOperands, if_pos isPx]
      rfl
  | case3 opt other =>
      rw [pxOperands, if_neg other]
      rfl
  | case4 opt argument items isPx ih =>
      have asked : toAsciiUppercase (opt.asStr.getD "") = "PX" :=
        of_decide_eq_true isPx
      rw [scanOptions, if_pos asked, pxOperands, if_pos isPx, List.foldl_cons,
        applyOperand, Option.bind_some]
      cases argument.asStr with
      | none => exact ih pxMs
      | some text => exact ih (parseU64 text)
  | case5 opt argument items other ih =>
      have unasked : ¬ toAsciiUppercase (opt.asStr.getD "") = "PX" :=
        fun same => other (decide_eq_true same)
      rw [scanOptions, if_neg unasked, pxOperands, if_neg other]
      exact ih pxMs

/-- The last operand decides, if it is a text. -/
theorem scanOptions_of_getLast {options : List Value} {operand : Value}
    {text : String} (last : (pxOperands options).getLast? = some (some operand))
    (isText : operand.asStr = some text) (pxMs : Option UInt64) :
    scanOptions pxMs options = parseU64 text := by
  obtain ⟨before, whole⟩ := List.getLast?_eq_some_iff.mp last
  rw [scanOptions_eq_foldl, whole, List.foldl_append, List.foldl_cons,
    List.foldl_nil, applyOperand, Option.bind_some, isText]

section Requests

variable {name key data : Value} {options : List Value}

theorem fromValue_set (isSet : name.asStr.map toAsciiUppercase = some "SET") :
    fromValue (.array (some (name :: key :: data :: options))) =
      match key.asStr with
      | some text => .ok (.set text (valueBytes data) (scanOptions none options))
      | none => .error "Key must be string" := by
  obtain ⟨word, isText, upper⟩ := Option.map_eq_some_iff.mp isSet
  rw [fromValue, isText]
  dsimp only
  rw [upper]
  rfl

/-- A requested expiry is kept exactly if the key is no text, so that the command
is refused, or a 64-bit unsigned numeral stands behind the last `PX`. -/
theorem keepsExpiry_iff
    (isSet : name.asStr.map toAsciiUppercase = some "SET") :
    KeepsExpiry (.array (some (name :: key :: data :: options))) options ↔
      (pxOperands options ≠ [] →
        key.asStr = none ∨ ∃ ms < 2 ^ 64, LastExpiry options ms) := by
  rw [KeepsExpiry, fromValue_set isSet]
  apply imp_congr_right
  intro met
  cases keyed : key.asStr with
  | none => simp
  | some text =>
      constructor
      · rintro (⟨reason, refused⟩ | ⟨stored, bytes, ms, accepted, expiry⟩)
        · cases refused
        · exact Or.inr ⟨ms.toNat, ms.toNat_lt, expiry⟩
      · rintro (missing | ⟨ms, small, operand, digits, last, isText, numeral⟩)
        · cases missing
        · right
          have sized : (UInt64.ofNat ms).toNat = ms :=
            UInt64.toNat_ofNat_of_lt' small
          have scanned : scanOptions none options = some (UInt64.ofNat ms) := by
            rw [scanOptions_of_getLast last isText]
            apply (parseU64_eq_some_iff digits _).mpr
            rwa [sized]
          refine ⟨text, valueBytes data, UInt64.ofNat ms, by rw [scanned], ?_⟩
          rw [sized]
          exact ⟨operand, digits, last, isText, numeral⟩

end Requests

/-- A request with two expiries, in different letter cases. -/
def twiceExpiring : List Value :=
  ["PX", "10", "px", "+20"].map Value.string

theorem keepsExpiry_iff_twiceExpiring :
    KeepsExpiry (.array (some (Value.string "set" :: Value.string "k" ::
      Value.string "v" :: twiceExpiring))) twiceExpiring := by
  apply (keepsExpiry_iff (by decide)).mpr
  intro _
  right
  refine ⟨20, by decide, Value.string "+20", "+20", by decide, by decide, ?_⟩
  exact @UnsignedNumeral.plus [2, 0] (by decide)

/-- An operand that is no numeral takes the expiry away, even that of an earlier
`PX`. -/
theorem expiry_lost :
    let options := ["PX", "10", "PX", "10s"].map Value.string
    let request := Value.array (some (Value.string "SET" :: Value.string "k" ::
      Value.string "v" :: options))
    fromValue request = .ok (.set "k" (asBytes "v") none) ∧
      ¬ KeepsExpiry request options := by
  intro options request
  have silent : fromValue request = .ok (.set "k" (asBytes "v") none) := by
    decide
  refine ⟨silent, fun keeps => ?_⟩
  rcases keeps (by decide) with ⟨reason, refused⟩ | ⟨key, data, ms, kept, -⟩
  · rw [silent] at refused
    cases refused
  · rw [silent] at kept
    cases kept

end Command

end RustiCache
