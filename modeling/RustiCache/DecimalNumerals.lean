import RustiCache.ByteText
import Mathlib.Tactic.IntervalCases

/-!
# Decimal numerals

Integers are read from text digit by digit with a range check after every
digit, so a numeral is rejected for its first bad character or at the first
digit that leaves the target type.  Both kinds of sign are accepted for signed
types, only `+` for unsigned ones, and leading zeros are allowed.  The file
proves that this reader inverts the usual decimal printer on every integer of
the target type.
-/

namespace RustiCache

/-- Why a numeral is not an integer of the target type. -/
inductive IntErrorKind
  | empty
  | invalidDigit
  | posOverflow
  | negOverflow
  deriving DecidableEq, Repr

/-- The text a failed integer conversion is reported with. -/
def IntErrorKind.message : IntErrorKind → String
  | .empty => "cannot parse integer from empty string"
  | .invalidDigit => "invalid digit found in string"
  | .posOverflow => "number too large to fit in target type"
  | .negOverflow => "number too small to fit in target type"

/-- An integer type: whether it has negative values, and its bounds. -/
structure IntType where
  signed : Bool
  lower : Int
  upper : Int
  lower_le : lower ≤ 0
  le_upper : 0 ≤ upper

def i64 : IntType := ⟨true, -2 ^ 63, 2 ^ 63 - 1, by decide, by decide⟩

def isize : IntType := ⟨true, -2 ^ 63, 2 ^ 63 - 1, by decide, by decide⟩

def u64 : IntType := ⟨false, 0, 2 ^ 64 - 1, by decide, by decide⟩

def usize : IntType := ⟨false, 0, 2 ^ 64 - 1, by decide, by decide⟩

def u16 : IntType := ⟨false, 0, 2 ^ 16 - 1, by decide, by decide⟩

def digitValue (byte : UInt8) : Option Nat :=
  if 48 ≤ byte.toNat ∧ byte.toNat ≤ 57 then some (byte.toNat - 48) else none

namespace IntType

variable (target : IntType)

def Fits (value : Int) : Prop :=
  target.lower ≤ value ∧ value ≤ target.upper

instance (value : Int) : Decidable (target.Fits value) :=
  inferInstanceAs (Decidable (_ ∧ _))

/-- Append one decimal digit to a value, away from zero on the side of
`positive`. -/
def appendDigit (positive : Bool) (value : Int) (digit : Nat) : Int :=
  if positive then value * 10 + digit else value * 10 - digit

/-- Append the decimal digits of a byte string to an accumulator, with a range
check after the multiplication and after the addition. -/
def readDigits (positive : Bool) : Int → Bytes → Except IntErrorKind Int
  | value, [] => .ok value
  | value, byte :: rest =>
      match digitValue byte with
      | none => .error .invalidDigit
      | some digit =>
          if target.Fits (value * 10) ∧
              target.Fits (appendDigit positive value digit) then
            readDigits positive (appendDigit positive value digit) rest
          else .error (if positive then .posOverflow else .negOverflow)

/-- Read a numeral of the target type. -/
def parse : Bytes → Except IntErrorKind Int
  | [] => .error .empty
  | [43] => .error .invalidDigit
  | [45] => .error .invalidDigit
  | 43 :: digits => target.readDigits true 0 digits
  | 45 :: digits =>
      if target.signed then target.readDigits false 0 digits
      else target.readDigits true 0 (45 :: digits)
  | digits => target.readDigits true 0 digits

theorem readDigits_snoc {positive : Bool} {start value : Int}
    (digits : Bytes) {byte : UInt8} {digit : Nat}
    (readFront : target.readDigits positive start digits = .ok value)
    (isDigit : digitValue byte = some digit)
    (shifted : target.Fits (value * 10))
    (fits : target.Fits (appendDigit positive value digit)) :
    target.readDigits positive start (digits ++ [byte]) =
      .ok (appendDigit positive value digit) := by
  induction digits generalizing start with
  | nil =>
      simp only [readDigits, Except.ok.injEq] at readFront
      subst readFront
      simp [readDigits, isDigit, shifted, fits]
  | cons head digits ih =>
      simp only [List.cons_append, readDigits] at readFront ⊢
      cases found : digitValue head with
      | none => simp [found] at readFront
      | some first =>
          simp only [found] at readFront ⊢
          by_cases step : target.Fits (start * 10) ∧
              target.Fits (appendDigit positive start first)
          · rw [if_pos step] at readFront ⊢
            exact ih readFront
          · rw [if_neg step] at readFront
            cases readFront

end IntType

/-- The decimal digits of a natural number, as bytes. -/
def decimal (number : Nat) : Bytes :=
  asBytes (toString number)

theorem utf8EncodeChar_digitChar (digit : Nat) (small : digit < 10) :
    String.utf8EncodeChar (Nat.digitChar digit) =
      [UInt8.ofNat (48 + digit)] := by
  interval_cases digit <;> rfl

theorem digitValue_digit (digit : Nat) (small : digit < 10) :
    digitValue (UInt8.ofNat (48 + digit)) = some digit := by
  interval_cases digit <;> rfl

/-- The last digit of a numeral comes off its end. -/
theorem decimal_lastDigit (number : Nat) :
    decimal number =
      (if number < 10 then [] else decimal (number / 10)) ++
        [UInt8.ofNat (48 + number % 10)] := by
  have printed (value : Nat) : decimal value =
      (Nat.toDigits 10 value).flatMap String.utf8EncodeChar := by
    change asBytes (String.ofList (Nat.toDigits 10 value)) = _
    exact asBytes_ofList _
  rw [printed, Nat.toDigits_eq_if (by omega)]
  split
  next small =>
    simp [utf8EncodeChar_digitChar number small, Nat.mod_eq_of_lt small]
  next large =>
    simp [printed, utf8EncodeChar_digitChar (number % 10)
      (Nat.mod_lt number (by omega))]

/-- An induction over numerals: single digits, then one more digit at the
end. -/
theorem decimal_induction {motive : Nat → Bytes → Prop}
    (single : ∀ digit, digit < 10 →
      motive digit [UInt8.ofNat (48 + digit)])
    (snoc : ∀ number, 10 ≤ number →
      motive (number / 10) (decimal (number / 10)) →
      motive number
        (decimal (number / 10) ++ [UInt8.ofNat (48 + number % 10)]))
    (number : Nat) : motive number (decimal number) := by
  induction number using Nat.strongRecOn with
  | ind number ih =>
      rw [decimal_lastDigit]
      by_cases small : number < 10
      · simpa [small, Nat.mod_eq_of_lt small] using single number small
      · rw [if_neg small]
        exact snoc number (by omega) (ih (number / 10) (by omega))

theorem length_decimal_le (width : Nat) {number : Nat}
    (small : number < 10 ^ (width + 1)) :
    (decimal number).length ≤ width + 1 := by
  induction width generalizing number with
  | zero =>
      have single : number < 10 := by omega
      rw [decimal_lastDigit, if_pos single]
      rfl
  | succ width ih =>
      rw [decimal_lastDigit]
      split
      · simp
      · have shorter : number / 10 < 10 ^ (width + 1) := by
          rw [Nat.div_lt_iff_lt_mul (by omega), ← Nat.pow_succ]
          exact small
        have bound := ih shorter
        rw [List.length_append, List.length_singleton]
        omega

theorem isDigit_of_mem_decimal (number : Nat) :
    ∀ byte ∈ decimal number, 48 ≤ byte.toNat ∧ byte.toNat ≤ 57 := by
  have digitBounds (digit : Nat) (small : digit < 10) :
      48 ≤ (UInt8.ofNat (48 + digit)).toNat ∧
        (UInt8.ofNat (48 + digit)).toNat ≤ 57 := by
    interval_cases digit <;> decide
  induction number using decimal_induction with
  | single digit small =>
      intro byte member
      rw [List.mem_singleton.mp member]
      exact digitBounds digit small
  | snoc number large ih =>
      intro byte member
      rcases List.mem_append.mp member with front | last
      · exact ih byte front
      · rw [List.mem_singleton.mp last]
        exact digitBounds _ (Nat.mod_lt _ (by omega))

theorem return_not_mem_decimal (number : Nat) :
    (13 : UInt8) ∉ asBytes (toString number) := by
  intro member
  have bounds := isDigit_of_mem_decimal number 13 member
  simp at bounds

theorem decimal_ne_nil (number : Nat) : decimal number ≠ [] := by
  rw [decimal_lastDigit]
  simp

namespace IntType

variable (target : IntType)

/-- Reading the digits of a number accumulates the number, negated when the
digits are subtracted. -/
theorem readDigits_decimal (positive : Bool) (number : Nat)
    (fits : target.Fits (if positive then (number : Int) else -number)) :
    target.readDigits positive 0 (decimal number) =
      .ok (if positive then (number : Int) else -number) := by
  have lower := target.lower_le
  have upper := target.le_upper
  induction number using decimal_induction with
  | single digit small =>
      have shifted : target.Fits (0 * 10) := by
        constructor <;> omega
      have next : appendDigit positive 0 digit =
          if positive then (digit : Int) else -digit := by
        cases positive <;> simp [appendDigit]
      rw [← next] at fits ⊢
      exact target.readDigits_snoc [] rfl
        (digitValue_digit digit small) shifted fits
  | snoc number large ih =>
      -- The leading digits stay in range because the whole number does.
      have frontFits : target.Fits
          (if positive then ((number / 10 : Nat) : Int)
            else -(number / 10 : Nat)) := by
        cases positive <;> simp only [Fits, if_true, Bool.false_eq_true,
          if_false] at fits ⊢ <;> omega
      have shifted : target.Fits
          ((if positive then ((number / 10 : Nat) : Int)
            else -(number / 10 : Nat)) * 10) := by
        cases positive <;> simp only [Fits, if_true, Bool.false_eq_true,
          if_false] at fits ⊢ <;> omega
      have next : appendDigit positive
          (if positive then ((number / 10 : Nat) : Int)
            else -(number / 10 : Nat)) (number % 10) =
          if positive then (number : Int) else -number := by
        cases positive <;> simp only [appendDigit, if_true,
          Bool.false_eq_true, if_false] <;> omega
      rw [← next] at fits ⊢
      exact target.readDigits_snoc _ (ih frontFits)
        (digitValue_digit _ (Nat.mod_lt _ (by omega))) shifted fits

theorem parse_digits {digits : Bytes}
    (areDigits : ∀ byte ∈ digits, 48 ≤ byte.toNat ∧ byte.toNat ≤ 57)
    (nonempty : digits ≠ []) :
    target.parse digits = target.readDigits true 0 digits := by
  cases digits with
  | nil => exact absurd rfl nonempty
  | cons head rest =>
      have headDigit := areDigits head (by simp)
      have notPlus : head ≠ 43 := by
        rintro rfl
        simp at headDigit
      have notMinus : head ≠ 45 := by
        rintro rfl
        simp at headDigit
      unfold parse
      split <;> simp_all

/-- The reader recovers every printed natural number of the target type. -/
theorem parse_decimal (number : Nat) (fits : (number : Int) ≤ target.upper) :
    target.parse (decimal number) = .ok (number : Int) := by
  rw [target.parse_digits (isDigit_of_mem_decimal number)
    (decimal_ne_nil number)]
  have lower := target.lower_le
  have read := target.readDigits_decimal true number
    ⟨by simp only [if_true]; omega, by simpa using fits⟩
  simpa using read

/-- The reader of a signed type recovers every printed negative number. -/
theorem parse_negative (isSigned : target.signed = true) (number : Nat)
    (fits : target.lower ≤ -(number : Int)) :
    target.parse (45 :: decimal number) = .ok (-(number : Int)) := by
  have upper := target.le_upper
  have read := target.readDigits_decimal false number
    ⟨by simpa using fits, by simp only [Bool.false_eq_true, if_false]; omega⟩
  obtain ⟨head, rest, digits⟩ :=
    List.exists_cons_of_ne_nil (decimal_ne_nil number)
  rw [digits] at read ⊢
  simpa [parse, isSigned] using read

end IntType

/-- Decimal text of a signed integer, as bytes. -/
def signedDecimal (number : Int) : Bytes :=
  asBytes (toString number)

theorem signedDecimal_negSucc (number : Nat) :
    signedDecimal (Int.negSucc number) = 45 :: decimal (number + 1) := by
  change asBytes ("-" ++ toString (number + 1)) = _
  rw [asBytes_append]
  rfl

/-- The reader of a signed type recovers every printed integer of the type. -/
theorem IntType.parse_signedDecimal (target : IntType)
    (isSigned : target.signed = true) (number : Int)
    (fits : target.Fits number) :
    target.parse (signedDecimal number) = .ok number := by
  cases number with
  | ofNat number => exact target.parse_decimal number fits.2
  | negSucc number =>
      rw [signedDecimal_negSucc, target.parse_negative isSigned (number + 1)
        (by have := fits.1; omega)]
      congr 1

end RustiCache
