import RustiCache.DecimalNumerals

/-!
# The numerals that the integer reader accepts

A numeral is one or more decimal digits, with or without leading zeros and with
an optional sign.  The reader checks the range after every digit.  Since the
digits read so far never exceed the whole number, it accepts exactly the
numerals whose value is in the range of the target type.
-/

namespace RustiCache

def digitByte (digit : Fin 10) : UInt8 :=
  UInt8.ofNat (48 + digit)

/-- The number spelled by digits after those of `front`. -/
def spelled (front : Nat) (digits : List (Fin 10)) : Nat :=
  digits.foldl (fun number digit => number * 10 + digit) front

/-- Optionally signed decimal numerals and their values. -/
inductive Numeral : Bytes → Int → Prop where
  | plain {digits : List (Fin 10)} (nonempty : digits ≠ []) :
      Numeral (digits.map digitByte) (spelled 0 digits)
  | plus {digits : List (Fin 10)} (nonempty : digits ≠ []) :
      Numeral (43 :: digits.map digitByte) (spelled 0 digits)
  | minus {digits : List (Fin 10)} (nonempty : digits ≠ []) :
      Numeral (45 :: digits.map digitByte) (-(spelled 0 digits : Int))

/-- Decimal numerals without a minus sign and their values. -/
inductive UnsignedNumeral : Bytes → Nat → Prop where
  | plain {digits : List (Fin 10)} (nonempty : digits ≠ []) :
      UnsignedNumeral (digits.map digitByte) (spelled 0 digits)
  | plus {digits : List (Fin 10)} (nonempty : digits ≠ []) :
      UnsignedNumeral (43 :: digits.map digitByte) (spelled 0 digits)

theorem le_spelled (front : Nat) (digits : List (Fin 10)) :
    front ≤ spelled front digits := by
  induction digits generalizing front with
  | nil => exact Nat.le_refl front
  | cons digit digits ih =>
      have later := ih (front * 10 + digit)
      change front ≤ spelled (front * 10 + digit) digits
      omega

theorem digitValue_digitByte (digit : Fin 10) :
    digitValue (digitByte digit) = some digit.val :=
  digitValue_digit digit digit.isLt

theorem digitByte_injective : Function.Injective digitByte := by
  intro first second same
  have values := congrArg digitValue same
  rw [digitValue_digitByte, digitValue_digitByte] at values
  exact Fin.ext (Option.some.inj values)

theorem toNat_digitByte (digit : Fin 10) :
    (digitByte digit).toNat = 48 + digit := by
  have small := digit.isLt
  apply UInt8.toNat_ofNat_of_lt'
  change 48 + digit.val < 256
  omega

/-- The text of a sequence of digits. -/
def digitText (digits : List (Fin 10)) : String :=
  String.ofList (digits.map fun digit : Fin 10 => Nat.digitChar digit.val)

theorem asBytes_digitText (digits : List (Fin 10)) :
    asBytes (digitText digits) = digits.map digitByte := by
  unfold digitText
  rw [asBytes_ofList, List.flatMap_map]
  induction digits with
  | nil => rfl
  | cons digit digits ih =>
      rw [List.flatMap_cons, ih, utf8EncodeChar_digitChar digit digit.isLt]
      rfl

theorem exists_digitByte {byte : UInt8} {value : Nat}
    (isDigit : digitValue byte = some value) :
    ∃ digit : Fin 10, byte = digitByte digit ∧ digit.val = value := by
  unfold digitValue at isDigit
  split at isDigit
  next bounds =>
    cases isDigit
    refine ⟨⟨byte.toNat - 48, by omega⟩, ?_, rfl⟩
    apply UInt8.toNat.inj
    rw [toNat_digitByte]
    change byte.toNat = 48 + (byte.toNat - 48)
    omega
  next => cases isDigit

namespace Numeral

variable {numeral : Bytes} {number : Int}

/-- A numeral is a text. -/
theorem exists_text (spells : Numeral numeral number) :
    ∃ text, asBytes text = numeral := by
  cases spells with
  | @plain digits _ => exact ⟨_, asBytes_digitText digits⟩
  | @plus digits _ =>
      refine ⟨"+" ++ digitText digits, ?_⟩
      rw [asBytes_append, asBytes_digitText]
      rfl
  | @minus digits _ =>
      refine ⟨"-" ++ digitText digits, ?_⟩
      rw [asBytes_append, asBytes_digitText]
      rfl

theorem toNat_of_mem (spells : Numeral numeral number) {byte : UInt8}
    (member : byte ∈ numeral) :
    byte = 43 ∨ byte = 45 ∨ 48 ≤ byte.toNat := by
  have digit : ∀ {digits : List (Fin 10)}, byte ∈ digits.map digitByte →
      48 ≤ byte.toNat := by
    intro digits inDigits
    obtain ⟨digit, _, rfl⟩ := List.mem_map.mp inDigits
    rw [toNat_digitByte]
    omega
  cases spells with
  | plain => exact Or.inr (Or.inr (digit member))
  | plus =>
      rcases List.mem_cons.mp member with sign | inDigits
      · exact Or.inl sign
      · exact Or.inr (Or.inr (digit inDigits))
  | minus =>
      rcases List.mem_cons.mp member with sign | inDigits
      · exact Or.inr (Or.inl sign)
      · exact Or.inr (Or.inr (digit inDigits))

end Numeral

namespace IntType

variable (target : IntType)

/-- A magnitude on the side of `positive`. -/
def signedBy (positive : Bool) (magnitude : Nat) : Int :=
  if positive then magnitude else -magnitude

theorem appendDigit_signedBy (positive : Bool) (magnitude digit : Nat) :
    appendDigit positive (signedBy positive magnitude) digit =
      signedBy positive (magnitude * 10 + digit) := by
  cases positive with
  | false =>
      simp only [appendDigit, signedBy, Bool.false_eq_true, if_false]
      omega
  | true =>
      simp only [appendDigit, signedBy, if_true]
      omega

/-- A smaller magnitude on the same side is in range too. -/
theorem Fits.of_le {target : IntType} {positive : Bool} {small large : Nat}
    (fits : target.Fits (signedBy positive large)) (order : small ≤ large) :
    target.Fits (signedBy positive small) := by
  have lower := target.lower_le
  have upper := target.le_upper
  unfold Fits at fits ⊢
  cases positive with
  | false =>
      simp only [signedBy, Bool.false_eq_true, if_false] at fits ⊢
      omega
  | true =>
      simp only [signedBy, if_true] at fits ⊢
      omega

theorem signedBy_mul_ten (positive : Bool) (magnitude : Nat) :
    signedBy positive magnitude * 10 = signedBy positive (magnitude * 10) := by
  have shifted := appendDigit_signedBy positive magnitude 0
  cases positive <;> simpa [appendDigit] using shifted

/-- The digit loop accepts digits whose number, with those read before, is in
range. -/
theorem readDigits_ok_iff (positive : Bool) (front : Nat) (bytes : Bytes)
    (value : Int) (fits : target.Fits (signedBy positive front)) :
    target.readDigits positive (signedBy positive front) bytes = .ok value ↔
      ∃ digits : List (Fin 10), bytes = digits.map digitByte ∧
        value = signedBy positive (spelled front digits) ∧
        target.Fits value := by
  induction bytes generalizing front with
  | nil =>
      constructor
      · intro read
        cases read
        exact ⟨[], rfl, rfl, fits⟩
      · rintro ⟨digits, empty, rfl, _⟩
        rw [List.map_eq_nil_iff.mp empty.symm]
        rfl
  | cons byte bytes ih =>
      rw [readDigits]
      cases isDigit : digitValue byte with
      | none =>
          refine iff_of_false (by rintro ⟨⟩) ?_
          rintro ⟨digits, layout, _, _⟩
          cases digits with
          | nil => cases layout
          | cons digit digits =>
              cases layout
              rw [digitValue_digitByte] at isDigit
              cases isDigit
      | some number =>
          obtain ⟨digit, rfl, rfl⟩ := exists_digitByte isDigit
          simp only [appendDigit_signedBy, signedBy_mul_ten]
          constructor
          · intro read
            split at read
            next inRange =>
              obtain ⟨digits, rfl, valued, whole⟩ :=
                (ih _ inRange.2).mp read
              exact ⟨digit :: digits, rfl, valued, whole⟩
            next => cases read
          · rintro ⟨digits, layout, rfl, whole⟩
            cases digits with
            | nil => cases layout
            | cons first digits =>
                obtain ⟨sameByte, rfl⟩ := List.cons.inj layout
                obtain rfl := digitByte_injective sameByte
                have longer := whole.of_le
                  (le_spelled (front * 10 + digit) digits)
                rw [if_pos ⟨longer.of_le (Nat.le_add_right _ _), longer⟩]
                exact (ih _ longer).mpr ⟨digits, rfl, rfl, whole⟩

theorem readDigits_zero_iff (positive : Bool) (bytes : Bytes) (value : Int) :
    target.readDigits positive 0 bytes = .ok value ↔
      ∃ digits : List (Fin 10), bytes = digits.map digitByte ∧
        value = signedBy positive (spelled 0 digits) ∧ target.Fits value := by
  have start : signedBy positive 0 = 0 := by
    cases positive <;> rfl
  have fits : target.Fits (signedBy positive 0) := by
    rw [start]
    exact ⟨target.lower_le, target.le_upper⟩
  have read := target.readDigits_ok_iff positive 0 bytes value fits
  rwa [start] at read

theorem parse_plus {digits : Bytes} (nonempty : digits ≠ []) :
    target.parse (43 :: digits) = target.readDigits true 0 digits := by
  cases digits with
  | nil => exact absurd rfl nonempty
  | cons digit digits => rfl

theorem parse_minus (isSigned : target.signed = true) {digits : Bytes}
    (nonempty : digits ≠ []) :
    target.parse (45 :: digits) = target.readDigits false 0 digits := by
  cases digits with
  | nil => exact absurd rfl nonempty
  | cons digit digits => exact if_pos isSigned

theorem parse_map_digitByte {digits : List (Fin 10)} (nonempty : digits ≠ []) :
    target.parse (digits.map digitByte) =
      target.readDigits true 0 (digits.map digitByte) := by
  apply target.parse_digits
  · intro byte member
    obtain ⟨digit, _, rfl⟩ := List.mem_map.mp member
    have small := digit.isLt
    rw [toNat_digitByte]
    omega
  · rwa [ne_eq, List.map_eq_nil_iff]

theorem spelling_of_readDigits {positive : Bool} {digits : Bytes} {value : Int}
    (nonempty : digits ≠ [])
    (read : target.readDigits positive 0 digits = .ok value) :
    ∃ spelling : List (Fin 10), spelling ≠ [] ∧
      digits = spelling.map digitByte ∧
      value = signedBy positive (spelled 0 spelling) ∧ target.Fits value := by
  obtain ⟨spelling, rfl, valued, fits⟩ :=
    (target.readDigits_zero_iff positive digits value).mp read
  refine ⟨spelling, ?_, rfl, valued, fits⟩
  rintro rfl
  exact nonempty rfl

/-- The reader of a signed type accepts the numerals of its range. -/
theorem parse_ok_iff (isSigned : target.signed = true) (bytes : Bytes)
    (value : Int) :
    target.parse bytes = .ok value ↔ Numeral bytes value ∧ target.Fits value := by
  constructor
  · intro read
    unfold parse at read
    split at read
    next => cases read
    next => cases read
    next => cases read
    next digits _ _ =>
      obtain ⟨spelling, nonempty, rfl, rfl, fits⟩ :=
        target.spelling_of_readDigits (by rintro rfl; contradiction) read
      exact ⟨.plus nonempty, fits⟩
    next digits _ _ =>
      rw [if_pos isSigned] at read
      obtain ⟨spelling, nonempty, rfl, rfl, fits⟩ :=
        target.spelling_of_readDigits (by rintro rfl; contradiction) read
      exact ⟨.minus nonempty, fits⟩
    next digits _ _ _ _ =>
      obtain ⟨spelling, nonempty, rfl, rfl, fits⟩ :=
        target.spelling_of_readDigits (by rintro rfl; contradiction) read
      exact ⟨.plain nonempty, fits⟩
  · rintro ⟨numeral, fits⟩
    cases numeral with
    | @plain digits nonempty =>
        rw [target.parse_map_digitByte nonempty]
        exact (target.readDigits_zero_iff true _ _).mpr ⟨digits, rfl, rfl, fits⟩
    | @plus digits nonempty =>
        rw [target.parse_plus (by rwa [ne_eq, List.map_eq_nil_iff])]
        exact (target.readDigits_zero_iff true _ _).mpr ⟨digits, rfl, rfl, fits⟩
    | @minus digits nonempty =>
        rw [target.parse_minus isSigned (by rwa [ne_eq, List.map_eq_nil_iff])]
        exact (target.readDigits_zero_iff false _ _).mpr
          ⟨digits, rfl, rfl, fits⟩

/-- The reader of an unsigned type accepts the unsigned numerals of its range.  A
minus sign is a bad digit to it. -/
theorem parse_unsigned_ok_iff (isUnsigned : target.signed = false)
    (bytes : Bytes) (value : Int) :
    target.parse bytes = .ok value ↔
      ∃ number : Nat, value = number ∧ UnsignedNumeral bytes number ∧
        target.Fits value := by
  constructor
  · intro read
    unfold parse at read
    split at read
    next => cases read
    next => cases read
    next => cases read
    next digits _ _ =>
      obtain ⟨spelling, nonempty, rfl, valued, fits⟩ :=
        target.spelling_of_readDigits (by rintro rfl; contradiction) read
      exact ⟨_, valued, .plus nonempty, fits⟩
    next digits _ _ =>
      rw [if_neg (by rw [isUnsigned]; decide)] at read
      cases read
    next digits _ _ _ _ =>
      obtain ⟨spelling, nonempty, rfl, valued, fits⟩ :=
        target.spelling_of_readDigits (by rintro rfl; contradiction) read
      exact ⟨_, valued, .plain nonempty, fits⟩
  · rintro ⟨number, rfl, numeral, fits⟩
    cases numeral with
    | @plain digits nonempty =>
        rw [target.parse_map_digitByte nonempty]
        exact (target.readDigits_zero_iff true _ _).mpr ⟨digits, rfl, rfl, fits⟩
    | @plus digits nonempty =>
        rw [target.parse_plus (by rwa [ne_eq, List.map_eq_nil_iff])]
        exact (target.readDigits_zero_iff true _ _).mpr ⟨digits, rfl, rfl, fits⟩

end IntType

end RustiCache
