import Mathlib

/-!
# Division with a shift register

A message of bits is a polynomial over the field with two elements, its first
bit the leading coefficient.  A shift register takes the bits one after another
and holds the remainder of the message, moved up by the register's width, modulo
a generator polynomial.  Feeding bits is linear, which is what tables of
precomputed steps rest on.
-/

namespace RustiCache

namespace ShiftRegister

open Polynomial

variable {n : Nat}

/-- Take the next bit of the message. -/
def feed (taps : BitVec (n + 1)) (register : BitVec (n + 1)) (bit : Bool) :
    BitVec (n + 1) :=
  if register.msb ^^ bit then (register <<< 1) ^^^ taps else register <<< 1

/-- Take a message, beginning with a register. -/
def feedAll (taps : BitVec (n + 1)) (register : BitVec (n + 1))
    (bits : List Bool) : BitVec (n + 1) :=
  bits.foldl (feed taps) register

/-- The register after a whole message. -/
def divide (taps : BitVec (n + 1)) (bits : List Bool) : BitVec (n + 1) :=
  feedAll taps 0 bits

theorem feedAll_append (taps register : BitVec (n + 1))
    (first second : List Bool) :
    feedAll taps register (first ++ second) =
      feedAll taps (feedAll taps register first) second :=
  List.foldl_append

section Linearity

variable (taps : BitVec (n + 1))

theorem xor_cancel_right (first second common : BitVec (n + 1)) :
    (first ^^^ common) ^^^ (second ^^^ common) = first ^^^ second := by
  rw [BitVec.xor_assoc, BitVec.xor_comm common, BitVec.xor_assoc,
    BitVec.xor_self, BitVec.xor_zero]

theorem feed_xor (first second : BitVec (n + 1)) (bit other : Bool) :
    feed taps (first ^^^ second) (bit ^^ other) =
      feed taps first bit ^^^ feed taps second other := by
  have tops : ((first ^^^ second).msb ^^ (bit ^^ other)) =
      ((first.msb ^^ bit) ^^ (second.msb ^^ other)) := by
    rw [BitVec.msb_xor]
    cases first.msb <;> cases second.msb <;> cases bit <;> cases other <;> rfl
  have moved : (first ^^^ second) <<< 1 = (first <<< 1) ^^^ (second <<< 1) :=
    BitVec.shiftLeft_xor_distrib ..
  simp only [feed, tops, moved]
  cases first.msb ^^ bit with
  | false =>
      cases second.msb ^^ other with
      | false => rfl
      | true => exact BitVec.xor_assoc ..
  | true =>
      cases second.msb ^^ other with
      | false =>
          change (first <<< 1 ^^^ second <<< 1) ^^^ taps =
            (first <<< 1 ^^^ taps) ^^^ second <<< 1
          rw [BitVec.xor_assoc, BitVec.xor_comm (second <<< 1),
            ← BitVec.xor_assoc]
      | true => exact (xor_cancel_right _ _ _).symm

/-- Messages of one length, taken together. -/
theorem feedAll_xor (first second : BitVec (n + 1)) {bits others : List Bool}
    (length : bits.length = others.length) :
    feedAll taps (first ^^^ second) (List.zipWith (· ^^ ·) bits others) =
      feedAll taps first bits ^^^ feedAll taps second others := by
  induction bits generalizing first second others with
  | nil =>
      cases others with
      | nil => rfl
      | cons => cases length
  | cons bit bits ih =>
      cases others with
      | nil => cases length
      | cons other others =>
          have rest := ih (feed taps first bit) (feed taps second other)
            (Nat.succ.inj length)
          rw [← feed_xor] at rest
          exact rest

end Linearity

section Polynomials

/-- A bit as a coefficient. -/
def coefficient (bit : Bool) : ZMod 2 :=
  if bit then 1 else 0

theorem coefficient_xor (first second : Bool) :
    coefficient (first ^^ second) = coefficient first + coefficient second := by
  cases first <;> cases second <;> decide

/-- The polynomial of a register, its last bit the constant coefficient. -/
noncomputable def polynomial {width : Nat} (register : BitVec width) :
    (ZMod 2)[X] :=
  ∑ place ∈ Finset.range width, C (coefficient (register.getLsbD place)) * X ^ place

/-- The polynomial of a message, its first bit the leading coefficient. -/
noncomputable def message (bits : List Bool) : (ZMod 2)[X] :=
  bits.foldl (fun sum bit => sum * X + C (coefficient bit)) 0

/-- The generator whose lower coefficients are the taps of a register. -/
noncomputable def generator (taps : BitVec (n + 1)) : (ZMod 2)[X] :=
  X ^ (n + 1) + polynomial taps

theorem message_concat (bits : List Bool) (bit : Bool) :
    message (bits ++ [bit]) = message bits * X + C (coefficient bit) :=
  List.foldl_append

theorem polynomial_xor {width : Nat} (first second : BitVec width) :
    polynomial (first ^^^ second) = polynomial first + polynomial second := by
  simp only [polynomial, BitVec.getLsbD_xor, coefficient_xor, C_add, add_mul,
    Finset.sum_add_distrib]

theorem degree_polynomial_lt {width : Nat} (register : BitVec width) :
    (polynomial register).degree < width := by
  rw [polynomial, ← Fin.sum_univ_eq_sum_range
    (fun place => C (coefficient (register.getLsbD place)) * X ^ place)]
  exact degree_sum_fin_lt _

theorem monic_generator (taps : BitVec (n + 1)) : (generator taps).Monic :=
  monic_X_pow_add (degree_polynomial_lt taps)

theorem degree_generator (taps : BitVec (n + 1)) :
    (generator taps).degree = (n + 1 : Nat) := by
  rw [generator, degree_add_eq_left_of_degree_lt, degree_X_pow]
  rw [degree_X_pow]
  exact degree_polynomial_lt taps

theorem polynomial_zero (width : Nat) : polynomial (0 : BitVec width) = 0 := by
  apply Finset.sum_eq_zero
  intro place _
  simp [coefficient]

/-- Moving a register up by one place loses its first bit. -/
theorem polynomial_shiftLeft (register : BitVec (n + 1)) :
    polynomial (register <<< 1) =
      polynomial register * X + C (coefficient register.msb) * X ^ (n + 1) := by
  have low : (register <<< 1).getLsbD 0 = false := by simp
  have moved : ∀ place ∈ Finset.range n,
      C (coefficient ((register <<< 1).getLsbD (place + 1))) * X ^ (place + 1) =
        C (coefficient (register.getLsbD place)) * X ^ place * X := by
    intro place member
    have inside : place < n := Finset.mem_range.mp member
    have same : (register <<< 1).getLsbD (place + 1) =
        register.getLsbD place := by
      simp only [BitVec.getLsbD_shiftLeft, Nat.add_sub_cancel]
      simp [inside]
    rw [same, pow_succ, mul_assoc]
  have top : register.msb = register.getLsbD n := BitVec.msb_eq_getLsbD_last _
  rw [polynomial, polynomial, Finset.sum_range_succ', Finset.sum_congr rfl moved,
    Finset.sum_range_succ, add_mul, Finset.sum_mul, low, top, mul_assoc _ _ X,
    ← pow_succ, add_assoc _ _ (C _ * X ^ (n + 1)), CharTwo.add_self_eq_zero]
  simp [coefficient]

/-- A step multiplies by the variable and adds the bit on top, up to a multiple
of the generator. -/
theorem polynomial_feed (taps register : BitVec (n + 1)) (bit : Bool) :
    polynomial (feed taps register bit) +
        generator taps * C (coefficient (register.msb ^^ bit)) =
      polynomial register * X + C (coefficient bit) * X ^ (n + 1) := by
  have added : polynomial (feed taps register bit) =
      polynomial (register <<< 1) +
        polynomial taps * C (coefficient (register.msb ^^ bit)) := by
    rw [feed]
    cases register.msb ^^ bit with
    | false => simp [coefficient]
    | true => simp [coefficient, polynomial_xor]
  rw [added, polynomial_shiftLeft, generator, add_mul, coefficient_xor, C_add]
  generalize polynomial register * X = moved
  generalize polynomial taps * (C (coefficient register.msb) +
    C (coefficient bit)) = tapped
  calc moved + C (coefficient register.msb) * X ^ (n + 1) + tapped +
        (X ^ (n + 1) * (C (coefficient register.msb) + C (coefficient bit)) +
          tapped) =
      moved + C (coefficient bit) * X ^ (n + 1) +
        (C (coefficient register.msb) * X ^ (n + 1) +
          C (coefficient register.msb) * X ^ (n + 1)) + (tapped + tapped) := by
        ring
    _ = moved + C (coefficient bit) * X ^ (n + 1) := by
        rw [CharTwo.add_self_eq_zero, CharTwo.add_self_eq_zero, add_zero,
          add_zero]

/-- The register holds the message up to a multiple of the generator. -/
theorem polynomial_divide (taps : BitVec (n + 1)) (bits : List Bool) :
    ∃ quotient, polynomial (divide taps bits) + generator taps * quotient =
      message bits * X ^ (n + 1) := by
  induction bits using List.reverseRecOn with
  | nil =>
      refine ⟨0, ?_⟩
      change polynomial (0 : BitVec (n + 1)) + _ = (0 : (ZMod 2)[X]) * _
      rw [polynomial_zero, mul_zero, add_zero, zero_mul]
  | append_singleton bits bit ih =>
      obtain ⟨quotient, divided⟩ := ih
      have step := polynomial_feed taps (divide taps bits) bit
      refine ⟨quotient * X +
        C (coefficient ((divide taps bits).msb ^^ bit)), ?_⟩
      rw [divide, feedAll_append, message_concat]
      change polynomial (feed taps (divide taps bits) bit) + _ = _
      calc polynomial (feed taps (divide taps bits) bit) + generator taps *
            (quotient * X + C (coefficient ((divide taps bits).msb ^^ bit))) =
          polynomial (feed taps (divide taps bits) bit) + generator taps *
            C (coefficient ((divide taps bits).msb ^^ bit)) +
              generator taps * quotient * X := by
            ring
        _ = (polynomial (divide taps bits) + generator taps * quotient) * X +
              C (coefficient bit) * X ^ (n + 1) := by
            rw [step]
            ring
        _ = (message bits * X + C (coefficient bit)) * X ^ (n + 1) := by
            rw [divided]
            ring

/-- The register ends with the remainder. -/
theorem polynomial_divide_eq_mod (taps : BitVec (n + 1)) (bits : List Bool) :
    polynomial (divide taps bits) =
      (message bits * X ^ (n + 1)) %ₘ generator taps := by
  obtain ⟨quotient, divided⟩ := polynomial_divide taps bits
  have small : (polynomial (divide taps bits)).degree <
      (generator taps).degree := by
    rw [degree_generator]
    exact degree_polynomial_lt _
  exact (div_modByMonic_unique quotient _ (monic_generator taps)
    ⟨divided, small⟩).2.symm

end Polynomials

end ShiftRegister

end RustiCache
