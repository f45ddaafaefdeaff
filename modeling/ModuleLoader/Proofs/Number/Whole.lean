import Mathlib.Tactic.Ring
import ModuleLoader.Number.Whole

/-!
# Rounding to whole numbers

A number that is whole is the nearest number to its value, so that rounding the value finds the number
again.  The two zeros apart, a whole number is determined by its value.  Main statements:
`ofQuotient_whole`, rounding a value that a number has, and `equals_iff_of_whole`, equality of whole
numbers is that of their values.
-/

set_option autoImplicit false

namespace ModuleLoader.Binary64

/-! ## Quotients that are whole -/

/-- A multiple is divided without rounding. -/
theorem roundQuotient_mul (m : Nat) {b : Nat} (hb : 0 < b) : roundQuotient (m * b) b = m := by
  unfold roundQuotient
  simp [Nat.mul_div_cancel m hb, hb]

/-- A whole number is a significand times a power of two, whose exponent may be negative. -/
def IsScaled (N m : Nat) (q : Int) : Prop := N * 2 ^ (-q).toNat = m * 2 ^ q.toNat

/-- A whole number is zero just when its significand is. -/
theorem IsScaled.eq_zero_iff {N m : Nat} {q : Int} (h : IsScaled N m q) : N = 0 ↔ m = 0 := by
  have hleft := Nat.two_pow_pos (-q).toNat
  have hright := Nat.two_pow_pos q.toNat
  constructor
  · rintro rfl
    rw [IsScaled, Nat.zero_mul] at h
    exact (Nat.mul_eq_zero.1 h.symm).resolve_right hright.ne'
  · rintro rfl
    rw [IsScaled, Nat.zero_mul] at h
    exact (Nat.mul_eq_zero.1 h).resolve_right hleft.ne'

/-- Divided by a power that its exponent covers, a scaled significand leaves a multiple. -/
theorem scaleQuotient_of_isScaled {N m : Nat} {q : Int} (h : IsScaled N m q) (k : Nat) :
    scaleQuotient N 1 (q - k) = (m * 2 ^ k * 2 ^ (q - k).toNat, 2 ^ (q - k).toNat) := by
  unfold scaleQuotient
  simp only [Nat.pow_eq, Nat.one_mul]
  congr 1
  -- Both sides are compared after multiplication with the power that makes the exponent whole.
  apply Nat.eq_of_mul_eq_mul_right (Nat.two_pow_pos q.toNat)
  have hexponents : (-(q - k)).toNat + q.toNat = (-q).toNat + (k + (q - k).toNat) := by omega
  calc N * 2 ^ (-(q - k)).toNat * 2 ^ q.toNat
      = N * 2 ^ ((-(q - k)).toNat + q.toNat) := by rw [Nat.pow_add, Nat.mul_assoc]
    _ = N * 2 ^ (-q).toNat * 2 ^ (k + (q - k).toNat) := by
      rw [hexponents, Nat.pow_add, Nat.mul_assoc]
    _ = m * 2 ^ q.toNat * 2 ^ (k + (q - k).toNat) := by rw [h]
    _ = m * 2 ^ k * 2 ^ (q - k).toNat * 2 ^ q.toNat := by ring

/-- The binary length of a whole value with a full significand. -/
theorem log2_of_isScaled {N m : Nat} {q : Int} (h : IsScaled N m q) (hN : N ≠ 0)
    (hlow : 2 ^ 52 ≤ m) (hhigh : m < 2 ^ 53) : (N.log2 : Int) = 52 + q := by
  have hupper : m * 2 ^ q.toNat < 2 ^ (53 + q.toNat) := by
    rw [Nat.pow_add]
    exact Nat.mul_lt_mul_of_pos_right hhigh (Nat.two_pow_pos _)
  have hlower : 2 ^ (52 + q.toNat) ≤ m * 2 ^ q.toNat := by
    rw [Nat.pow_add]
    exact Nat.mul_le_mul_right _ hlow
  have hcovers : (-q).toNat < 53 + q.toNat := by
    apply (Nat.pow_lt_pow_iff_right (a := 2) (by decide)).1
    calc 2 ^ (-q).toNat ≤ N * 2 ^ (-q).toNat := Nat.le_mul_of_pos_left _ (Nat.pos_of_ne_zero hN)
      _ = m * 2 ^ q.toNat := h
      _ < 2 ^ (53 + q.toNat) := hupper
  obtain ⟨t, ht⟩ : ∃ t : Nat, t + (-q).toNat = 52 + q.toNat :=
    ⟨52 + q.toNat - (-q).toNat, by omega⟩
  have hlog : N.log2 = t := by
    refine (Nat.log2_eq_iff hN).2 ⟨?_, ?_⟩
    · apply Nat.le_of_mul_le_mul_right _ (Nat.two_pow_pos (-q).toNat)
      rw [← Nat.pow_add, ht, h]
      exact hlower
    · apply Nat.lt_of_mul_lt_mul_right (a := 2 ^ (-q).toNat)
      rw [← Nat.pow_add, show t + 1 + (-q).toNat = 53 + q.toNat by omega, h]
      exact hupper
  omega

/-- The exponent of a whole value with a full significand is found again. -/
theorem quotientExponent_of_isScaled {N m : Nat} {q : Int} (h : IsScaled N m q) (hN : N ≠ 0)
    (hlow : 2 ^ 52 ≤ m) (hhigh : m < 2 ^ 53) : quotientExponent N 1 = q := by
  have hlog := log2_of_isScaled h hN hlow hhigh
  have hone : Nat.log2 1 = 0 := by decide
  have hleast : max (-1074) ((N.log2 : Int) - (Nat.log2 1 : Nat) - 53) = q - 1 := by omega
  have hscale := scaleQuotient_of_isScaled h 1
  unfold quotientExponent
  simp only [hleast]
  rw [Int.natCast_one] at hscale
  simp only [hscale, Nat.mul_div_cancel _ (Nat.two_pow_pos _), Nat.pow_eq]
  rw [if_pos (by omega)]
  omega

/-- A whole value with a full significand and an exponent in range is rounded to the number with that
significand and exponent. -/
theorem ofQuotient_of_isScaled {N m : Nat} {q : Int} (h : IsScaled N m q) (hN : N ≠ 0)
    (hlow : 2 ^ 52 ≤ m) (hhigh : m < 2 ^ 53) (hfinite : q ≤ 971) :
    ofQuotient N 1 = ⟨((q + 1074).toNat * 2 ^ 52 + m).toUInt64⟩ := by
  have hscale := scaleQuotient_of_isScaled h 0
  rw [Int.natCast_zero, Int.sub_zero, Nat.pow_zero, Nat.mul_one] at hscale
  unfold ofQuotient
  rw [if_neg hN]
  simp only [quotientExponent_of_isScaled h hN hlow hhigh, hscale,
    roundQuotient_mul m (Nat.two_pow_pos _), Nat.pow_eq]
  rw [if_pos (by omega)]

/-! ## The fields of a number -/

/-- The bits of a number without its sign. -/
def magnitudeBits (x : Binary64) : Nat := x.exponentField * 2 ^ 52 + x.fractionField

/-- The exponent has eleven bits. -/
theorem exponentField_lt (x : Binary64) : x.exponentField < 2048 := Nat.mod_lt _ (by decide)

/-- The fraction has fifty-two bits. -/
theorem fractionField_lt (x : Binary64) : x.fractionField < 2 ^ 52 := Nat.mod_lt _ (by decide)

/-- The bits of a number are its sign and its other bits. -/
theorem toNat_bits (x : Binary64) :
    x.bits.toNat = (if x.isNegative then 2 ^ 63 else 0) + x.magnitudeBits := by
  have hlt : x.bits.toNat < 2 ^ 64 := x.bits.toNat_lt
  simp only [magnitudeBits, exponentField, fractionField, isNegative, Nat.pow_eq, decide_eq_true_eq]
  split <;> omega

/-- A sign changes nothing of the absolute value. -/
theorem natAbs_signedInt (negative : Bool) (N : Nat) : (signedInt negative N).natAbs = N := by
  cases negative <;> simp [signedInt]

/-- A sign changes nothing of zero. -/
@[simp] theorem signedInt_zero (negative : Bool) : signedInt negative 0 = 0 := by
  cases negative <;> rfl

/-- A signed number that is not zero is negative just when its sign is. -/
theorem signedInt_neg_iff {negative : Bool} {N : Nat} (hN : N ≠ 0) :
    signedInt negative N < 0 ↔ negative = true := by
  cases negative with
  | false => simp [signedInt]
  | true =>
    simp only [signedInt, if_true, iff_true]
    omega

/-- A finite number is whole when its significand is, scaled by its exponent. -/
theorem isScaled_of_reading {x : Binary64} {n : Int} (hx : x.whole? = some n) :
    ∃ negative m q N, x.reading = .finite negative m q ∧ IsScaled N m q ∧ n = signedInt negative N := by
  unfold whole? at hx
  split at hx
  · rename_i negative m q hreading
    refine ⟨negative, m, q, ?_⟩
    simp only [Nat.pow_eq] at hx
    split at hx
    · rename_i hq
      refine ⟨m * 2 ^ q.toNat, hreading, ?_, (Option.some.inj hx).symm⟩
      rw [IsScaled, show (-q).toNat = 0 by omega, Nat.pow_zero, Nat.mul_one]
    · split at hx
      · rename_i hq hdivides
        refine ⟨m / 2 ^ (-q).toNat, hreading, ?_, (Option.some.inj hx).symm⟩
        rw [IsScaled, show q.toNat = 0 by omega, Nat.pow_zero, Nat.mul_one]
        exact Nat.div_mul_cancel (Nat.dvd_of_mod_eq_zero hdivides)
      · cases hx
  · cases hx

/-- What the value of a whole number that is not zero says of its fields. -/
theorem isScaled_of_whole {x : Binary64} {n : Int} (hx : x.whole? = some n) (hn : n ≠ 0) :
    IsScaled n.natAbs (x.fractionField + 2 ^ 52) (x.exponentField - 1075) ∧
      x.exponentField ≠ 0 ∧ x.exponentField ≠ 2047 ∧ (n < 0 ↔ x.isNegative = true) := by
  obtain ⟨negative, m, q, N, hreading, hscaled, rfl⟩ := isScaled_of_reading hx
  rw [natAbs_signedInt]
  have hN : N ≠ 0 := by
    rintro rfl
    exact hn (signedInt_zero negative)
  rw [signedInt_neg_iff hN]
  unfold reading at hreading
  split at hreading
  · split at hreading <;> cases hreading
  · rename_i hfinite
    split at hreading
    · -- A subnormal number is smaller than one.
      obtain ⟨rfl, rfl, rfl⟩ := Reading.finite.inj hreading
      have hlarge : 2 ^ 52 ≤ x.fractionField := by
        calc 2 ^ 52 ≤ 2 ^ (-(-1074 : Int)).toNat := Nat.pow_le_pow_right (by decide) (by decide)
          _ ≤ N * 2 ^ (-(-1074 : Int)).toNat := Nat.le_mul_of_pos_left _ (Nat.pos_of_ne_zero hN)
          _ = x.fractionField * 2 ^ (-1074 : Int).toNat := hscaled
          _ = x.fractionField := Nat.mul_one _
      exact absurd x.fractionField_lt (Nat.not_lt.2 hlarge)
    · rename_i hnormal
      obtain ⟨rfl, rfl, rfl⟩ := Reading.finite.inj hreading
      exact ⟨hscaled, hnormal, hfinite, Iff.rfl⟩

/-- The value of a whole number that is not zero is rounded to the bits of the number. -/
theorem ofQuotient_whole {x : Binary64} {n : Int} (hx : x.whole? = some n) (hn : n ≠ 0) :
    ofQuotient n.natAbs 1 = ⟨x.magnitudeBits.toUInt64⟩ := by
  obtain ⟨hscaled, hnormal, hfinite, -⟩ := isScaled_of_whole hx hn
  have hfield := x.exponentField_lt
  have hfraction := x.fractionField_lt
  have hbits : (x.exponentField - 1075 + 1074 : Int).toNat * 2 ^ 52 + (x.fractionField + 2 ^ 52) =
      x.magnitudeBits := by
    unfold magnitudeBits
    omega
  rw [ofQuotient_of_isScaled hscaled (Int.natAbs_ne_zero.2 hn) (by omega) (by omega) (by omega), hbits]

/-! ## Equality -/

/-- The bits without the sign are below the sign bit. -/
theorem magnitudeBits_lt (x : Binary64) : x.magnitudeBits < 2 ^ 63 := by
  have hfield := x.exponentField_lt
  have hfraction := x.fractionField_lt
  unfold magnitudeBits
  omega

/-- Two numbers with the same sign and the same other bits are one number. -/
theorem eq_of_fields {x y : Binary64} (hsign : x.isNegative = y.isNegative)
    (hmagnitude : x.magnitudeBits = y.magnitudeBits) : x = y := by
  have hbits : x.bits.toNat = y.bits.toNat := by rw [toNat_bits, toNat_bits, hsign, hmagnitude]
  cases x
  cases y
  exact congrArg mk (UInt64.toNat_inj.1 hbits)

/-- A value that is not zero is that of one number. -/
theorem eq_of_whole {x y : Binary64} {n : Int} (hx : x.whole? = some n) (hy : y.whole? = some n)
    (hn : n ≠ 0) : x = y := by
  obtain ⟨-, -, -, hsign⟩ := isScaled_of_whole hx hn
  obtain ⟨-, -, -, hsign'⟩ := isScaled_of_whole hy hn
  apply eq_of_fields (Bool.eq_iff_iff.2 (hsign.symm.trans hsign'))
  have hbits := congrArg (fun z => z.bits.toNat) ((ofQuotient_whole hx hn).symm.trans
    (ofQuotient_whole hy hn))
  have hxlt := x.magnitudeBits_lt
  have hylt := y.magnitudeBits_lt
  simp only [Nat.toUInt64_eq, UInt64.toNat_ofNat'] at hbits
  omega

/-- Finite numbers are equal when both are zero or when they are the same. -/
theorem equals_of_finite {x y : Binary64} {s s' : Bool} {m m' : Nat} {q q' : Int}
    (hx : x.reading = .finite s m q) (hy : y.reading = .finite s' m' q') :
    x.equals y = (decide (m = 0 ∧ m' = 0) || x == y) := by
  unfold equals
  rw [hx, hy]
  cases m with
  | zero => cases m' <;> simp
  | succ m => simp

/-- Whole numbers are equal when their values are. -/
theorem equals_iff_of_whole {x y : Binary64} {n k : Int} (hx : x.whole? = some n)
    (hy : y.whole? = some k) : x.equals y = true ↔ n = k := by
  obtain ⟨negative, m, q, N, hreading, hscaled, hvalue⟩ := isScaled_of_reading hx
  obtain ⟨negative', m', q', N', hreading', hscaled', hvalue'⟩ := isScaled_of_reading hy
  have hsignificand : m = 0 ↔ n = 0 := by
    rw [← hscaled.eq_zero_iff, ← Int.natAbs_eq_zero, hvalue, natAbs_signedInt]
  have hsignificand' : m' = 0 ↔ k = 0 := by
    rw [← hscaled'.eq_zero_iff, ← Int.natAbs_eq_zero, hvalue', natAbs_signedInt]
  rw [equals_of_finite hreading hreading', Bool.or_eq_true, beq_iff_eq, decide_eq_true_eq,
    hsignificand, hsignificand']
  constructor
  · rintro (⟨rfl, rfl⟩ | rfl)
    · rfl
    · exact Option.some.inj (hx.symm.trans hy)
  · rintro rfl
    by_cases hn : n = 0
    · exact .inl ⟨hn, hn⟩
    · exact .inr (eq_of_whole hx hy hn)

/-! ## Numerals -/

/-- The number that is read for a whole number written in decimal: the nearest one to its magnitude,
negated if a minus comes before. -/
def ofWhole (n : Int) : Binary64 :=
  if n < 0 then (ofDecimal n.natAbs 0).negate else ofDecimal n.natAbs 0

/-- The number nearest to a whole one is the nearest to it as a quotient. -/
theorem ofDecimal_natAbs {n : Nat} (hn : n ≠ 0) : ofDecimal n 0 = ofQuotient n 1 := by
  simp [ofDecimal, hn]

/-- Setting a bit above all others adds its value. -/
theorem xor_two_pow {n k : Nat} (h : n < 2 ^ k) : n ^^^ 2 ^ k = 2 ^ k + n := by
  have hor := Nat.two_pow_add_eq_or_of_lt h 1
  rw [Nat.mul_one] at hor
  rw [hor]
  apply Nat.eq_of_testBit_eq
  intro i
  rw [Nat.testBit_xor, Nat.testBit_or, Nat.testBit_two_pow]
  by_cases hi : k = i
  · subst hi
    simp [Nat.testBit_lt_two_pow h]
  · simp [hi]

/-- A number without its sign, negated, is the number if that is negative. -/
theorem negate_magnitude {x : Binary64} (hx : x.isNegative = true) :
    negate ⟨x.magnitudeBits.toUInt64⟩ = x := by
  have hlt := x.magnitudeBits_lt
  have hmagnitude : x.magnitudeBits.toUInt64.toNat = x.magnitudeBits := by
    rw [Nat.toUInt64_eq, UInt64.toNat_ofNat']
    omega
  have hsign : (0x8000000000000000 : UInt64).toNat = 2 ^ 63 := by decide
  have hbits := x.toNat_bits
  rw [if_pos hx, ← xor_two_pow hlt, ← hmagnitude, ← hsign, ← UInt64.toNat_xor] at hbits
  cases x
  exact congrArg mk (UInt64.toNat_inj.1 hbits.symm)

/-- The number read for the value of a whole number has that value. -/
theorem whole?_ofWhole {x : Binary64} {n : Int} (hx : x.whole? = some n) :
    (ofWhole n).whole? = some n := by
  by_cases hn : n = 0
  · subst hn
    decide +kernel
  · obtain ⟨-, -, -, hsign⟩ := isScaled_of_whole hx hn
    rw [ofWhole, ofDecimal_natAbs (Int.natAbs_ne_zero.2 hn), ofQuotient_whole hx hn]
    split
    · rename_i hnegative
      rw [negate_magnitude (hsign.1 hnegative)]
      exact hx
    · rename_i hpositive
      have hbits := x.toNat_bits
      rw [if_neg (mt hsign.2 hpositive), Nat.zero_add] at hbits
      rw [← hbits, Nat.toUInt64_eq, UInt64.ofNat_toNat]
      exact hx

end ModuleLoader.Binary64
