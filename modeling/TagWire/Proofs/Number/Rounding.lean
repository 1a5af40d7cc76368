import Mathlib.Algebra.Order.Field.Power
import Mathlib.Data.Rat.Cast.Order
import Mathlib.Tactic.FieldSimp
import Mathlib.Tactic.Positivity
import Mathlib.Tactic.Ring
import TagWire.Number.Binary

/-!
# Rounding

A number that a format can represent is rounded to itself. A scaled number is `Scaled.Normal` in a
format if its significand has all the bits that the format allows, or its exponent is the least;
such numbers are the same as magnitudes (`Format.magnitude_decode`, `Format.decode_magnitude`), and
rounding finds them from any quotient of their value (`Format.round_eq`). The format of 64 bits
represents whatever the format of 32 bits does, so widening a float is exact and narrowing it again
gives its bits back (`Binary32.narrow_widen`).
-/

namespace TagWire.Number

/-! ## Scaled numbers -/

namespace Scaled

/-- The number that a significand and an exponent stand for. -/
def value (s : Scaled) : ℚ := s.significand * 2 ^ s.exponent

/-- Whether a significand has all the bits that a format allows, if the exponent is not the least
one. -/
structure Normal (f : Format) (s : Scaled) : Prop where
  least : f.leastExponent ≤ s.exponent
  fits : s.significand < 2 ^ (f.fractionBits + 1)
  full : 2 ^ f.fractionBits ≤ s.significand ∨ s.exponent = f.leastExponent

/-- The quotient is the number. -/
theorem quotient_spec (s : Scaled) :
    0 < s.quotient.2 ∧ (s.quotient.1 : ℚ) / s.quotient.2 = s.value := by
  unfold quotient value
  split
  next h =>
    obtain ⟨n, hn⟩ := Int.eq_ofNat_of_zero_le h
    simp [hn]
  next h =>
    obtain ⟨n, hn⟩ := Int.eq_ofNat_of_zero_le (show 0 ≤ -s.exponent by omega)
    have hs : s.exponent = -n := by omega
    simp [hs, div_eq_mul_inv]

end Scaled

/-! ## Magnitudes -/

namespace Format

variable (f : Format)

/-- The magnitude of a normal number. -/
def magnitude (s : Scaled) : Nat :=
  (s.exponent - f.leastExponent).toNat * 2 ^ f.fractionBits + s.significand

/-- A magnitude stands for a normal number. -/
theorem normal_decode (m : Nat) : (f.decode m).Normal f := by
  have hmod : m % 2 ^ f.fractionBits < 2 ^ f.fractionBits := Nat.mod_lt _ (by positivity)
  have hpow := Nat.pow_succ 2 f.fractionBits
  unfold decode
  simp only [Nat.pow_eq]
  split
  next => exact ⟨le_refl _, by simp only; omega, .inr rfl⟩
  next e _ => exact ⟨by simp only; omega, by simp only; omega, .inl (by simp only; omega)⟩

/-- A magnitude is that of the number it stands for. -/
theorem magnitude_decode (m : Nat) : f.magnitude (f.decode m) = m := by
  have hdiv := Nat.div_add_mod m (2 ^ f.fractionBits)
  unfold magnitude decode
  simp only [Nat.pow_eq]
  split
  next h =>
    rw [h] at hdiv
    simpa using hdiv
  next e h =>
    rw [h] at hdiv
    have he : (f.leastExponent + e - f.leastExponent).toNat = e := by omega
    rw [he, ← Nat.add_assoc, ← Nat.succ_mul, Nat.mul_comm]
    exact hdiv

/-- A normal number is what its magnitude stands for. -/
theorem decode_magnitude {s : Scaled} (h : s.Normal f) : f.decode (f.magnitude s) = s := by
  obtain ⟨significand, exponent⟩ := s
  obtain ⟨hleast, hfits, hfull⟩ := h
  simp only at hleast hfits hfull
  have hpos : 0 < 2 ^ f.fractionBits := by positivity
  have hpow := Nat.pow_succ 2 f.fractionBits
  unfold magnitude decode
  simp only [Nat.pow_eq]
  by_cases hlow : significand < 2 ^ f.fractionBits
  · have he : exponent = f.leastExponent := hfull.resolve_left (by omega)
    subst he
    simp [Nat.div_eq_of_lt hlow, Nat.mod_eq_of_lt hlow]
  · obtain ⟨k, hk⟩ := Int.le.dest hleast
    obtain ⟨fraction, rfl⟩ := Nat.exists_eq_add_of_le (Nat.le_of_not_lt hlow)
    have hfraction : fraction < 2 ^ f.fractionBits := by omega
    have he : (exponent - f.leastExponent).toNat = k := by omega
    have hm : k * 2 ^ f.fractionBits + (2 ^ f.fractionBits + fraction) =
        fraction + 2 ^ f.fractionBits * (k + 1) := by ring
    have hdiv : (fraction + 2 ^ f.fractionBits * (k + 1)) / 2 ^ f.fractionBits = k + 1 := by
      rw [Nat.add_mul_div_left _ _ hpos, Nat.div_eq_of_lt hfraction, Nat.zero_add]
    have hmod : (fraction + 2 ^ f.fractionBits * (k + 1)) % 2 ^ f.fractionBits = fraction := by
      rw [Nat.add_mul_mod_self_left, Nat.mod_eq_of_lt hfraction]
    simp only [he, hm, hdiv, hmod, hk]

end Format

/-! ## Rounding -/

/-- A power of two is at most a quotient if it is so without a fraction. -/
theorem two_zpow_le_div_iff (num : Nat) {den : Nat} (hden : 0 < den) (e : Int) :
    (2 : ℚ) ^ e ≤ num / den ↔
      if 0 ≤ e then den * 2 ^ e.toNat ≤ num else den ≤ num * 2 ^ (-e).toNat := by
  have hden' : (0 : ℚ) < den := by exact_mod_cast hden
  rw [le_div_iff₀ hden']
  split
  next h =>
    obtain ⟨n, rfl⟩ := Int.eq_ofNat_of_zero_le h
    rw [zpow_natCast, Int.toNat_natCast, mul_comm]
    exact_mod_cast Iff.rfl
  next h =>
    obtain ⟨n, hn⟩ := Int.eq_ofNat_of_zero_le (show 0 ≤ -e by omega)
    obtain rfl : e = -n := by omega
    rw [zpow_neg, zpow_natCast, Int.neg_neg, Int.toNat_natCast, inv_mul_le_iff₀ (by positivity),
      mul_comm]
    exact_mod_cast Iff.rfl

/-- The binary exponent of a quotient is the place of its first bit. -/
theorem binaryExponent_spec {num den : Nat} (hnum : 0 < num) (hden : 0 < den) :
    (2 : ℚ) ^ binaryExponent num den ≤ num / den ∧
      (num / den : ℚ) < 2 ^ (binaryExponent num den + 1) := by
  have hden' : (0 : ℚ) < den := by exact_mod_cast hden
  have hnum_le : ((2 ^ num.log2 : Nat) : ℚ) ≤ num := by
    exact_mod_cast Nat.log2_self_le (by omega)
  have hnum_lt : (num : ℚ) < (2 ^ (num.log2 + 1) : Nat) := by exact_mod_cast Nat.lt_log2_self
  have hden_le : ((2 ^ den.log2 : Nat) : ℚ) ≤ den := by
    exact_mod_cast Nat.log2_self_le (by omega)
  have hden_lt : (den : ℚ) < (2 ^ (den.log2 + 1) : Nat) := by exact_mod_cast Nat.lt_log2_self
  push_cast at hnum_le hnum_lt hden_le hden_lt
  have hlow : (2 : ℚ) ^ ((num.log2 : Int) - den.log2 - 1) ≤ num / den := by
    rw [le_div_iff₀ hden']
    calc (2 : ℚ) ^ ((num.log2 : Int) - den.log2 - 1) * den
        ≤ 2 ^ ((num.log2 : Int) - den.log2 - 1) * 2 ^ (den.log2 + 1) := by gcongr
      _ = 2 ^ num.log2 := by
          rw [← zpow_natCast, ← zpow_natCast, ← zpow_add₀ two_ne_zero]
          congr 1
          push_cast
          ring
      _ ≤ num := hnum_le
  have hhigh : (num / den : ℚ) < 2 ^ ((num.log2 : Int) - den.log2 + 1) := by
    rw [div_lt_iff₀ hden']
    calc (num : ℚ) < 2 ^ (num.log2 + 1) := hnum_lt
      _ = 2 ^ ((num.log2 : Int) - den.log2 + 1) * 2 ^ den.log2 := by
          rw [← zpow_natCast, ← zpow_natCast, ← zpow_add₀ two_ne_zero]
          congr 1
          push_cast
          ring
      _ ≤ 2 ^ ((num.log2 : Int) - den.log2 + 1) * den := by gcongr
  have hreached := two_zpow_le_div_iff num hden ((num.log2 : Int) - den.log2)
  unfold binaryExponent
  simp only [Nat.pow_eq]
  by_cases h : (2 : ℚ) ^ ((num.log2 : Int) - den.log2) ≤ num / den
  · rw [if_pos (hreached.1 h)]
    exact ⟨h, hhigh⟩
  · rw [if_neg (mt hreached.2 h), Int.sub_add_cancel]
    exact ⟨hlow, not_le.1 h⟩

/-- A multiple is divided exactly. -/
theorem divideToEven_mul (s : Nat) {d : Nat} (hd : 0 < d) : divideToEven (s * d) d = s := by
  unfold divideToEven
  simp only [Nat.mul_div_cancel _ hd, Nat.mul_mod_left]
  have hd' : d ≠ 0 := by omega
  simp [hd'.symm]

/-- The binary exponent of a normal number, held against the least exponent of the format, is its
exponent. -/
theorem max_binaryExponent {f : Format} {s : Scaled} (h : s.Normal f) {num den : Nat}
    (hnum : 0 < num) (hden : 0 < den) (hvalue : (num : ℚ) / den = s.value) :
    max (binaryExponent num den - f.fractionBits) f.leastExponent = s.exponent := by
  obtain ⟨hlow, hhigh⟩ := binaryExponent_spec hnum hden
  rw [hvalue, Scaled.value] at hlow hhigh
  have hbelow : binaryExponent num den < f.fractionBits + 1 + s.exponent := by
    refine (zpow_lt_zpow_iff_right₀ (one_lt_two (α := ℚ))).1 (lt_of_le_of_lt hlow ?_)
    rw [zpow_add₀ two_ne_zero]
    gcongr
    have := h.fits
    exact_mod_cast this
  rcases h.full with hfull | hleast
  · have habove : f.fractionBits + s.exponent < binaryExponent num den + 1 := by
      refine (zpow_lt_zpow_iff_right₀ (one_lt_two (α := ℚ))).1 (lt_of_le_of_lt ?_ hhigh)
      rw [zpow_add₀ two_ne_zero]
      gcongr
      exact_mod_cast hfull
    have := h.least
    omega
  · omega

/-- A quotient that has the value of a normal number is rounded to it. -/
theorem Format.round_eq {f : Format} {s : Scaled} (h : s.Normal f) {num den : Nat}
    (hnum : 0 < num) (hden : 0 < den) (hvalue : (num : ℚ) / den = s.value) :
    f.round num den = min (f.magnitude s) f.infinity := by
  have hden' : (den : ℚ) ≠ 0 := by exact_mod_cast hden.ne'
  have hnum' : num ≠ 0 := by omega
  unfold round magnitude
  simp only [beq_iff_eq, hnum', if_false, max_binaryExponent h hnum hden hvalue, Nat.pow_eq]
  rw [div_eq_iff hden', Scaled.value] at hvalue
  congr 2
  split
  next he =>
    obtain ⟨n, hn⟩ := Int.eq_ofNat_of_zero_le he
    have hexact : num = s.significand * (den * 2 ^ n) := by
      rw [hn, zpow_natCast] at hvalue
      have : (num : ℚ) = s.significand * (den * 2 ^ n) := by rw [hvalue]; ring
      exact_mod_cast this
    rw [hn, Int.toNat_natCast, hexact, divideToEven_mul _ (by positivity)]
  next he =>
    obtain ⟨n, hn⟩ := Int.eq_ofNat_of_zero_le (show 0 ≤ -s.exponent by omega)
    have hexact : num * 2 ^ n = s.significand * den := by
      rw [show s.exponent = -n by omega, zpow_neg, zpow_natCast] at hvalue
      have : (num : ℚ) * 2 ^ n = s.significand * den := by rw [hvalue]; field_simp
      exact_mod_cast this
    rw [hn, Int.toNat_natCast, hexact, divideToEven_mul _ hden]

/-! ## Widening and narrowing -/

namespace Scaled

/-- The same number with more bits in its significand. -/
def shift (s : Scaled) (k : Nat) : Scaled := ⟨s.significand * 2 ^ k, s.exponent - k⟩

/-- Shifting keeps the number. -/
theorem value_shift (s : Scaled) (k : Nat) : (s.shift k).value = s.value := by
  unfold value shift
  rw [zpow_sub₀ two_ne_zero, zpow_natCast]
  push_cast
  field_simp

/-- A positive number has a positive significand, and so has its quotient. -/
theorem quotient_pos {s : Scaled} (h : 0 < s.significand) : 0 < s.quotient.1 := by
  unfold quotient
  simp only [Nat.pow_eq]
  split <;> positivity

/-- A positive number of the format of 32 bits is one of the format of 64 bits. -/
theorem normal_shift {s : Scaled} (h : s.Normal Format.single) (hpos : 0 < s.significand)
    (hfinite : Format.single.magnitude s < Format.single.infinity) :
    (s.shift (52 - s.significand.log2)).Normal Format.double ∧
      Format.double.magnitude (s.shift (52 - s.significand.log2)) < Format.double.infinity := by
  have hsingle : Format.single.leastExponent = -149 := rfl
  have hdouble : Format.double.leastExponent = -1074 := rfl
  have hleast := h.least
  have hlog : s.significand.log2 < 24 := (Nat.log2_lt (by omega)).2 h.fits
  have hlow : 2 ^ 52 ≤ s.significand * 2 ^ (52 - s.significand.log2) := by
    calc 2 ^ 52 = 2 ^ s.significand.log2 * 2 ^ (52 - s.significand.log2) := by
          rw [← Nat.pow_add]
          congr 1
          omega
      _ ≤ s.significand * 2 ^ (52 - s.significand.log2) :=
          Nat.mul_le_mul_right _ (Nat.log2_self_le (by omega))
  have hhigh : s.significand * 2 ^ (52 - s.significand.log2) < 2 ^ 53 := by
    calc s.significand * 2 ^ (52 - s.significand.log2)
        < 2 ^ (s.significand.log2 + 1) * 2 ^ (52 - s.significand.log2) :=
          Nat.mul_lt_mul_of_pos_right Nat.lt_log2_self (by positivity)
      _ = 2 ^ 53 := by
          rw [← Nat.pow_add]
          congr 1
          omega
  refine ⟨⟨?_, hhigh, .inl hlow⟩, ?_⟩
  · rw [hdouble]
    simp only [shift]
    omega
  · have hexponent : s.exponent < 106 := by
      have hinf : Format.single.infinity = 255 * 2 ^ 23 := rfl
      rw [hinf, Format.magnitude, hsingle] at hfinite
      simp only [Format.single] at hfinite
      omega
    have hinf : Format.double.infinity = 2047 * 2 ^ 52 := rfl
    rw [hinf, Format.magnitude, hdouble]
    simp only [shift, Format.double]
    omega

end Scaled

/-- The magnitude of another format nearest to a finite magnitude. -/
def Format.convert (f g : Format) (m : Nat) : Nat :=
  g.round (f.decode m).quotient.1 (f.decode m).quotient.2

/-- A finite magnitude of 32 bits becomes a finite one of 64 bits, and that becomes it again. -/
theorem Format.convert_convert {m : Nat} (hm : m < single.infinity) :
    single.convert double m < double.infinity ∧
      double.convert single (single.convert double m) = m := by
  have hnormal := single.normal_decode m
  have hmagnitude := single.magnitude_decode m
  unfold convert
  generalize single.decode m = s at hnormal hmagnitude ⊢
  subst hmagnitude
  rcases Nat.eq_zero_or_pos s.significand with hzero | hpos
  · obtain ⟨significand, exponent⟩ := s
    cases hzero
    cases hnormal.full.resolve_left (by simp)
    exact ⟨by decide, by decide⟩
  · obtain ⟨hwide, hfinite⟩ := Scaled.normal_shift hnormal hpos hm
    obtain ⟨hden, hvalue⟩ := s.quotient_spec
    have hvalue := hvalue.trans (s.value_shift (52 - s.significand.log2)).symm
    have hround := round_eq hwide (Scaled.quotient_pos hpos) hden hvalue
    rw [hround, min_eq_left hfinite.le, decode_magnitude _ hwide]
    refine ⟨hfinite, ?_⟩
    have hpos' : 0 < (s.shift (52 - s.significand.log2)).significand :=
      Nat.mul_pos hpos (by positivity)
    obtain ⟨hden, hvalue⟩ := (s.shift (52 - s.significand.log2)).quotient_spec
    have hvalue := hvalue.trans (s.value_shift _)
    have hround := round_eq hnormal (Scaled.quotient_pos hpos') hden hvalue
    rw [hround, min_eq_left hm.le]

/-- A float of 64 bits has the magnitude and the sign that it was made of. -/
theorem Binary64.ofMagnitude_spec (negative : Bool) {m : Nat} (hm : m < Format.double.signWeight) :
    (ofMagnitude negative m).magnitude = m ∧ (ofMagnitude negative m).isNegative = negative := by
  have hweight : Format.double.signWeight = 2 ^ 63 := rfl
  unfold magnitude isNegative ofMagnitude
  rw [hweight] at hm ⊢
  cases negative <;> simp [UInt64.toNat_ofNat'] <;> omega

/-- A float of 32 bits is its sign and its magnitude. -/
theorem Binary32.toNat_bits (x : Binary32) :
    (if x.isNegative then Format.single.signWeight + x.magnitude else x.magnitude) =
      x.bits.toNat := by
  have hweight : Format.single.signWeight = 2 ^ 31 := rfl
  have hlt := x.bits.toNat_lt
  unfold magnitude isNegative
  rw [hweight]
  split
  next h =>
    have := of_decide_eq_true h
    omega
  next h =>
    have := of_decide_eq_false (Bool.eq_false_iff.2 h)
    omega

section
variable {x : Binary32} (hx : x.magnitude < Format.single.infinity)
include hx

/-- A finite float of 32 bits is widened by its magnitude. -/
theorem Binary32.widen_of_finite :
    x.widen = .ofMagnitude x.isNegative (Format.single.convert .double x.magnitude) := by
  unfold widen
  simp only [hx, if_true]
  rfl

/-- A finite float of 32 bits is widened to one of the same sign and a finite magnitude. -/
theorem Binary32.widen_spec :
    x.widen.magnitude = Format.single.convert .double x.magnitude ∧
      x.widen.isNegative = x.isNegative := by
  have hfinite := (Format.convert_convert hx).1
  have hweight : Format.double.infinity < Format.double.signWeight := by decide
  rw [widen_of_finite hx]
  exact Binary64.ofMagnitude_spec x.isNegative (hfinite.trans hweight)

/-- A finite float of 32 bits is widened to a finite one. -/
theorem Binary32.isFinite_widen : x.widen.isFinite = true := by
  rw [Binary64.isFinite, (widen_spec hx).1]
  exact decide_eq_true (Format.convert_convert hx).1

/-- A finite float of 32 bits comes back from 64 bits as it was. -/
theorem Binary32.narrow_widen : x.widen.narrow = x := by
  obtain ⟨hmagnitude, hnegative⟩ := widen_spec hx
  obtain ⟨hfinite, hback⟩ := Format.convert_convert hx
  have hnarrow : x.widen.narrow = ⟨UInt32.ofNat (if x.isNegative then
      Format.single.signWeight + Format.double.convert .single (Format.single.convert .double
        x.magnitude) else Format.double.convert .single (Format.single.convert .double
        x.magnitude))⟩ := by
    unfold Binary64.narrow
    rw [hmagnitude, hnegative]
    simp only [hfinite, if_true]
    rfl
  rw [hnarrow, hback, x.toNat_bits, UInt32.ofNat_toNat]

end

end TagWire.Number
