import Mathlib

/-!
# Whole numbers are finite

A whole number of sixty-four bits reads as a finite float. What rounding yields is bounded by its
exponent alone: as long as that stays well below the largest, nothing overflows on the way through
the bits.
-/

namespace RiskTypology.Decimal

open Float.Model Float.Model.UnpackedFloat

/-- A float that is zero or has at most a certain exponent. -/
inductive Below (k : Int) : UnpackedFloat → Prop
  | zero (s : Sign) : Below k (.zero s)
  | finite (s : Sign) (m : Nat) {e : Int} (hm : 0 < m) (he : e ≤ k) : Below k (.finite s m e hm)

/-- A float that is zero or has at most a certain exponent and no more than fifty-three digits. -/
inductive Fits (k : Int) : UnpackedFloat → Prop
  | zero (s : Sign) : Fits k (.zero s)
  | finite (s : Sign) {m : Nat} {e : Int} (hm : 0 < m) (hd : m < 2 ^ 53) (he : e ≤ k) :
    Fits k (.finite s m e hm)

/-- A float that fits is finite. -/
theorem Fits.isFinite {k : Int} {f : UnpackedFloat} (h : Fits k f) : f.isFinite = true := by
  cases h <;> rfl

/-- A float that fits has at most its exponent. -/
theorem Fits.below {k : Int} {f : UnpackedFloat} (h : Fits k f) : Below k f := by
  cases h with
  | zero s => exact .zero s
  | finite s hm hd he => exact .finite s _ hm he

/-- A larger bound holds too. -/
theorem Below.mono {j k : Int} {f : UnpackedFloat} (h : Below j f) (hjk : j ≤ k) : Below k f := by
  cases h with
  | zero s => exact .zero s
  | finite s m hm he => exact .finite s m hm (he.trans hjk)

/-- Changing the sign keeps the exponent. -/
theorem Below.neg {k : Int} {f : UnpackedFloat} (h : Below k f) : Below k f.neg := by
  cases h with
  | zero s => exact .zero _
  | finite s m hm he => exact .finite _ m hm he

/-- Bits that encode neither an infinity nor no number unpack to a float that fits. -/
theorem fits_unpack {b : BitVec Format.binary64.numBits} {k : Int}
    (h : unpackExponent b ≠ (-1#_ : BitVec Format.binary64.exponentBits))
    (hk : ((unpackExponent b).toNat : Int) - 1075 ≤ k) (hmin : -1074 ≤ k) :
    Fits k (UnpackedFloat.unpack Format.binary64 b) := by
  have hm := (unpackMantissa b).isLt
  unfold UnpackedFloat.unpack
  simp only [if_neg h]
  split
  · split
    · exact .zero _
    · next h0 _ =>
      refine .finite _ _ (by simp at hm; omega) ?_
      rw [h0]
      simpa [Format.exponentBias] using hmin
  · refine .finite _ _ (1#1 ++ unpackMantissa b).isLt ?_
    simpa [Format.exponentBias] using hk

private theorem fits_unpack_packComponents {k : Int} {s : Sign} {x : BitVec 11} {m : BitVec 52}
    (hx : x.toNat < 2047) (hk : (x.toNat : Int) - 1075 ≤ k) (hmin : -1074 ≤ k) :
    Fits k (UnpackedFloat.unpack Format.binary64 (packComponents Format.binary64 s x m)) := by
  apply fits_unpack _ _ hmin
  · rw [unpackExponent_packComponents]
    intro hones
    rw [hones] at hx
    exact absurd hx (by decide)
  · rwa [unpackExponent_packComponents]

/-- A float with an exponent that is not too large fits once it has gone through bits. -/
theorem Below.fits_pack {k : Int} {f : UnpackedFloat} (h : Below k f) (hmin : -1074 ≤ k)
    (hmax : k ≤ 971) : Fits k (Float.Model.pack f).unpack := by
  change Fits k (UnpackedFloat.unpack Format.binary64 (UnpackedFloat.pack Format.binary64 f))
  cases h with
  | zero s =>
    rw [UnpackedFloat.pack]
    exact fits_unpack_packComponents (by decide) (by simp; omega) hmin
  | @finite s m e hm he =>
    have hbias : e + (Format.binary64.exponentBias : Int) + (52 : Nat) = e + 1075 := by
      simp [Format.exponentBias]
      omega
    simp only [UnpackedFloat.pack, hbias]
    rw [if_neg (by simp; omega)]
    split
    · have hx : (BitVec.ofNat 11 (e + 1075).toNat).toNat = (e + 1075).toNat := by
        rw [BitVec.toNat_ofNat, Nat.mod_eq_of_lt (by omega)]
      exact fits_unpack_packComponents (by omega) (by omega) hmin
    · exact fits_unpack_packComponents (by decide) (by simp; omega) hmin

private theorem log2_le_of_le {m a : Nat} (h : m ≤ 2 ^ a) : m.log2 ≤ a := by
  by_cases hm : m = 0
  · simp [hm]
  · have hlt : m < 2 ^ (a + 1) := by
      rw [Nat.pow_succ]
      omega
    exact Nat.le_of_lt_succ ((Nat.log2_lt hm).mpr hlt)

private theorem mantissa_shiftRight_le (em : ExtendedMantissa) (n : Nat) :
    (em >>> n).mantissa ≤ em.mantissa := by
  induction n with
  | zero => exact Nat.le_refl _
  | succ n ih => exact (Nat.div_le_self _ 2).trans ih

private theorem roundedMantissa_le (em : ExtendedMantissa) :
    em.roundedMantissa ≤ em.mantissa + 1 := by
  obtain ⟨m, roundBit, stickyBit⟩ := em
  cases roundBit <;> cases stickyBit <;>
    simp [ExtendedMantissa.roundedMantissa, ExtendedMantissa.accuracy, Accuracy.roundToNearestEven]
  omega

private theorem mantissa_ofMantissaAndAccuracy (m : Nat) (acc : Accuracy) :
    (ExtendedMantissa.ofMantissaAndAccuracy m acc).mantissa = m := by
  unfold ExtendedMantissa.ofMantissaAndAccuracy
  split <;> rfl

private theorem targetExponent_eq (m : Nat) (e : Int) :
    Format.binary64.targetExponent (totalExponent m e) = max (m.log2 + e - 52) (-1074) := by
  simp only [Format.targetExponent, totalExponent, Format.mantissaBits, Format.minExponent]
  norm_num
  omega

/-- Shifting to the exponent the format wants lengthens no mantissa and raises the exponent by no
more than the mantissa has digits. -/
private theorem shiftToTargetExponent_le {m a : Nat} {e k : Int} (acc : Accuracy)
    (hm : m ≤ 2 ^ a) (he : e ≤ k) (hk : -1074 ≤ k) :
    (shiftToTargetExponent Format.binary64 m e acc).1.mantissa ≤ m ∧
      (shiftToTargetExponent Format.binary64 m e acc).2 ≤ k + a := by
  have hlog := log2_le_of_le hm
  rw [shiftToTargetExponent, shiftToExponent, targetExponent_eq]
  refine ⟨(mantissa_shiftRight_le _ _).trans_eq (mantissa_ofMantissaAndAccuracy m acc), ?_⟩
  dsimp only
  omega

/-- Rounding raises the exponent by no more than twice the digits of the mantissa. -/
theorem below_roundWithAccuracy {s : Sign} {m a : Nat} {e k : Int} {acc : Accuracy}
    (hm : m < 2 ^ a) (he : e ≤ k) (hk : -1074 ≤ k) :
    Below (k + a + a) (roundWithAccuracy Format.binary64 s m e acc) := by
  obtain ⟨hmantissa, hexponent⟩ := shiftToTargetExponent_le acc hm.le he hk
  rw [roundWithAccuracy]
  cases hshift : shiftToTargetExponent Format.binary64 m e acc with
  | mk em e' =>
    rw [hshift] at hmantissa hexponent
    have hrounded : em.roundedMantissa ≤ 2 ^ a := by
      have hle := roundedMantissa_le em
      dsimp only at hmantissa
      omega
    obtain ⟨-, hfinal⟩ := shiftToTargetExponent_le .exact hrounded hexponent (by omega)
    dsimp only
    split
    · exact .zero s
    · exact .finite s _ _ hfinal

/-- A whole number of sixty-four bits has a small exponent. -/
theorem below_ofNat {n : Nat} (h : n < 2 ^ 64) :
    Below 232 (UnpackedFloat.ofNat Format.binary64 n) := by
  rw [UnpackedFloat.ofNat, UnpackedFloat.ofInt, UnpackedFloat.normalize]
  split
  · next hlt =>
    rw [Int.compare_eq_lt] at hlt
    omega
  · exact .zero _
  · rw [Int.toNat_natCast, UnpackedFloat.round, targetExponent_eq, decreaseExponent]
    dsimp only
    generalize hshift : (0 - max ((n.log2 : Int) + 0 - 52) (-1074)).toNat = shift
    have hle : shift ≤ 52 := by omega
    have hm : n <<< shift < 2 ^ 116 := by
      rw [Nat.shiftLeft_eq]
      calc n * 2 ^ shift ≤ n * 2 ^ 52 :=
            Nat.mul_le_mul_left _ (Nat.pow_le_pow_right (by decide) hle)
        _ < 2 ^ 64 * 2 ^ 52 := Nat.mul_lt_mul_of_pos_right h (by decide)
        _ = 2 ^ 116 := by norm_num
    exact below_roundWithAccuracy hm (k := 0) (by omega) (by decide)

/-- The exponent of a product is bounded by those of its factors. -/
theorem Fits.below_mul {j k : Int} {f g : UnpackedFloat} (hf : Fits j f) (hg : Fits k g)
    (hmin : -1074 ≤ j + k) : Below (j + k + 212) (mul Format.binary64 f g) := by
  cases hf with
  | zero s => cases hg <;> exact .zero _
  | @finite s m e hm hd he =>
    cases hg with
    | zero s' => exact .zero _
    | @finite s' m' e' hm' hd' he' =>
      have hprod : m * m' < 2 ^ 106 := by
        calc m * m' < 2 ^ 53 * 2 ^ 53 := Nat.mul_lt_mul'' hd hd'
          _ = 2 ^ 106 := by norm_num
      exact (below_roundWithAccuracy hprod (add_le_add he he') hmin).mono (by omega)

private theorem fits_one :
    Fits 0 (Float.Model.ofBits 0x3FF0000000000000).unpack := by
  have h : Fits 0 (UnpackedFloat.unpack Format.binary64 (0x3FF0000000000000 : UInt64).toBitVec) :=
    fits_unpack (by decide) (by decide) (by decide)
  exact h.below.fits_pack (by decide) (by decide)

private theorem below_ofScientific {n : Nat} (h : n < 2 ^ 64) :
    Below 234 (UnpackedFloat.ofScientific Format.binary64 n 0) := by
  have hm : n <<< Format.binary64.mantissaBits * 10 ^ (0 : Int).toNat < 2 ^ 117 := by
    rw [Nat.shiftLeft_eq]
    simp only [Format.mantissaBits, Int.toNat_zero, pow_zero, mul_one]
    omega
  have he : -(Format.binary64.mantissaBits : Int) + 0 ≤ 0 := by simp
  rw [UnpackedFloat.ofScientific]
  split
  · exact .zero _
  · rw [if_neg (by decide), if_neg (by simp), if_pos (Int.le_refl 0), UnpackedFloat.mul]
    exact (below_roundWithAccuracy hm he (by decide)).mono (by decide)

private theorem below_toFloat_mul_one (n : UInt64) :
    Below 444 (mul Format.binary64 (Float.Model.ofUInt64 n).unpack
      (Float.Model.ofBits 0x3FF0000000000000).unpack) := by
  have hn : Fits 232 (Float.Model.ofUInt64 n).unpack :=
    (below_ofNat n.toNat_lt).fits_pack (by decide) (by decide)
  exact hn.below_mul fits_one (by decide)

/-- A natural number of sixty-four bits fits. -/
theorem fits_toModel_ofNat {n : Nat} (h : n < 2 ^ 64) :
    Fits 971 (Float.ofNat n).toModel.unpack := by
  change Fits 971 (Float.ofScientific n false 0).toModel.unpack
  rw [Float.ofScientific]
  split
  -- A number of fifty-three bits is converted as a word and then multiplied by one.
  · have hb := (below_toFloat_mul_one n.toUInt64).mono (k := 971) (by decide)
    exact hb.fits_pack (by decide) (by decide)
  · exact ((below_ofScientific h).mono (by decide)).fits_pack (by decide) (by decide)

/-- A whole number of sixty-four bits is finite. -/
theorem isFinite_ofInt {i : Int} (hl : -(2 ^ 64) < i) (hu : i < 2 ^ 64) :
    (Float.ofInt i).isFinite = true := by
  cases i with
  | ofNat n =>
    have hn : n < 2 ^ 64 := by
      rw [Int.ofNat_eq_natCast] at hu
      omega
    exact (fits_toModel_ofNat hn).isFinite
  | negSucc n =>
    have hn : n + 1 < 2 ^ 64 := by
      rw [Int.negSucc_eq] at hl
      omega
    have h := (fits_toModel_ofNat hn).below.neg.fits_pack (by decide) (by decide)
    exact h.isFinite

end RiskTypology.Decimal
