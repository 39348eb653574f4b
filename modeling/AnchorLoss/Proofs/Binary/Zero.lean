import Mathlib
import AnchorLoss.Binary

namespace AnchorLoss

namespace Binary

open Float.Model (Format UnpackedFloat totalExponent)
open Float.Model.UnpackedFloat

section Round

variable {spec : Format}

theorem mantissa_shiftRight (em : ExtendedMantissa) (k : Nat) :
    (em >>> k).mantissa = em.mantissa / 2 ^ k := by
  induction k with
  | zero => simp [HShiftRight.hShiftRight, Nat.repeat]
  | succ k ih =>
    have hs : (em >>> (k + 1)) = (em >>> k).shiftRightOne := rfl
    rw [hs, ExtendedMantissa.shiftRightOne, ih, Nat.div_div_eq_div_mul, Nat.pow_succ]

theorem mantissa_ofMantissaAndAccuracy (m : Nat) (acc : Accuracy) :
    (ExtendedMantissa.ofMantissaAndAccuracy m acc).mantissa = m := by
  cases acc with
  | exact => rfl
  | inexact o => cases o <;> rfl

/-- A mantissa and an exponent of a number that is not rounded to zero. -/
def Visible (spec : Format) (m : Nat) (e : Int) : Prop := 2 ^ (spec.minExponent - e).toNat ≤ m

structure Fits (spec : Format) (m : Nat) (e : Int) : Prop where
  pos : 0 < m
  log2 : m.log2 + 1 ≤ spec.mantissaBits
  exponent : spec.minExponent ≤ e

theorem Visible.pos {m : Nat} {e : Int} (h : Visible spec m e) : 0 < m :=
  lt_of_lt_of_le (Nat.two_pow_pos _) h

theorem visible_of_exponent {m : Nat} {e : Int} (hm : 0 < m) (he : spec.minExponent ≤ e) :
    Visible spec m e := by
  have hz : (spec.minExponent - e).toNat = 0 := by omega
  rw [Visible, hz]
  exact hm

theorem fits_shift {m : Nat} {e : Int} (h : Visible spec m e) (acc : Accuracy) :
    Fits spec (shiftToTargetExponent spec m e acc).1.mantissa
      (shiftToTargetExponent spec m e acc).2 := by
  have hm : m ≠ 0 := Nat.pos_iff_ne_zero.mp h.pos
  have hb : 0 < spec.mantissaBits := by simp [Format.mantissaBits]
  simp only [shiftToTargetExponent, shiftToExponent, mantissa_shiftRight,
    mantissa_ofMantissaAndAccuracy, Format.targetExponent, totalExponent]
  generalize hk : (max ((m.log2 : Int) + 1 + e - spec.mantissaBits) spec.minExponent - e).toNat = k
  have hle : 2 ^ k ≤ m := by
    by_cases hcase : k ≤ (spec.minExponent - e).toNat
    · exact le_trans (Nat.pow_le_pow_right (by decide) hcase) h
    · have hlog : k ≤ m.log2 := by omega
      exact le_trans (Nat.pow_le_pow_right (by decide) hlog) (Nat.log2_self_le hm)
  refine ⟨Nat.div_pos hle (Nat.two_pow_pos k), ?_, by omega⟩
  have hlt : m / 2 ^ k < 2 ^ spec.mantissaBits := by
    apply Nat.div_lt_of_lt_mul
    rw [← Nat.pow_add]
    exact lt_of_lt_of_le Nat.lt_log2_self (Nat.pow_le_pow_right (by decide) (by omega))
  have hne : m / 2 ^ k ≠ 0 := Nat.pos_iff_ne_zero.mp (Nat.div_pos hle (Nat.two_pow_pos k))
  have := (Nat.log2_lt hne).mpr hlt
  omega

theorem le_roundToNearestEven (m : Nat) (acc : Accuracy) : m ≤ acc.roundToNearestEven m := by
  cases acc with
  | exact => exact le_refl m
  | inexact o =>
    cases o with
    | lt => exact le_refl m
    | eq => exact Nat.le_add_right m _
    | gt => exact Nat.le_succ m

theorem roundWithAccuracy_fits {m : Nat} {e : Int} (h : Visible spec m e) (s : Sign)
    (acc : Accuracy) : ∃ m' e' hm, roundWithAccuracy spec s m e acc = .finite s m' e' hm ∧
      Fits spec m' e' := by
  have h₁ := fits_shift h acc
  have hr : 0 < (shiftToTargetExponent spec m e acc).1.roundedMantissa :=
    lt_of_lt_of_le h₁.pos (le_roundToNearestEven _ _)
  have h₂ := fits_shift (visible_of_exponent hr h₁.exponent) .exact
  refine ⟨_, _, h₂.pos, ?_, h₂⟩
  simp only [roundWithAccuracy]
  rw [dif_neg (Nat.pos_iff_ne_zero.mp h₂.pos)]

/-- Neither a zero nor without a value, and not smaller than what the format can tell from zero. -/
inductive Nonzero (spec : Format) : UnpackedFloat → Prop where
  | finite (s : Sign) (m : Nat) (e : Int) (hm : 0 < m) (he : spec.minExponent ≤ e) :
    Nonzero spec (.finite s m e hm)
  | infinity (s : Sign) : Nonzero spec (.infinity s)

theorem ofNat_ne_neg_one {w n : Nat} (h : ¬ 2 ^ w ≤ n + 1) : BitVec.ofNat w n ≠ (-1#_) := by
  rw [BitVec.neg_one_eq_allOnes]
  intro he
  have hn := congrArg BitVec.toNat he
  rw [BitVec.toNat_ofNat, BitVec.toNat_allOnes, Nat.mod_eq_of_lt (by omega)] at hn
  omega

theorem ofNat_ne_zero {w n : Nat} (hn : 0 < n) (h : n < 2 ^ w) : BitVec.ofNat w n ≠ 0#_ := by
  intro he
  have ht := congrArg BitVec.toNat he
  rw [BitVec.toNat_ofNat, Nat.mod_eq_of_lt h] at ht
  simp at ht
  omega

theorem minExponent_eq (spec : Format) : spec.minExponent =
    1 - ((spec.exponentBias : Int) + (spec.mantissaBitsWithoutImplicit : Int)) := by
  have hp : 1 ≤ 2 ^ (spec.exponentBits - 1) := Nat.one_le_two_pow
  have hc : ((2 ^ (spec.exponentBits - 1) : Nat) : Int) = 2 ^ (spec.exponentBits - 1) := by
    push_cast
    rfl
  simp only [Format.minExponent, Format.exponentBias, Format.mantissaBits, ← hc]
  omega

theorem nonzero_unpack {b : BitVec spec.numBits}
    (h : unpackExponent b = (-1#_) → unpackMantissa b = 0#_)
    (h' : unpackExponent b = 0#_ → unpackMantissa b ≠ 0#_) : Nonzero spec (unpack spec b) := by
  simp only [unpack]
  split
  · rename_i he
    rw [if_pos (h he)]
    exact .infinity _
  · split
    · rename_i hz
      rw [dif_neg (h' hz)]
      refine .finite _ _ _ _ ?_
      rw [minExponent_eq]
      omega
    · rename_i hz
      refine .finite _ _ _ _ ?_
      have hpos : 0 < (unpackExponent b).toNat := BitVec.toNat_pos_of_ne_zero hz
      rw [minExponent_eq]
      omega

theorem nonzero_pack {s : Sign} {m : Nat} {e : Int} {hm : 0 < m} (h : Fits spec m e) :
    Nonzero spec (unpack spec (pack spec (.finite s m e hm))) := by
  have hbits : 2 ^ 1 ≤ 2 ^ spec.exponentBits := Nat.pow_le_pow_right (by decide) spec.he
  have hzero : (0#_ : BitVec spec.exponentBits) ≠ (-1#_) := ofNat_ne_neg_one (by omega)
  have hmin := h.exponent
  rw [minExponent_eq] at hmin
  simp only [pack]
  split
  · refine nonzero_unpack (fun _ => ?_) fun hz => ?_
    · simp [packedInfinity]
    · rw [packedInfinity, unpackExponent_packComponents] at hz
      exact absurd hz.symm hzero
  · rename_i hover
    split
    · refine nonzero_unpack (fun hn => ?_) fun hz => ?_
      · rw [unpackExponent_packComponents] at hn
        exact absurd hn (ofNat_ne_neg_one hover)
      · rw [unpackExponent_packComponents] at hz
        exact absurd hz (ofNat_ne_zero (by omega) (by omega))
    · rename_i hsub
      refine nonzero_unpack (fun hn => ?_) fun _ => ?_
      · rw [unpackExponent_packComponents] at hn
        exact absurd hn hzero
      · rw [unpackMantissa_packComponents]
        refine ofNat_ne_zero h.pos ?_
        have hlog := h.log2
        have hlt : m.log2 < spec.mantissaBitsWithoutImplicit := by
          unfold Format.mantissaBits at hlog hsub
          omega
        exact (Nat.log2_lt (Nat.pos_iff_ne_zero.mp h.pos)).mp hlt

theorem nonzero_roundWithAccuracy {s : Sign} {m : Nat} {e : Int} (h : Visible spec m e)
    (acc : Accuracy) : Nonzero spec (unpack spec (pack spec (roundWithAccuracy spec s m e acc))) := by
  obtain ⟨m', e', hm, hr, hf⟩ := roundWithAccuracy_fits h s acc
  rw [hr]
  exact nonzero_pack hf

theorem nonzero_round {s : Sign} {m : Nat} {e : Int} (hm : 0 < m) (he : spec.minExponent ≤ e) :
    Nonzero spec (unpack spec (pack spec (UnpackedFloat.round spec s m e))) := by
  simp only [UnpackedFloat.round, decreaseExponent, Format.targetExponent]
  refine nonzero_roundWithAccuracy (visible_of_exponent ?_ (by omega)) .exact
  rw [Nat.shiftLeft_eq]
  exact Nat.mul_pos hm (Nat.two_pow_pos _)

theorem nonzero_ofNat_unpacked (spec : Format) {n : Nat} (hn : 0 < n)
    (h : spec.minExponent ≤ 0) :
    Nonzero spec (unpack spec (pack spec (UnpackedFloat.ofNat spec n))) := by
  have hc : compare (n : Int) 0 = .gt := by
    rw [compare_gt_iff_gt]
    omega
  simp only [UnpackedFloat.ofNat, ofInt, UnpackedFloat.normalize, hc, Int.toNat_natCast]
  exact nonzero_round hn h

theorem nonzero_ofWord (spec : Format) {n : Nat} (hn : 0 < n) (hs : n < 2 ^ 64)
    (h : spec.minExponent ≤ 0) :
    Nonzero spec (unpack spec (pack spec (UnpackedFloat.ofNat spec n.toUInt64.toNat))) := by
  have hu : n.toUInt64.toNat = n := by
    rw [Nat.toUInt64_eq, UInt64.toNat_ofNat']
    omega
  rw [hu]
  exact nonzero_ofNat_unpacked spec hn h

/-- A factor of at least one does not make a number vanish. -/
theorem nonzero_mul {u : UnpackedFloat} (hu : Nonzero spec u) {s : Sign} {m : Nat} {e : Int}
    (hm : 0 < m) (he : 2 ^ (-e).toNat ≤ m) (hinf : ∀ s, unpack spec (pack spec (.infinity s)) = .infinity s) :
    Nonzero spec (unpack spec (pack spec (mul spec u (.finite s m e hm)))) := by
  cases hu with
  | finite s' m' e' hm' he' =>
    refine nonzero_roundWithAccuracy ?_ .exact
    calc 2 ^ (spec.minExponent - (e' + e)).toNat ≤ 2 ^ (-e).toNat :=
          Nat.pow_le_pow_right (by decide) (by omega)
      _ ≤ m := he
      _ ≤ m' * m := Nat.le_mul_of_pos_left m hm'
  | infinity s' =>
    simp only [mul, hinf]
    exact .infinity _

theorem nonzero_mul_one {u one : UnpackedFloat} (hu : Nonzero spec u) {k : Nat}
    (h1 : ∃ h, one = .finite .positive (2 ^ k) (-k) h)
    (hinf : ∀ s, unpack spec (pack spec (.infinity s)) = .infinity s) :
    Nonzero spec (unpack spec (pack spec (mul spec u one))) := by
  obtain ⟨h, rfl⟩ := h1
  refine nonzero_mul hu h ?_ hinf
  rw [neg_neg, Int.toNat_natCast]

theorem nonzero_ofScientific {n : Nat} (hn : 0 < n) (h : spec.minExponent ≤ -spec.mantissaBits)
    (hinf : ∀ s, unpack spec (pack spec (.infinity s)) = .infinity s) :
    Nonzero spec (unpack spec (pack spec (ofScientific spec n 0))) := by
  have hp : (0 : Int) ≤ 2 ^ spec.exponentBits := by positivity
  simp only [ofScientific]
  rw [dif_neg (Nat.pos_iff_ne_zero.mp hn), if_neg (by omega), if_neg (by omega), if_pos le_rfl]
  exact nonzero_mul (.finite _ _ _ _ h) _ (by decide) hinf

end Round

def format : Precision → Format
  | .single => .binary32
  | .double => .binary64

def value : {p : Precision} → Binary p → UnpackedFloat
  | .single, x => ofSingle x
  | .double, x => ofDouble x

variable {p q : Precision}

theorem value_div (x y : Binary p) : value (x / y) =
    unpack (format p) (pack (format p) (div (format p) (value x) (value y))) := by
  cases p <;> rfl

theorem value_mul (x y : Binary p) : value (x * y) =
    unpack (format p) (pack (format p) (mul (format p) (value x) (value y))) := by
  cases p <;> rfl

theorem value_pack_zero (p : Precision) (s : Sign) :
    unpack (format p) (pack (format p) (.zero s)) = .zero s := by
  cases p <;> cases s <;> rfl

theorem value_pack_infinity (p : Precision) (s : Sign) :
    unpack (format p) (pack (format p) (.infinity s)) = .infinity s := by
  cases p <;> cases s <;> rfl

def fit (spec : Format) : UnpackedFloat → UnpackedFloat
  | .finite s m e _ => UnpackedFloat.round spec s m e
  | u => u

theorem value_convert (x : Binary p) : value (convert x : Binary q) = value x ∨
    value (convert x : Binary q) = unpack (format q) (pack (format q) (fit (format q) (value x))) := by
  cases p <;> cases q
  · exact .inl rfl
  · right
    change ofDouble (toDouble (ofSingle x)) = unpack .binary64 (pack .binary64 (fit .binary64 (ofSingle x)))
    cases ofSingle x <;> rfl
  · right
    change ofSingle (toSingle (ofDouble x)) = unpack .binary32 (pack .binary32 (fit .binary32 (ofDouble x)))
    cases ofDouble x <;> rfl
  · exact .inl rfl

def IsZero (x : Binary p) : Prop := ∃ s, value x = .zero s

theorem isZero_zero (p : Precision) : IsZero (Scalar.zero : Binary p) := by
  refine ⟨.positive, ?_⟩
  cases p <;> rfl

theorem eq_zero_of_isZero {x : Binary p} (h : IsZero x) : Scalar.eq x Scalar.zero = true := by
  obtain ⟨s, hs⟩ := h
  obtain ⟨s', hs'⟩ := isZero_zero p
  have hle : ∀ y z : Binary p, Scalar.le y z = (value y).le (value z) := by
    intro y z
    have hd : Scalar.le y z = decide ((value y).le (value z) = true) := by cases p <;> rfl
    rw [hd, Bool.decide_eq_true]
  rw [Scalar.eq, hle, hle, hs, hs']
  rfl

theorem isZero_convert {x : Binary p} (h : IsZero x) : IsZero (convert x : Binary q) := by
  obtain ⟨s, hs⟩ := h
  refine ⟨s, ?_⟩
  obtain hv | hv := value_convert (q := q) x
  · rw [hv, hs]
  · rw [hv, hs]
    exact value_pack_zero q s

theorem ofDouble_one : ∃ h, ofDouble (Float.ofBits 0x3FF0000000000000) =
    .finite .positive (2 ^ 52) (-52) h :=
  ⟨by decide, rfl⟩

theorem ofSingle_one : ∃ h, ofSingle (Float32.ofBits 0x3F800000) =
    .finite .positive (2 ^ 23) (-23) h :=
  ⟨by decide, rfl⟩

theorem nonzero_double {n : Nat} (hn : 0 < n) :
    Nonzero .binary64 (ofDouble (Float.ofScientific n false 0)) := by
  have hinf := value_pack_infinity .double
  unfold Float.ofScientific
  by_cases hs : n < 2 ^ 53 ∧ 0 ≤ 22
  · rw [dif_pos hs]
    have hz : Nonzero .binary64 (ofDouble n.toUInt64.toFloat) :=
      nonzero_ofWord .binary64 hn (by omega) (by decide)
    exact nonzero_mul_one (k := 52) hz ofDouble_one hinf
  · rw [dif_neg hs]
    exact nonzero_ofScientific hn (by decide) hinf

theorem nonzero_single {n : Nat} (hn : 0 < n) :
    Nonzero .binary32 (ofSingle (Float32.ofScientific n false 0)) := by
  have hinf := value_pack_infinity .single
  unfold Float32.ofScientific
  by_cases hs : n < 2 ^ 23 ∧ 0 ≤ 10
  · rw [dif_pos hs]
    have hz : Nonzero .binary32 (ofSingle n.toUInt64.toFloat32) :=
      nonzero_ofWord .binary32 hn (by omega) (by decide)
    exact nonzero_mul_one (k := 23) hz ofSingle_one hinf
  · rw [dif_neg hs]
    exact nonzero_ofScientific hn (by decide) hinf

theorem nonzero_ofNat (p : Precision) {n : Nat} (hn : 0 < n) :
    Nonzero (format p) (value (Scalar.ofNat n : Binary p)) := by
  cases p with
  | single => exact nonzero_single hn
  | double => exact nonzero_double hn

theorem isZero_div_ofNat {x : Binary p} (h : IsZero x) {n : Nat} (hn : 0 < n) :
    IsZero (x / Scalar.ofNat n) := by
  obtain ⟨s, hs⟩ := h
  rw [IsZero, value_div, hs]
  generalize hv : value (Scalar.ofNat n : Binary p) = v
  have hz := nonzero_ofNat p hn
  rw [hv] at hz
  cases hz with
  | finite s' m e hm he => exact ⟨s / s', value_pack_zero p _⟩
  | infinity s' => exact ⟨s / s', value_pack_zero p _⟩

def IsFinite (x : Binary p) : Prop := (value x).isFinite = true

theorem isZero_mul {x y : Binary p} (h : IsZero x) (hy : IsFinite y) : IsZero (x * y) := by
  obtain ⟨s, hs⟩ := h
  rw [IsZero, value_mul, hs]
  unfold IsFinite at hy
  generalize hv : value y = v at *
  cases v with
  | infinity s' => cases hy
  | notANumber => cases hy
  | zero s' => exact ⟨s * s', value_pack_zero p _⟩
  | finite s' m e hm => exact ⟨s * s', value_pack_zero p _⟩

end Binary

end AnchorLoss
