import Mathlib
import AnchorLoss.Proofs.Binary.Zero

namespace AnchorLoss

namespace Binary

open Float.Model (Format UnpackedFloat)
open Float.Model.UnpackedFloat

inductive Nonneg : UnpackedFloat → Prop where
  | zero (s : Sign) : Nonneg (.zero s)
  | finite (m : Nat) (e : Int) (hm : 0 < m) : Nonneg (.finite .positive m e hm)
  | infinity : Nonneg (.infinity .positive)

section Round

variable {spec : Format}

theorem nonneg_roundWithAccuracy (m : Nat) (e : Int) (acc : Accuracy) :
    Nonneg (roundWithAccuracy spec .positive m e acc) := by
  simp only [roundWithAccuracy]
  split
  · exact .zero _
  · exact .finite _ _ _

theorem zero_ne_neg_one (spec : Format) : (0#_ : BitVec spec.exponentBits) ≠ (-1#_) := by
  have hbits : 2 ^ 1 ≤ 2 ^ spec.exponentBits := Nat.pow_le_pow_right (by decide) spec.he
  exact ofNat_ne_neg_one (by omega)

theorem nonneg_unpack {b : BitVec spec.numBits} (hs : unpackSign b = 0#1)
    (h : unpackExponent b = (-1#_) → unpackMantissa b = 0#_) : Nonneg (unpack spec b) := by
  have hsign : Sign.ofBitVec (unpackSign b) = .positive := by rw [hs]; rfl
  simp only [unpack, hsign]
  split
  · rename_i he
    rw [if_pos (h he)]
    exact .infinity
  · split
    · split
      · exact .zero _
      · exact .finite _ _ _
    · exact .finite _ _ _

theorem nonneg_pack {u : UnpackedFloat} (h : Nonneg u) : Nonneg (unpack spec (pack spec u)) := by
  cases h with
  | zero s =>
    have hz : unpack spec (pack spec (.zero s)) = .zero s := unpack_packedZero
    rw [hz]
    exact .zero s
  | infinity => exact nonneg_unpack (unpackSign_packComponents _ _ _) fun _ =>
      unpackMantissa_packComponents
  | finite m e hm =>
    simp only [pack]
    split
    · exact nonneg_unpack (unpackSign_packComponents _ _ _) fun _ => unpackMantissa_packComponents
    · rename_i hover
      split
      · refine nonneg_unpack (unpackSign_packComponents _ _ _) fun he => ?_
        rw [unpackExponent_packComponents] at he
        exact absurd he (ofNat_ne_neg_one hover)
      · refine nonneg_unpack (unpackSign_packComponents _ _ _) fun he => ?_
        rw [unpackExponent_packComponents] at he
        exact absurd he (zero_ne_neg_one spec)

theorem nonneg_mul {u v : UnpackedFloat} (hu : Nonneg u) (hv : Nonneg v) :
    mul spec u v = .notANumber ∨ Nonneg (mul spec u v) := by
  cases hv with
  | finite m e hm =>
    cases hu with
    | zero s => exact .inr (.zero _)
    | infinity => exact .inr .infinity
    | finite m' e' hm' => exact .inr (nonneg_roundWithAccuracy _ _ _)
  | zero s =>
    cases hu with
    | zero s' => exact .inr (.zero _)
    | infinity => exact .inl rfl
    | finite m e hm => exact .inr (.zero _)
  | infinity =>
    cases hu with
    | zero s => exact .inl rfl
    | infinity => exact .inr .infinity
    | finite m e hm => exact .inr .infinity

end Round

variable {p q : Precision}

theorem le_eq (x y : Binary p) : Scalar.le x y = (value x).le (value y) := by
  have hd : Scalar.le x y = decide ((value x).le (value y) = true) := by cases p <;> rfl
  rw [hd, Bool.decide_eq_true]

theorem value_zero (p : Precision) : value (Scalar.zero : Binary p) = .zero .positive := by
  cases p <;> rfl

theorem nonneg_of_not_lt {x : Binary p} (h : Scalar.lt x Scalar.zero = false) :
    value x = .notANumber ∨ Nonneg (value x) := by
  rw [Scalar.lt, le_eq, le_eq, value_zero] at h
  generalize value x = u at h ⊢
  cases u with
  | notANumber => exact .inl rfl
  | zero s => exact .inr (.zero s)
  | infinity s =>
    cases s with
    | negative => cases h
    | positive => exact .inr .infinity
  | finite s m e hm =>
    cases s with
    | negative => cases h
    | positive => exact .inr (.finite m e hm)

theorem nonneg_of_le {x : Binary p} (h : Scalar.le Scalar.zero x = true) : Nonneg (value x) := by
  have hlt : Scalar.lt x Scalar.zero = false := by
    rw [Scalar.lt, h, Bool.not_true, Bool.and_false]
  refine (nonneg_of_not_lt hlt).resolve_left fun hx => ?_
  rw [le_eq, value_zero, hx] at h
  cases h

theorem lt_zero_of_lt {t x : Binary p} (ht : Nonneg (value t)) (h : Scalar.lt t x = true) :
    Scalar.lt Scalar.zero x = true := by
  rw [Scalar.lt, le_eq, le_eq] at h ⊢
  rw [value_zero]
  generalize value x = v at h ⊢
  generalize value t = u at h ht
  cases v with
  | notANumber => cases ht <;> cases h
  | zero s => cases ht <;> cases h
  | infinity s =>
    cases s with
    | negative => cases ht <;> cases h
    | positive => rfl
  | finite s m e hm =>
    cases s with
    | negative => cases ht <;> cases h
    | positive => rfl

theorem nonneg_round {spec : Format} (m : Nat) (e : Int) :
    Nonneg (UnpackedFloat.round spec .positive m e) := by
  simp only [UnpackedFloat.round]
  exact nonneg_roundWithAccuracy _ _ _

theorem nonneg_fit {spec : Format} {u : UnpackedFloat} (h : Nonneg u) : Nonneg (fit spec u) := by
  cases h with
  | zero s => exact .zero s
  | infinity => exact .infinity
  | finite m e hm => exact nonneg_round m e

theorem nonneg_convert {x : Binary p} (h : Nonneg (value x)) : Nonneg (value (convert x : Binary q)) := by
  obtain hv | hv := value_convert (q := q) x
  · rw [hv]
    exact h
  · rw [hv]
    exact nonneg_pack (nonneg_fit h)

theorem nonneg_floor {u : UnpackedFloat} {n : Int} (h : Nonneg u) (hf : floor u = .ok n) : 0 ≤ n := by
  cases h with
  | zero s => cases hf; exact le_refl 0
  | infinity => cases hf
  | finite m e hm =>
    obtain rfl : floorScaled .positive m e = n := Except.ok.inj hf
    simp only [floorScaled, Sign.apply]
    split
    · exact Int.natCast_nonneg _
    · exact Int.fdiv_nonneg (Int.natCast_nonneg _) (Int.natCast_nonneg _)

theorem value_pack_notANumber (p : Precision) :
    unpack (format p) (pack (format p) .notANumber) = .notANumber := by
  cases p <;> rfl

end Binary

end AnchorLoss
