import Mathlib
import AnchorLoss.Proofs.Binary.Count
import AnchorLoss.Proofs.Binary.Rank

namespace AnchorLoss

namespace Binary

open Float.Model (Format UnpackedFloat)
open Float.Model.UnpackedFloat

section Pack

variable {spec : Format}

theorem unpack_ne_notANumber {b : BitVec spec.numBits}
    (h : unpackExponent b = (-1#_) → unpackMantissa b = 0#_) : unpack spec b ≠ .notANumber := by
  simp only [unpack]
  split
  · rename_i he
    rw [if_pos (h he)]
    nofun
  · split
    · split <;> nofun
    · nofun

theorem unpack_pack_ne_notANumber {u : UnpackedFloat} (h : u ≠ .notANumber) :
    unpack spec (pack spec u) ≠ .notANumber := by
  cases u with
  | notANumber => exact absurd rfl h
  | infinity s => exact unpack_ne_notANumber fun _ => unpackMantissa_packComponents
  | zero s =>
    have hz : unpack spec (pack spec (.zero s)) = .zero s := unpack_packedZero
    rw [hz]
    nofun
  | finite s m e hm =>
    simp only [pack]
    split
    · exact unpack_ne_notANumber fun _ => unpackMantissa_packComponents
    · rename_i hover
      split
      · refine unpack_ne_notANumber fun he => ?_
        rw [unpackExponent_packComponents] at he
        exact absurd he (ofNat_ne_neg_one hover)
      · refine unpack_ne_notANumber fun he => ?_
        rw [unpackExponent_packComponents] at he
        exact absurd he (zero_ne_neg_one spec)

theorem round_ne_notANumber (s : Sign) (m : Nat) (e : Int) : UnpackedFloat.round spec s m e ≠ .notANumber := by
  simp only [UnpackedFloat.round, roundWithAccuracy]
  split <;> exact fun h => by cases h

end Pack

variable {p q : Precision}

theorem fit_ne_notANumber {spec : Format} {u : UnpackedFloat} (h : u ≠ .notANumber) :
    fit spec u ≠ .notANumber := by
  cases u with
  | finite s m e hm => exact round_ne_notANumber s m e
  | _ => exact h

theorem not_isNaN_convert {x : Binary p} (h : ¬ Scalar.isNaN x) : ¬ Scalar.isNaN (convert x : Binary q) := by
  rw [isNaN_iff] at h ⊢
  obtain hv | hv := value_convert (q := q) x
  · rw [hv]
    exact h
  · rw [hv]
    exact unpack_pack_ne_notANumber (fit_ne_notANumber h)

theorem not_isNaN_ofInt (n : Int) : ¬ Scalar.isNaN (Scalar.ofInt n : Binary .double) := by
  cases n with
  | ofNat n => exact not_isNaN_of_nonneg (nonneg_ofNat n)
  | negSucc n =>
    rw [isNaN_iff]
    have hn : ofDouble (Float.ofNat (n + 1)) ≠ .notANumber := fun h =>
      not_isNaN_of_nonneg (nonneg_ofNat (n + 1)) (isNaN_iff.mpr h)
    change unpack .binary64 (pack .binary64 (ofDouble (Float.ofNat (n + 1))).neg) ≠ _
    refine unpack_pack_ne_notANumber ?_
    generalize ofDouble (Float.ofNat (n + 1)) = u at hn ⊢
    cases u with
    | notANumber => exact absurd rfl hn
    | zero s => nofun
    | infinity s => nofun
    | finite s m e hm => nofun

theorem eq_zero_iff {x : Binary p} : Scalar.eq x Scalar.zero ↔ IsZero x := by
  refine ⟨fun h => ?_, eq_zero_of_isZero⟩
  obtain ⟨hle, hge⟩ := Scalar.eq_iff.mp h
  rw [le_eq, value_zero] at hle hge
  obtain ⟨hx, h0⟩ := ne_notANumber_of_le hle
  have hrank := le_antisymm ((le_iff_rank hx h0).mp hle) ((le_iff_rank h0 hx).mp hge)
  cases hv : value x with
  | zero s => exact ⟨s, hv⟩
  | notANumber => exact absurd hv hx
  | infinity s =>
    rw [hv] at hrank
    cases s <;> simp [rank] at hrank
  | finite s m e hm =>
    rw [hv] at hrank
    cases s <;> simp [rank] at hrank

theorem le_zero_of_nonneg {x : Binary p} (h : Nonneg (value x)) : Scalar.le Scalar.zero x := by
  rw [le_eq, value_zero]
  generalize value x = u at h ⊢
  cases h <;> rfl

end Binary

end AnchorLoss
