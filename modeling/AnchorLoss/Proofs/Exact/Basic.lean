import Mathlib
import AnchorLoss.Loss
import AnchorLoss.Proofs.Engine.Step
import AnchorLoss.Proofs.Scalar.Order

namespace AnchorLoss

/-- What an ordered field does not bring along itself. -/
structure Functions (K : Type) where
  exp : K → K
  log : K → K
  sqrt : K → K

/-- Both precisions hold the same numbers. -/
abbrev Exact {K : Type} (_ : Functions K) : Precision → Type := fun _ => K

namespace Exact

variable {K : Type} [Field K] [LinearOrder K] [FloorRing K] (T : Functions K)

instance : Arithmetic (Exact T) where
  scalar _ := {
    ofInt := Int.cast
    le := fun a b => decide (a ≤ b)
    exp := T.exp
    log := T.log
    sqrt := T.sqrt }
  convert x := x
  floor x := .ok ⌊x⌋

instance : LawfulConvert (Exact T) where
  convert_self _ := rfl

variable {T} {p : Precision}

@[simp] theorem zero_eq : (Scalar.zero : Exact T p) = (0 : K) := Int.cast_zero

@[simp] theorem one_eq : (Scalar.one : Exact T p) = (1 : K) := Int.cast_one

@[simp] theorem half_eq : (Scalar.half : Exact T p) = (1 / 2 : K) := by
  have h₁ : ((1 : Int) : K) = 1 := Int.cast_one
  have h₂ : ((2 : Int) : K) = 2 := Int.cast_ofNat 2
  change ((1 : Int) : K) / ((2 : Int) : K) = 1 / 2
  rw [h₁, h₂]

@[simp] theorem ofNat_eq (n : Nat) : (Scalar.ofNat n : Exact T p) = (n : K) := Int.cast_natCast n

@[simp] theorem le_eq (a b : Exact T p) : Scalar.le a b = decide ((a : K) ≤ b) := rfl

@[simp] theorem isNaN_eq (a : Exact T p) : Scalar.isNaN a = false := by
  simp [Scalar.isNaN]

@[simp] theorem lt_eq (a b : Exact T p) : Scalar.lt a b = decide ((a : K) < b) := by
  rw [Scalar.lt, le_eq, le_eq]
  by_cases h : (a : K) < b
  · simp [h, le_of_lt h]
  · simp [h, le_of_not_gt h]

instance : LawfulLe (Exact T p) where
  not_isNaN_zero := by simp
  not_isNaN_of_le _ := by simp
  le_trans {a b c} h h' := by
    simp only [le_eq, decide_eq_true_eq] at h h' ⊢
    exact h.trans h'
  le_total {a b} _ _ := by
    simp only [le_eq, decide_eq_true_eq]
    exact le_total (a : K) b

@[simp] theorem maximum_eq (a b : Exact T p) : Scalar.maximum a b = max (a : K) b := by
  simp only [Scalar.maximum, isNaN_eq, le_eq, Bool.false_or, decide_eq_true_eq]
  by_cases h : (b : K) ≤ a
  · rw [if_pos h, max_eq_left h]
  · rw [if_neg h, max_eq_right (le_of_not_ge h)]

@[simp] theorem minimum_eq (a b : Exact T p) : Scalar.minimum a b = min (a : K) b := by
  simp only [Scalar.minimum, isNaN_eq, le_eq, Bool.false_or, decide_eq_true_eq]
  by_cases h : (a : K) ≤ b
  · rw [if_pos h, min_eq_left h]
  · rw [if_neg h, min_eq_right (le_of_not_ge h)]

omit [LinearOrder K] [FloorRing K] in
theorem foldl_add_eq (xs : List K) (a : K) : xs.foldl (· + ·) a = a + xs.sum := by
  induction xs generalizing a with
  | nil => simp
  | cons x xs ih => rw [List.foldl_cons, ih, List.sum_cons, add_assoc]

@[simp] theorem sum_eq (xs : List (Exact T p)) : Scalar.sum xs = (xs : List K).sum := by
  have h := foldl_add_eq (K := K) xs 0
  rw [zero_add] at h
  rw [← h, Scalar.sum, zero_eq]

@[simp] theorem clamp_eq (a b x : Exact T p) : Scalar.clamp a b x = min (max (x : K) a) b := by
  simp [Scalar.clamp]

@[simp] theorem abs_eq [IsStrictOrderedRing K] (a : Exact T p) : Scalar.abs a = |(a : K)| := by
  rw [Scalar.abs, maximum_eq]
  exact (abs_eq_max_neg).symm

noncomputable abbrev real : Functions ℝ := ⟨Real.exp, Real.log, Real.sqrt⟩

end Exact

end AnchorLoss
