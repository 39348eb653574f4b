import Mathlib
import AnchorLoss.Box.Basic
import AnchorLoss.Proofs.Binary.Sign
import AnchorLoss.Proofs.Scalar.Order

namespace AnchorLoss

namespace Binary

open Float.Model (Format UnpackedFloat)
open Float.Model.UnpackedFloat

section Rank

/-- The place of a number in the order: by its sign, then by exponent and mantissa, which count downwards
among the negative numbers. -/
def rank : UnpackedFloat → Int ×ₗ Int ×ₗ Int
  | .infinity .negative => toLex (-2, toLex (0, 0))
  | .finite .negative m e _ => toLex (-1, toLex (-e, -m))
  | .zero _ | .notANumber => toLex (0, toLex (0, 0))
  | .finite .positive m e _ => toLex (1, toLex (e, m))
  | .infinity .positive => toLex (2, toLex (0, 0))

theorem isLE_compare (e e' : Int) (m m' : Nat) :
    ((compare e e').then (compare m m')).isLE ↔ toLex (e, (m : Int)) ≤ toLex (e', (m' : Int)) := by
  rw [Ordering.isLE_then_iff_or, compare_lt_iff_lt, compare_eq_iff_eq, Nat.isLE_compare,
    Prod.Lex.toLex_le_toLex, Int.ofNat_le]

theorem isGE_compare (e e' : Int) (m m' : Nat) :
    ((compare e e').then (compare m m')).isGE ↔ toLex (-e, -(m : Int)) ≤ toLex (-e', -(m' : Int)) := by
  rw [← Ordering.isLE_swap, Ordering.swap_then, Int.compare_swap, Nat.compare_swap, isLE_compare,
    Prod.Lex.toLex_le_toLex, Prod.Lex.toLex_le_toLex, neg_lt_neg_iff, neg_le_neg_iff, neg_inj, eq_comm]

theorem le_iff_rank {u v : UnpackedFloat} (hu : u ≠ .notANumber) (hv : v ≠ .notANumber) :
    u.le v = true ↔ rank u ≤ rank v := by
  -- two numbers of the same sign are compared beyond it
  have hsign : ∀ (s : Int) (a b : Int ×ₗ Int), toLex (s, a) ≤ toLex (s, b) ↔ a ≤ b := fun s a b => by
    simp [Prod.Lex.toLex_le_toLex]
  cases u with
  | notANumber => exact absurd rfl hu
  | infinity s =>
    cases v with
    | notANumber => exact absurd rfl hv
    | infinity t => cases s <;> cases t <;> decide
    | zero t => cases s <;> simp [UnpackedFloat.le, UnpackedFloat.compare, rank, Prod.Lex.toLex_le_toLex]
    | finite t m e hm =>
      cases s <;> cases t <;>
        simp [UnpackedFloat.le, UnpackedFloat.compare, rank, Prod.Lex.toLex_le_toLex]
  | zero s =>
    cases v with
    | notANumber => exact absurd rfl hv
    | infinity t => cases t <;> simp [UnpackedFloat.le, UnpackedFloat.compare, rank, Prod.Lex.toLex_le_toLex]
    | zero t => simp [UnpackedFloat.le, UnpackedFloat.compare, rank]
    | finite t m e hm =>
      cases t <;> simp [UnpackedFloat.le, UnpackedFloat.compare, rank, Prod.Lex.toLex_le_toLex]
  | finite s m e hm =>
    cases v with
    | notANumber => exact absurd rfl hv
    | infinity t =>
      cases s <;> cases t <;>
        simp [UnpackedFloat.le, UnpackedFloat.compare, rank, Prod.Lex.toLex_le_toLex]
    | zero t => cases s <;> simp [UnpackedFloat.le, UnpackedFloat.compare, rank, Prod.Lex.toLex_le_toLex]
    | finite t m' e' hm' =>
      cases s <;> cases t
      · simp only [UnpackedFloat.le, UnpackedFloat.compare, Option.any_some, Ordering.isLE_swap, rank]
        rw [isGE_compare, hsign]
      · simp [UnpackedFloat.le, UnpackedFloat.compare, rank, Prod.Lex.toLex_le_toLex]
      · simp [UnpackedFloat.le, UnpackedFloat.compare, rank, Prod.Lex.toLex_le_toLex]
      · simp only [UnpackedFloat.le, UnpackedFloat.compare, Option.any_some, rank]
        rw [isLE_compare, hsign]

theorem ne_notANumber_of_le {u v : UnpackedFloat} (h : u.le v = true) :
    u ≠ .notANumber ∧ v ≠ .notANumber := by
  constructor
  · rintro rfl
    cases h
  · rintro rfl
    cases u <;> cases h

end Rank

section Order

variable {p : Precision} {x y : Binary p}

theorem isNaN_iff : Scalar.isNaN x ↔ value x = .notANumber := by
  rw [Scalar.isNaN, le_eq, Bool.not_eq_true', ← Bool.not_eq_true]
  constructor
  · intro h
    by_contra hx
    exact h ((le_iff_rank hx hx).mpr le_rfl)
  · rintro hx h
    exact (ne_notANumber_of_le h).1 hx

theorem lt_iff_rank : Scalar.lt x y ↔
    value x ≠ .notANumber ∧ value y ≠ .notANumber ∧ rank (value x) < rank (value y) := by
  rw [Scalar.lt, le_eq, le_eq, Bool.and_eq_true, Bool.not_eq_true', ← Bool.not_eq_true]
  constructor
  · rintro ⟨h, h'⟩
    obtain ⟨hx, hy⟩ := ne_notANumber_of_le h
    rw [le_iff_rank hy hx, not_le] at h'
    exact ⟨hx, hy, h'⟩
  · rintro ⟨hx, hy, h⟩
    rw [le_iff_rank hx hy, le_iff_rank hy hx, not_le]
    exact ⟨h.le, h⟩

end Order

instance (p : Precision) : LawfulLe (Binary p) where
  not_isNaN_zero := by
    rw [isNaN_iff, value_zero]
    nofun
  not_isNaN_of_le {a b} h := by
    rw [isNaN_iff, isNaN_iff]
    rw [le_eq] at h
    exact ne_notANumber_of_le h
  le_trans {a b c} h h' := by
    rw [le_eq] at h h' ⊢
    obtain ⟨ha, hb⟩ := ne_notANumber_of_le h
    obtain ⟨-, hc⟩ := ne_notANumber_of_le h'
    rw [le_iff_rank ha hb] at h
    rw [le_iff_rank hb hc] at h'
    rw [le_iff_rank ha hc]
    exact h.trans h'
  le_total {a b} ha hb := by
    rw [isNaN_iff] at ha hb
    rw [le_eq, le_eq, le_iff_rank ha hb, le_iff_rank hb ha]
    exact le_total _ _

section Overlap

def NonnegOrNaN (u : UnpackedFloat) : Prop := u = .notANumber ∨ Nonneg u

variable {p : Precision}

theorem value_sub (x y : Binary p) : value (x - y) =
    unpack (format p) (pack (format p) (sub (format p) (value x) (value y))) := by
  cases p <;> rfl

theorem nonnegOrNaN_maximum (x : Binary p) : NonnegOrNaN (value (Scalar.maximum x Scalar.zero)) := by
  rw [Scalar.maximum]
  by_cases hx : Scalar.isNaN x
  · rw [hx, Bool.true_or, if_pos rfl]
    exact .inl (isNaN_iff.mp hx)
  · rw [Bool.not_eq_true] at hx
    rw [hx, Bool.false_or]
    split
    · rename_i h
      exact .inr (nonneg_of_le h)
    · rw [value_zero]
      exact .inr (.zero _)

theorem nonnegOrNaN_mul {x y : Binary p} (hx : NonnegOrNaN (value x)) (hy : NonnegOrNaN (value y)) :
    NonnegOrNaN (value (x * y)) := by
  rw [value_mul]
  generalize value x = u at hx ⊢
  generalize value y = v at hy ⊢
  have hmul : NonnegOrNaN (mul (format p) u v) := by
    obtain rfl | hx := hx
    · exact .inl rfl
    · obtain rfl | hy := hy
      · cases hx <;> exact .inl rfl
      · exact nonneg_mul hx hy
  obtain h | h := hmul
  · rw [h]
    exact .inl (value_pack_notANumber p)
  · exact .inr (nonneg_pack h)

theorem nonnegOrNaN_sharedArea (a b : Corners (Binary p)) : NonnegOrNaN (value (Box.sharedArea a b)) :=
  nonnegOrNaN_mul (nonnegOrNaN_maximum _) (nonnegOrNaN_maximum _)

theorem cases_of_rank {u : UnpackedFloat} (h : rank (.zero .positive) < rank u) :
    u = .infinity .positive ∨ ∃ m e hm, u = .finite .positive m e hm := by
  cases u with
  | notANumber => exact absurd h (lt_irrefl _)
  | zero s => exact absurd h (lt_irrefl _)
  | infinity s =>
    cases s with
    | negative => exact absurd h (by decide)
    | positive => exact .inl rfl
  | finite s m e hm =>
    cases s with
    | negative => simp [rank, Prod.Lex.toLex_lt_toLex] at h
    | positive => exact .inr ⟨m, e, hm, rfl⟩

theorem sub_infinity (spec : Format) (u : UnpackedFloat) :
    sub spec u (.infinity .positive) = .notANumber ∨
      sub spec u (.infinity .positive) = .infinity .negative := by
  cases u with
  | notANumber => exact .inl rfl
  | zero s => exact .inr rfl
  | finite s m e hm => exact .inr rfl
  | infinity s =>
    cases s with
    | negative => exact .inr rfl
    | positive => exact .inl rfl

theorem isFinite_of_lt_sub {x y : Binary p} (hy : NonnegOrNaN (value y))
    (h : Scalar.lt Scalar.zero (x - y)) : Nonneg (value y) ∧ IsFinite y := by
  obtain ⟨-, hn, hr⟩ := lt_iff_rank.mp h
  rw [value_zero] at hr
  rw [value_sub] at hn hr
  unfold IsFinite
  generalize value y = v at hy hn hr ⊢
  obtain rfl | hy := hy
  · refine absurd ?_ hn
    cases value x <;> exact value_pack_notANumber p
  · refine ⟨hy, ?_⟩
    cases hy with
    | zero s => rfl
    | finite m e hm => rfl
    | infinity =>
      obtain hs | hs := sub_infinity (format p) (value x)
      · rw [hs, value_pack_notANumber] at hn
        exact absurd rfl hn
      · rw [hs, value_pack_infinity] at hr
        exact absurd hr (by decide)

theorem nonneg_div {spec : Format} {u v : UnpackedFloat} (hu : Nonneg u) (hfin : u.isFinite = true)
    (hv : rank (.zero .positive) < rank v) : Nonneg (div spec u v) := by
  obtain rfl | ⟨m, e, hm, rfl⟩ := cases_of_rank hv
  · cases hu with
    | zero s => exact .zero _
    | finite m e hm => exact .zero _
    | infinity => cases hfin
  · cases hu with
    | zero s => exact .zero _
    | finite m e hm => exact nonneg_roundWithAccuracy _ _ _
    | infinity => cases hfin

theorem nonneg_overlapOf {shared : Binary p} (hs : NonnegOrNaN (value shared)) (areas : Binary p) :
    Nonneg (value (Box.overlapOf shared areas)) := by
  rw [Box.overlapOf]
  split
  · rename_i h
    obtain ⟨hnonneg, hfin⟩ := isFinite_of_lt_sub hs h
    obtain ⟨-, -, hr⟩ := lt_iff_rank.mp h
    rw [value_zero] at hr
    rw [value_div]
    exact nonneg_pack (nonneg_div hnonneg hfin hr)
  · rw [value_zero]
    exact .zero _

theorem nonneg_overlap (a b : Box (Binary p)) : Nonneg (value (a.overlap b)) :=
  nonneg_overlapOf (nonnegOrNaN_sharedArea _ _) _

theorem not_isNaN_of_nonneg {x : Binary p} (h : Nonneg (value x)) : ¬ Scalar.isNaN x := by
  rw [isNaN_iff]
  rintro hn
  rw [hn] at h
  cases h

theorem not_isNaN_overlap (a b : Box (Binary p)) : ¬ Scalar.isNaN (a.overlap b) :=
  not_isNaN_of_nonneg (nonneg_overlap a b)

end Overlap

end Binary

end AnchorLoss
