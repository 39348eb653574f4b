import Mathlib
import AnchorLoss.Proofs.Tensor.Numbers
import AnchorLoss.Proofs.Tensor.Table

namespace AnchorLoss

namespace FloatTensor

open Tensor

variable {p : Precision}

theorem zipWith_self {f : ∀ p, Binary p → Binary p → Binary p} {s t u : Tensor (Binary p)}
    (h : zipWith? (f p) s t = some u) : zipWith f ⟨p, s⟩ ⟨p, t⟩ = .ok ⟨p, u⟩ := by
  -- the precision occurs in the types of the operands, so it is replaced in all of them at once
  have hz : ∀ q, q = p → orMismatch ((zipWith? (f q) ((typed ⟨p, s⟩).toFloat q)
      ((typed ⟨p, t⟩).toFloat q)).map (FloatTensor.mk q)) = .ok ⟨p, u⟩ := by
    rintro _ rfl
    rw [typed, typed, TypedTensor.toFloat_float, TypedTensor.toFloat_float, h]
    rfl
  exact hz _ (congrArg ElementType.fractional (TypedTensor.commonType_float s t))

theorem rearrange_mk {f : ∀ {α : Type}, Tensor α → Option (Tensor α)} {t u : Tensor (Binary p)}
    (h : f t = some u) : (⟨p, t⟩ : FloatTensor Binary).rearrange f = .ok ⟨p, u⟩ := by
  rw [rearrange, h]
  rfl

end FloatTensor

namespace Tensor

open Scalar

variable {n : Nat}

theorem reshape?_table {α : Type} {w v : Nat} {s : List Nat} (hs : s = [n, w]) (hv : w = v)
    (f : Nat → Nat → α) : (table n v f).reshape? s = some (table n v f) := by
  subst hs hv
  exact reshape?_tabulate rfl _

theorem halves_table (N : Numbers) (f g : Nat → Nat → N.Entry) :
    halves (N.typed (table n 2 f)) (N.typed (table n 2 g)) =
      .ok (N.typed (table n 2 f), N.typed (table n 2 g)) := by
  let row (a c : Nat) : N.Entry := if c < 2 then f a c else g a (c - 2)
  have hjoin := N.joinLast_typed rfl rfl (joinLast?_table n 2 2 f g)
  have hrows : (N.typed (table n 4 row)).rearrange (reshape? · [n * 4 / 4, 4]) = .ok (N.typed (table n 4 row)) :=
    N.rearrange_typed (reshape?_table (by simp) rfl _)
  have hfirst : (N.typed (table n 4 row)).rearrange (narrow? 1 0 2) = .ok (N.typed (table n 2 f)) := by
    apply N.rearrange_typed
    refine (narrow?_table (Nat.zero_le 2) (by decide) row).trans (congrArg some (table_congr fun a _ c hc => ?_))
    rw [Nat.zero_add]
    exact if_pos hc
  have hsecond : (N.typed (table n 4 row)).rearrange (narrow? 1 2 4) = .ok (N.typed (table n 2 g)) := by
    apply N.rearrange_typed
    refine (narrow?_table (by decide) (Nat.le_refl 4) row).trans (congrArg some (table_congr fun a _ c _ => ?_))
    simp only [row, if_neg (Nat.not_lt.mpr (Nat.le_add_right 2 c)), Nat.add_sub_cancel_left]
  simp only [halves, bind, Except.bind, pure, Except.pure, hjoin, N.shape_typed, shape_table, volume_pair,
    Nat.mul_mod_left, ne_eq, not_true_eq_false, if_false]
  rw [hrows]
  dsimp only
  rw [hfirst, hsecond]

theorem shapedLike_table {t : TypedTensor Binary} {p : Precision} {f : Nat → Nat → Binary p} (hs : t.shape = [n, 2]) :
    shapedLike t ⟨p, table n 2 f⟩ = .ok ⟨p, table n 2 f⟩ :=
  FloatTensor.rearrange_mk (reshape?_table (by simp [hs]) rfl f)

theorem centerToCorners_table {p : Precision} (f g : Nat → Nat → Binary p) :
    centerToCorners (.float p (table n 2 f)) (.float p (table n 2 g)) =
      .ok (⟨p, table n 2 fun a c => f a c - half * g a c⟩, ⟨p, table n 2 fun a c => f a c + half * g a c⟩) := by
  have hhalves : halves (.float p (table n 2 f)) (.float p (table n 2 g)) =
      .ok (.float p (table n 2 f), .float p (table n 2 g)) := halves_table (.float p) f g
  have hlow := FloatTensor.zipWith_self (f := fun _ c s => c - half * s)
    (zipWith?_table n 2 (fun c s : Binary p => c - half * s) f g)
  have hhigh := FloatTensor.zipWith_self (f := fun _ c s => c + half * s)
    (zipWith?_table n 2 (fun c s : Binary p => c + half * s) f g)
  have hlike {h : Nat → Nat → Binary p} := shapedLike_table (t := .float p (table n 2 f)) (f := h) rfl
  simp only [centerToCorners, bind, Except.bind, pure, Except.pure, hhalves, TypedTensor.elementType, reduceCtorEq,
    if_false, TypedTensor.toFractional_float, hlow, hhigh, hlike]

theorem cornersToCenter_table (N : Numbers) (f g : Nat → Nat → N.Entry) :
    cornersToCenter (N.typed (table n 2 f)) (N.typed (table n 2 g)) =
      .ok (⟨N.precision, table n 2 fun a c => N.value (N.plus (f a c) (g a c)) / ofInt 2⟩,
        ⟨N.precision, table n 2 fun a c => N.value (N.minus (g a c) (f a c))⟩) := by
  have hsum := N.combine_typed (zipWith?_table n 2 N.plus f g)
  have hsize := N.difference_typed (zipWith?_table n 2 N.minus g f)
  have hcenter (h : Nat → Nat → Binary N.precision) :
      (⟨N.precision, table n 2 h⟩ : FloatTensor Binary).map (fun x => x / ofInt 2) =
        ⟨N.precision, table n 2 fun a c => h a c / ofInt 2⟩ :=
    congrArg (FloatTensor.mk N.precision) (map_table _ _ _ _)
  have hlike {h : Nat → Nat → Binary N.precision} :=
    shapedLike_table (t := N.typed (table n 2 f)) (f := h) (N.shape_typed _)
  simp only [cornersToCenter, bind, Except.bind, pure, Except.pure, halves_table, hsum, hsize,
    N.toFractional_typed, map_table, hcenter, hlike]

end Tensor

end AnchorLoss
