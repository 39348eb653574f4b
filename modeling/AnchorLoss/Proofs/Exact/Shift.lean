import Mathlib
import AnchorLoss.Proofs.Engine.Shares
import AnchorLoss.Proofs.Exact.Softmax
import AnchorLoss.Proofs.Exact.OneAnchor
import AnchorLoss.Proofs.Exact.BoxGradient

namespace AnchorLoss

inductive Factor.Is {K : Type} [Field K] [LinearOrder K] [FloorRing K] {T : Functions K} (x : K) :
    Factor (Exact T) → Prop where
  | number : Is x (.number x)
  | scalar (q : Precision) : Is x (.tensor (.float q (.ofScalar x)))

namespace Exact

variable {K : Type} [Field K] [LinearOrder K] [IsStrictOrderedRing K] [FloorRing K] {T : Functions K}
  {p : Precision} {n k : Nat}

def raise (c : K) (x : Exact T p) : Exact T p := (x + c : K)

theorem foldl_maximum_raise (xs : List (Exact T p)) (x : Exact T p) (c : K) :
    (xs.map (raise c)).foldl Scalar.maximum (raise c x) = raise c (xs.foldl Scalar.maximum x) := by
  induction xs generalizing x with
  | nil => rfl
  | cons y xs ih =>
    have hmax : Scalar.maximum (raise c x) (raise c y) = raise c (Scalar.maximum x y) := by
      rw [maximum_eq, maximum_eq]
      exact max_add_add_right x y c
    rw [List.map_cons, List.foldl_cons, List.foldl_cons, hmax]
    exact ih (Scalar.maximum x y)

theorem rowMaximum_raise (row : Vector (Exact T p) (k + 1)) (c : K) :
    rowMaximum (row.map (raise c)) = raise c (rowMaximum row) := by
  unfold rowMaximum
  rw [Vector.toList_map]
  cases hrow : row.toList with
  | nil =>
    have hlen : row.toList.length = k + 1 := Vector.length_toList
    rw [hrow] at hlen
    cases hlen
  | cons x xs => exact foldl_maximum_raise xs x c

/-- The softmax goes by the distances to the maximum. -/
theorem softmax_raise (row : Vector (Exact T p) (k + 1)) (c : K) :
    softmax (row.map (raise c)) = softmax row := by
  have hget : ∀ j, ((row.map (raise c)).get j - rowMaximum (row.map (raise c)) : K) =
      row.get j - rowMaximum row := by
    intro j
    rw [rowMaximum_raise, Vector.get_map]
    exact add_sub_add_right_eq_sub _ _ c
  ext i hi
  refine (softmax_get_top _ ⟨i, hi⟩).trans (Eq.trans ?_ (softmax_get_top row ⟨i, hi⟩).symm)
  simp only [hget]

omit [IsStrictOrderedRing K] in
theorem eq_map_raise {row row' : Vector (Exact T p) k} {c : K}
    (h : ∀ j, row'.get j = (row.get j + c : K)) : row' = row.map (raise c) := by
  ext j hj
  rw [Vector.getElem_map]
  exact h ⟨j, hj⟩

def shift (arm odm : K) (c : Nat) : K :=
  if 4 ≤ c ∧ c < 6 then arm else if 10 ≤ c then odm else 0

section Channels

variable (arm odm : K)

omit [LinearOrder K] [IsStrictOrderedRing K] [FloorRing K] in
theorem shift_armOffset (j : Fin 4) : shift arm odm (Channel.armOffset j : Fin (10 + (k + 1))) = 0 := by
  have h₄ : ¬ 4 ≤ j.val := by omega
  have h₁₀ : ¬ 10 ≤ j.val := by omega
  simp [shift, Channel.armOffset, h₄, h₁₀]

omit [LinearOrder K] [IsStrictOrderedRing K] [FloorRing K] in
theorem shift_armLogit (j : Fin 2) : shift arm odm (Channel.armLogit j : Fin (10 + (k + 1))) = arm := by
  have h₆ : 4 + j.val < 6 := by omega
  simp [shift, Channel.armLogit, h₆]

omit [LinearOrder K] [IsStrictOrderedRing K] [FloorRing K] in
theorem shift_odmOffset (j : Fin 4) : shift arm odm (Channel.odmOffset j : Fin (10 + (k + 1))) = 0 := by
  have h₆ : ¬ 6 + j.val < 6 := by omega
  have h₁₀ : ¬ 10 ≤ 6 + j.val := by omega
  simp [shift, Channel.odmOffset, h₆, h₁₀]

omit [LinearOrder K] [IsStrictOrderedRing K] [FloorRing K] in
theorem shift_odmLogit (j : Fin (k + 1)) : shift arm odm (Channel.odmLogit j).val = odm := by
  have h₆ : ¬ 10 + j.val < 6 := by omega
  simp [shift, Channel.odmLogit, h₆]

end Channels

theorem sameShares_of_shift {x y : Heads (Exact T p) k} {arm odm : K}
    (h : ∀ c : Fin (10 + (k + 1)), y.channel c = (x.channel c + shift arm odm c : K)) :
    x.SameShares y where
  armOffsets := Heads.block_eq Heads.channel_armOffsets fun j => by
    rw [h, shift_armOffset, add_zero]
  armLogits := by
    have hrow : y.armLogits = x.armLogits.map (raise arm) := eq_map_raise fun j => by
      have hc := h (Channel.armLogit j)
      rwa [shift_armLogit, Heads.channel_armLogits, Heads.channel_armLogits] at hc
    rw [hrow, softmax_raise]
  odmOffsets := Heads.block_eq Heads.channel_odmOffsets fun j => by
    rw [h, shift_odmOffset, add_zero]
  odmLogits := by
    have hrow : y.odmLogits = x.odmLogits.map (raise odm) := eq_map_raise fun j => by
      have hc := h (Channel.odmLogit j)
      rwa [shift_odmLogit, Heads.channel_odmLogits, Heads.channel_odmLogits] at hc
    rw [hrow, softmax_raise]

/-- The same predictions with a constant added to all confidences of each head of each anchor. -/
structure Shifted {q : Precision} (d : Detector (Wide (Exact T))) (arm odm : Nat → Nat → K)
    (t u : Tensor (Exact T q)) : Prop where
  shape : u.shape = t.shape
  element : ∀ (b : Nat) (a : Fin d.numAnchors) (c : Fin d.predictionWidth),
    u.element? d.numAnchors d.predictionWidth b a c =
      (t.element? d.numAnchors d.predictionWidth b a c).map fun x : K => x + shift (arm b a) (odm b a) c

theorem Shifted.record {q : Precision} {d : Detector (Wide (Exact T))} {arm odm : Nat → Nat → K}
    {t u : Tensor (Exact T q)} (h : Shifted d arm odm t u) (labels : TypedTensor (Exact T)) :
    FailAlike (Pass.Alike d) (Engine.record d (.float q t) labels)
      (Engine.record d (.float q u) labels) := by
  refine Engine.record_of_shares labels h.shape fun b a x y hx hy => ?_
  have hchannel : ∀ c, y.channel c = (x.channel c + shift (arm b a) (odm b a) c : K) := by
    intro c
    have hc := h.element b a c
    rw [hx c, hy c, Option.map_some] at hc
    exact Option.some.inj hc
  exact sameShares_of_shift hchannel

section Weights

variable {d : Detector (Wide (Exact T))} (form : Form)
  {is : List (PassImage (Exact T) p d.numAnchors d.classes)} {b : Nat} (hb : b < is.length)
  (a : Fin d.numAnchors) (x : K)

theorem exists_weight_arm : ∃ w : K,
    (∀ j : Fin 2, entry d (Pass.answer d ⟨p, form, is⟩ x).tensor b a
        (Channel.armLogit j : Fin (10 + (d.classes + 1))) =
      w * excess (is[b].heads.get a).armLogits ((Item.armLabels is[b].item.positive).get a) j) ∧
    ((0 : K) < d.armDivider → 0 < x → is[b].item.numPositives ≠ 0 → 0 < w) := by
  by_cases h0 : is[b].item.numPositives = 0
  · refine ⟨0, fun j => ?_, fun _ _ h => absurd h0 h⟩
    refine (entry_answer x b hb a (Channel.armLogit j)).trans ?_
    rw [Item.gradient_of_no_positives d _ h0, zero_eq, zero_div, zero_mul, zero_mul]
  · refine ⟨x / (is[b].item.numPositives * d.armDivider * is.length), fun j => ?_, fun hd hx _ => ?_⟩
    · refine (entry_answer x b hb a (Channel.armLogit j)).trans ?_
      rw [Item.gradient_armLogits d _ h0, crossEntropyGradient, maskedRows_get,
        if_pos (Vector.get_replicate _ true a), labelGradient_get_excess, Vector.get_map,
        armNormalizer_eq, div_div, div_mul_eq_mul_div, div_mul_eq_mul_div, mul_comm x]
    · have hB : (0 : K) < is.length := Nat.cast_pos.mpr (Nat.zero_lt_of_lt hb)
      have hP : (0 : K) < is[b].item.numPositives := Nat.cast_pos.mpr (Nat.pos_of_ne_zero h0)
      exact div_pos hx (mul_pos (mul_pos hP hd) hB)

theorem exists_weight_odm : ∃ w : K,
    (∀ j : Fin (d.classes + 1), entry d (Pass.answer d ⟨p, form, is⟩ x).tensor b a
        (Channel.odmLogit j) =
      w * excess (is[b].heads.get a).odmLogits (is[b].item.labels.get a) j) ∧
    (0 < x → is[b].item.numPositives ≠ 0 → is[b].item.used.get a = true → 0 < w) := by
  by_cases h0 : is[b].item.numPositives = 0
  · refine ⟨0, fun j => ?_, fun _ h => absurd h0 h⟩
    refine (entry_answer x b hb a (Channel.odmLogit j)).trans ?_
    rw [Item.gradient_of_no_positives d _ h0, zero_eq, zero_div, zero_mul, zero_mul]
  have hentry : ∀ j : Fin (d.classes + 1),
      entry d (Pass.answer d ⟨p, form, is⟩ x).tensor b a (Channel.odmLogit j) =
        (if is[b].item.used.get a then
          excess (is[b].heads.get a).odmLogits (is[b].item.labels.get a) j else 0) /
          is[b].item.numPositives / is.length * x := by
    intro j
    refine (entry_answer x b hb a (Channel.odmLogit j)).trans ?_
    rw [Item.gradient_odmLogits d _ h0, crossEntropyGradient, maskedRows_get, labelGradient_get_excess,
      Vector.get_map, ofNat_eq]
  by_cases hu : is[b].item.used.get a = true
  · refine ⟨x / (is[b].item.numPositives * is.length), fun j => ?_, fun hx _ _ => ?_⟩
    · rw [hentry, if_pos hu, div_div, div_mul_eq_mul_div, div_mul_eq_mul_div, mul_comm x]
    · have hB : (0 : K) < is.length := Nat.cast_pos.mpr (Nat.zero_lt_of_lt hb)
      have hP : (0 : K) < is[b].item.numPositives := Nat.cast_pos.mpr (Nat.pos_of_ne_zero h0)
      exact div_pos hx (mul_pos hP hB)
  · refine ⟨0, fun j => ?_, fun _ _ h => absurd h hu⟩
    rw [hentry, if_neg hu, zero_div, zero_div, zero_mul, zero_mul]

end Weights

theorem sum_weighted (hexp : ∀ x, 0 < T.exp x) {row : Vector (Exact T p) k} {y : Fin k} {w : K}
    {f : Fin k → K} (hf : ∀ j, f j = w * excess row y j) : ∑ j, f j = 0 := by
  simp only [hf, ← Finset.mul_sum, sum_excess hexp row y, mul_zero]

theorem weighted_neg_iff (hexp : ∀ x, 0 < T.exp x) (hk : 2 ≤ k) {row : Vector (Exact T p) k}
    {y : Fin k} {w : K} (hw : 0 < w) {f : Fin k → K} (hf : ∀ j, f j = w * excess row y j) (j : Fin k) :
    f j < 0 ↔ j = y := by
  rw [hf, ← neg_pos, ← mul_neg, mul_pos_iff_of_pos_left hw, neg_pos]
  exact excess_neg_iff hexp row y hk j

/-- What a gradient has in the confidences of one anchor, times `x`: the entries of each head add up to
zero, and where the head counts and `x` is positive, the label has the only negative entry. -/
structure Balanced {d : Detector (Wide (Exact T))} (g : FloatTensor (Exact T))
    (item : Item (Exact T) p d.numAnchors d.classes) (x : K) (b : Nat) (a : Fin d.numAnchors) : Prop where
  sum_arm : ∑ j : Fin 2, entry d g.tensor b a (4 + j) = 0
  sum_odm : ∑ j : Fin (d.classes + 1), entry d g.tensor b a (10 + j) = 0
  neg_arm : 0 < x → item.numPositives ≠ 0 → ∀ j : Fin 2,
    entry d g.tensor b a (4 + j) < 0 ↔ j.val = (item.positive.get a).toNat
  neg_odm : 0 < x → item.numPositives ≠ 0 → item.used.get a = true → ∀ j : Fin (d.classes + 1),
    entry d g.tensor b a (10 + j) < 0 ↔ j = item.labels.get a

theorem balanced (hexp : ∀ x, 0 < T.exp x) {d : Detector (Wide (Exact T))} (hk : 1 ≤ d.classes)
    (hdiv : (0 : K) < d.armDivider) (form : Form)
    {is : List (PassImage (Exact T) p d.numAnchors d.classes)} {b : Nat} (hb : b < is.length)
    (a : Fin d.numAnchors) (x : K) :
    Balanced (Pass.answer d ⟨p, form, is⟩ x) is[b].item x b a := by
  obtain ⟨v, harm, hv⟩ := exists_weight_arm form hb a x
  obtain ⟨w, hodm, hw⟩ := exists_weight_odm form hb a x
  refine ⟨sum_weighted hexp harm, sum_weighted hexp hodm, fun hx h0 j => ?_, fun hx h0 hu j => ?_⟩
  · refine (weighted_neg_iff hexp (le_refl 2) (hv hdiv hx h0) harm j).trans ?_
    rw [Fin.ext_iff, Item.val_armLabels]
  · exact weighted_neg_iff hexp (Nat.succ_le_succ hk) (hw hx h0 hu) hodm j

omit [IsStrictOrderedRing K] in
theorem backward_of_is {d : Detector (Wide (Exact T))} {e : Engine (Exact T) d} {which : Option Nat}
    {id : Nat} {s : SavedPass (Exact T) d.numAnchors d.classes} {factor : Factor (Exact T)} {x : K}
    (ht : e.target which = some id) (hs : e.saved[id]? = some s) (hc : s.consumed = false)
    (hx : factor.Is x) : e.backward which factor = (.ok (s.pass.answer d x), e.consume id) := by
  cases hx with
  | number => exact Engine.backward_number ht hs hc x
  | scalar q => exact Engine.backward_scalar ht hs hc x

/-- Whatever positive function stands for the exponential: predictions that differ by constants in the
confidences of a head have the same loss, are recorded alike and have the same gradients, and every gradient
is balanced. -/
theorem forward_shift {T : Functions ℝ} (hexp : ∀ x, 0 < T.exp x) {config : LossConfig Int ℝ}
    {d : Detector (Wide (Exact T))} (hc : config.check = .ok ())
    (hd : Detector.ofConfig config = .ok d) (e : Engine (Exact T) d) :
    (∀ {q : Precision} {t u : Tensor (Exact T q)} {arm odm : Nat → Nat → ℝ}
        (labels : TypedTensor (Exact T)), Shifted d arm odm t u →
      (e.forward (.float q t) labels).1 = (e.forward (.float q u) labels).1 ∧
      Engine.Alike (e.forward (.float q t) labels).2 (e.forward (.float q u) labels).2 ∧
      ∀ calls, ((e.forward (.float q t) labels).2.backwards calls).1 =
        ((e.forward (.float q u) labels).2.backwards calls).1) ∧
    ∀ {which : Option Nat} {id : Nat} {s : SavedPass (Exact T) d.numAnchors d.classes}
        {factor : Factor (Exact T)} {x : ℝ},
      e.target which = some id → e.saved[id]? = some s → s.consumed = false → factor.Is x →
      ∃ g, e.backward which factor = (.ok g, e.consume id) ∧ g.tensor.shape = s.pass.shape ∧
        ∀ b (hb : b < s.pass.images.length) (a : Fin d.numAnchors),
          Balanced g s.pass.images[b].item x b a := by
  obtain ⟨hk, hdiv, -⟩ := Detector.ofConfig_of_check hc hd
  refine ⟨fun {q t u arm odm} labels h => ?_, fun {which id s factor x} ht hs hu hx => ?_⟩
  · obtain ⟨hf, he⟩ := Engine.alike_finish e (h.record labels)
    rw [← Engine.forward_eq_finish, ← Engine.forward_eq_finish] at hf he
    exact ⟨hf, he, fun calls => (he.backwards calls).1⟩
  · refine ⟨_, backward_of_is ht hs hu hx, rfl, fun b hb a => ?_⟩
    obtain ⟨⟨q, form, is⟩, consumed⟩ := s
    exact balanced hexp hk hdiv form hb a x

section OneAnchor

open OneAnchor

theorem element?_predictions (v : Vector ℝ 12) (b : Nat) (a : Fin 1) (c : Fin 12) :
    (predictions v).element? 1 12 b a c = if b = 0 then some (v.get c) else none := by
  have hsize : (predictions v).data.size = 12 := v.size_toArray
  unfold Tensor.element?
  by_cases hb : b = 0
  · have hi : (b * 1 + a.val) * 12 + c.val = c.val := by omega
    rw [if_pos hb, hi, Array.getElem?_eq_getElem (by rw [hsize]; exact c.isLt)]
    rfl
  · have hi : 12 ≤ (b * 1 + a.val) * 12 + c.val := by omega
    rw [if_neg hb, Array.getElem?_eq_none (by rw [hsize]; exact hi)]

noncomputable def raisedRow : Vector ℝ 12 := Vector.ofFn fun c => (row 0).get c + shift 1 (-1) c

theorem raisedRow_get (c : Fin 12) : raisedRow.get c = (row 0).get c + shift 1 (-1) c := by
  rw [raisedRow, Vector.get_ofFn]

theorem shifted_row : Shifted (detector 1) (fun _ _ => 1) (fun _ _ => -1) (predictions (row 0))
    (predictions raisedRow) where
  shape := rfl
  element := fun b a c => by
    refine (element?_predictions raisedRow b a c).trans ?_
    refine Eq.trans ?_ (congrArg (Option.map _) (element?_predictions (row 0) b a c)).symm
    by_cases hb : b = 0
    · rw [if_pos hb, if_pos hb, Option.map_some]
      exact congrArg some (raisedRow_get c)
    · rw [if_neg hb, if_neg hb, Option.map_none]

theorem forward_shift_row :
    (config 1).check = .ok () ∧ Detector.ofConfig (config 1) = .ok (detector 1) ∧
      Shifted (detector 1) (fun _ _ => 1) (fun _ _ => -1) (predictions (row 0)) (predictions raisedRow) ∧
      ∃ i loss g,
        Engine.record (detector 1) (.float .single (predictions (row 0))) labels =
          .ok ⟨.single, .plain, [i]⟩ ∧ i.item.numPositives = 1 ∧
        ((Engine.initial (detector 1)).forward (.float .single (predictions (row 0))) labels).1 =
          .ok loss ∧
        ((Engine.initial (detector 1)).forward (.float .single (predictions raisedRow)) labels).1 =
          .ok loss ∧
        (((Engine.initial (detector 1)).forward (.float .single (predictions (row 0)))
          labels).2.backward none (.number (1 : ℝ))).1 = .ok g ∧
        entry (detector 1) g.tensor 0 0 4 + entry (detector 1) g.tensor 0 0 5 = 0 ∧
        ∀ j : Fin 2, entry (detector 1) g.tensor 0 0 (4 + j) < 0 ↔
          j.val = (i.item.positive.get ⟨0, Nat.one_pos⟩).toNat := by
  refine ⟨check_config zero_le_one, ofConfig_config 1, shifted_row, ?_⟩
  obtain ⟨i, hr, h1⟩ := record_predictions 1 (row 0)
  have hf := Engine.forward_of_record hr (Engine.initial (detector 1))
  obtain ⟨hloss, -, -⟩ := (forward_shift (T := real) Real.exp_pos (check_config zero_le_one)
    (ofConfig_config 1) (Engine.initial (detector 1))).1 labels shifted_row
  have ht : ((Engine.initial (detector 1)).save ⟨.single, .plain, [i]⟩).target none = some 0 := rfl
  obtain ⟨g, hg, -, hbalanced⟩ := (forward_shift (T := real) Real.exp_pos (check_config zero_le_one)
    (ofConfig_config 1) _).2 ht (Engine.saved_save _ _) rfl (.number (x := (1 : ℝ)))
  have h0 : i.item.numPositives ≠ 0 := by omega
  obtain ⟨hsum, -, hneg, -⟩ := hbalanced 0 Nat.one_pos ⟨0, Nat.one_pos⟩
  refine ⟨i, _, g, hr, h1, congrArg Prod.fst hf, ?_, ?_, ?_, hneg one_pos h0⟩
  · rw [← hloss, hf]
  · rw [hf, hg]
  · rwa [Fin.sum_univ_two] at hsum

end OneAnchor

end Exact

end AnchorLoss
