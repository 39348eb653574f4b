import Mathlib
import AnchorLoss.Proofs.Engine.Run
import AnchorLoss.Proofs.Exact.ClassGradient

namespace AnchorLoss

namespace Exact

variable {p : Precision} {n k : Nat}

noncomputable def share (y : Nat → ℝ) (start width j : Nat) : ℝ :=
  Real.exp (y (start + j)) / ∑ i ∈ Finset.range width, Real.exp (y (start + i))

noncomputable def indicator (j label : Nat) : ℝ := if j = label then 1 else 0

/-- The entry of anchor `a` and channel `c` in the gradient of one of `images` images, times `x`, where the
predictions of the anchor are `y`. -/
noncomputable def closedForm (d : Detector (Wide (Exact real))) (item : Item (Exact real) p n k)
    (images : Nat) (x : ℝ) (a : Fin n) (y : Nat → ℝ) (c : Nat) : ℝ :=
  if item.numPositives = 0 then 0
  else if h : c < 4 then
    if item.positive.get a then
      min (max (y c - (item.targets.get a).get ⟨c, h⟩) (-1)) 1 * x / (item.numPositives * images)
    else 0
  else if c < 6 then
    (share y 4 2 (c - 4) - indicator (c - 4) (item.positive.get a).toNat) * x /
      (item.numPositives * d.armDivider * images)
  else if h : c < 10 then
    if item.positive.get a then
      min (max (y c - (item.targets.get a).get ⟨c - 6, by omega⟩) (-1)) 1 * x /
        (item.numPositives * images)
    else 0
  else if item.used.get a then
    (share y 10 (k + 1) (c - 10) - indicator (c - 10) (item.labels.get a)) * x /
      (item.numPositives * images)
  else 0

theorem scaled_eq (z m b x : ℝ) : z / m / b * x = z * x / (m * b) := by
  rw [div_div, div_mul_eq_mul_div]

theorem score_eq {m : Nat} (row : Vector (Exact real p) m) (label j : Fin m) {y : Nat → ℝ}
    {start : Nat} (hy : ∀ i : Fin m, y (start + i) = row.get i) :
    score row label j = share y start m j - indicator j label := by
  have hsum : (∑ i ∈ Finset.range m, Real.exp (y (start + i))) = ∑ i, Real.exp (row.get i) := by
    rw [← Fin.sum_univ_eq_sum_range]
    exact Finset.sum_congr rfl fun i _ => by rw [hy]
  have hj : (if j = label then 1 else 0 : ℝ) = indicator j label := by
    rw [indicator]
    exact if_congr Fin.ext_iff rfl rfl
  rw [score, softmax_get, share, hy, hsum, hj]

section Entries

variable {d : Detector (Wide (Exact real))} {form : Form}
  {is : List (PassImage (Exact real) p d.numAnchors d.classes)} {b : Nat} (hb : b < is.length)
  (h0 : is[b].item.numPositives ≠ 0) (a : Fin d.numAnchors) (x : ℝ) {y : Nat → ℝ}
  (hy : ∀ c : Fin (10 + (d.classes + 1)), y c = (is[b].heads.get a).channel c)

include h0 hy

theorem entry_armOffsets_eq (j : Fin 4) :
    entry d (Pass.answer d ⟨p, form, is⟩ x).tensor b a
        (Channel.armOffset j : Fin (10 + (d.classes + 1))) =
      closedForm d is[b].item is.length x a y (Channel.armOffset j : Fin (10 + (d.classes + 1))) := by
  have hc : y j = (is[b].heads.get a).armOffsets.get j := by
    rw [← Heads.channel_armOffsets]
    exact hy (Channel.armOffset j)
  rw [entry_answer x b hb a (Channel.armOffset j), Item.gradient_armOffsets d _ h0,
    smoothErrorGradient_get, Vector.get_map, ofNat_eq, scaled_eq, closedForm, if_neg h0]
  simp only [Channel.armOffset, dif_pos j.isLt, hc, huberGradient, clamp_eq, one_eq]
  by_cases hpos : is[b].item.positive.get a = true
  · rw [if_pos hpos, if_pos hpos]
  · rw [if_neg hpos, if_neg hpos, zero_mul, zero_div]

theorem entry_odmOffsets_eq (j : Fin 4) :
    entry d (Pass.answer d ⟨p, form, is⟩ x).tensor b a
        (Channel.odmOffset j : Fin (10 + (d.classes + 1))) =
      closedForm d is[b].item is.length x a y (Channel.odmOffset j : Fin (10 + (d.classes + 1))) := by
  have hc : y (6 + j) = (is[b].heads.get a).odmOffsets.get j := by
    rw [← Heads.channel_odmOffsets]
    exact hy (Channel.odmOffset j)
  have h₄ : ¬ 6 + j.val < 4 := by omega
  have h₆ : ¬ 6 + j.val < 6 := by omega
  have h₁₀ : 6 + j.val < 10 := by omega
  rw [entry_answer x b hb a (Channel.odmOffset j), Item.gradient_odmOffsets d _ h0,
    smoothErrorGradient_get, Vector.get_map, ofNat_eq, scaled_eq, closedForm, if_neg h0]
  simp only [Channel.odmOffset, dif_neg h₄, if_neg h₆, dif_pos h₁₀, hc, huberGradient, clamp_eq, one_eq,
    Nat.add_sub_cancel_left]
  by_cases hpos : is[b].item.positive.get a = true
  · rw [if_pos hpos, if_pos hpos]
  · rw [if_neg hpos, if_neg hpos, zero_mul, zero_div]

theorem entry_armLogits_eq (j : Fin 2) :
    entry d (Pass.answer d ⟨p, form, is⟩ x).tensor b a
        (Channel.armLogit j : Fin (10 + (d.classes + 1))) =
      closedForm d is[b].item is.length x a y (Channel.armLogit j : Fin (10 + (d.classes + 1))) := by
  have hc : ∀ i : Fin 2, y (4 + i) = (is[b].heads.get a).armLogits.get i := by
    intro i
    rw [← Heads.channel_armLogits]
    exact hy (Channel.armLogit i)
  have h₄ : ¬ 4 + j.val < 4 := by omega
  have h₆ : 4 + j.val < 6 := by omega
  rw [entry_armLogits hb h0, scaled_eq, score_eq _ _ _ hc, closedForm, if_neg h0, Item.val_armLabels]
  simp only [Channel.armLogit, dif_neg h₄, if_pos h₆, Nat.add_sub_cancel_left]

theorem entry_odmLogits_eq (j : Fin (d.classes + 1)) :
    entry d (Pass.answer d ⟨p, form, is⟩ x).tensor b a (Channel.odmLogit j) =
      closedForm d is[b].item is.length x a y (Channel.odmLogit j) := by
  have hc : ∀ i : Fin (d.classes + 1), y (10 + i) = (is[b].heads.get a).odmLogits.get i := by
    intro i
    rw [← Heads.channel_odmLogits]
    exact hy (Channel.odmLogit i)
  have h₄ : ¬ 10 + j.val < 4 := by omega
  have h₆ : ¬ 10 + j.val < 6 := by omega
  have h₁₀ : ¬ 10 + j.val < 10 := by omega
  rw [closedForm, if_neg h0]
  simp only [Channel.odmLogit, dif_neg h₄, if_neg h₆, dif_neg h₁₀, Nat.add_sub_cancel_left]
  by_cases hu : is[b].item.used.get a = true
  · rw [if_pos hu, ← score_eq _ _ _ hc, ← scaled_eq]
    exact entry_odmLogits hb h0 a x hu j
  · -- an ignored anchor has no slope that could be scaled
    rw [if_neg hu]
    refine (entry_answer x b hb a (Channel.odmLogit j)).trans ?_
    rw [Item.gradient_odmLogits d _ h0, crossEntropyGradient, maskedRows_get, if_neg hu, zero_div,
      zero_div, zero_mul]

end Entries

theorem entry_eq_closedForm {d : Detector (Wide (Exact real))} {form : Form}
    {is : List (PassImage (Exact real) p d.numAnchors d.classes)} {b : Nat} (hb : b < is.length)
    (a : Fin d.numAnchors) (x : ℝ) {y : Nat → ℝ}
    (hy : ∀ c : Fin (10 + (d.classes + 1)), y c = (is[b].heads.get a).channel c)
    (c : Fin (10 + (d.classes + 1))) :
    entry d (Pass.answer d ⟨p, form, is⟩ x).tensor b a c =
      closedForm d is[b].item is.length x a y c := by
  by_cases h0 : is[b].item.numPositives = 0
  · rw [entry_answer x b hb a c, Item.gradient_of_no_positives d _ h0, closedForm, if_pos h0, zero_eq,
      zero_div, zero_mul]
  · cases c using Heads.channel_cases with
    | armOffsets j => exact entry_armOffsets_eq hb h0 a x hy j
    | armLogits j => exact entry_armLogits_eq hb h0 a x hy j
    | odmOffsets j => exact entry_odmOffsets_eq hb h0 a x hy j
    | odmLogits j => exact entry_odmLogits_eq hb h0 a x hy j

/-- What a backward pass hands out for a pass that was saved in the course of a run and is not used up. -/
theorem backward_closedForm {d : Detector (Wide (Exact real))}
    {rs : List (Engine.Request (Exact real))} {which : Option Nat} {id : Nat}
    {s : SavedPass (Exact real) d.numAnchors d.classes}
    (ht : (Engine.run d rs).target which = some id) (hs : (Engine.run d rs).saved[id]? = some s)
    (hc : s.consumed = false) (x : ℝ) :
    ∃ (before after : List (Engine.Request (Exact real))) (t : Tensor (Exact real s.pass.precision))
      (labels : TypedTensor (Exact real)) (g : FloatTensor (Exact real)),
      rs = before ++ .forward (.float s.pass.precision t) labels :: after ∧
      Engine.Saves d before (.float s.pass.precision t) labels id ∧
      (Engine.run d rs).backward which (.number x) = (.ok g, (Engine.run d rs).consume id) ∧
      (t.shape = [s.pass.images.length, d.numAnchors, 10 + (d.classes + 1)] ∨
        t.shape = [s.pass.images.length, 1, d.numAnchors, 10 + (d.classes + 1)]) ∧
      g.precision = s.pass.precision ∧ g.tensor.shape = t.shape ∧
      ∀ b (hb : b < s.pass.images.length) (a : Fin d.numAnchors) (c : Fin (10 + (d.classes + 1))),
        entry d g.tensor b a c =
          closedForm d s.pass.images[b].item s.pass.images.length x a (entry d t b a) c := by
  obtain ⟨before, predictions, labels, after, rfl, hsaves⟩ :=
    Engine.exists_saves rs (List.getElem?_eq_some_iff.mp hs).1
  obtain ⟨s', pass, hs', rfl, hr⟩ := hsaves.saved after
  obtain rfl := Option.some.inj (hs.symm.trans hs')
  obtain ⟨t, rfl, hrec⟩ := Engine.record_eq_ok hr
  refine ⟨before, after, t, labels, _, rfl, hsaves, Engine.backward_number ht hs hc x, ?_, rfl,
    hrec.shape.symm, ?_⟩
  · rw [hrec.shape]
    cases s.pass.form with
    | plain => exact .inl rfl
    | channel => exact .inr rfl
  · intro b hb a c
    exact entry_eq_closedForm hb a x (fun c => entry_recorded hrec b hb a c) c

section OneAnchor

open OneAnchor

theorem share_row {j : Nat} (hj : j < 2) :
    share (entry (detector 1) (predictions (row 0)) 0 0) 4 2 j = 1 / 2 := by
  have h₄ : entry (detector 1) (predictions (row 0)) 0 0 4 = 0 := rfl
  have h₅ : entry (detector 1) (predictions (row 0)) 0 0 5 = 0 := rfl
  have hsum : (∑ c ∈ Finset.range 2,
      Real.exp (entry (detector 1) (predictions (row 0)) 0 0 (4 + c))) = 2 := by
    rw [Finset.sum_range_succ, Finset.sum_range_one, h₄, h₅, Real.exp_zero]
    norm_num
  obtain rfl | rfl : j = 0 ∨ j = 1 := by omega
  · rw [share, hsum, h₄, Real.exp_zero]
  · rw [share, hsum, h₅, Real.exp_zero]

theorem positive_of_countTrue {mask : Vector Bool 1} (h : countTrue mask = 1) :
    mask.get ⟨0, Nat.one_pos⟩ = true := by
  have hmem := List.count_pos_iff.mp (lt_of_lt_of_eq Nat.one_pos h.symm)
  obtain ⟨j, hj, hpos⟩ := Vector.mem_iff_getElem.mp (Vector.mem_toList_iff.mp hmem)
  obtain rfl := Nat.lt_one_iff.mp hj
  exact hpos

theorem backward_closedForm_row :
    ∃ i g, (Engine.run (detector 1) [.forward (.float .single (predictions (row 0))) labels]).target
        none = some 0 ∧
      (Engine.run (detector 1) [.forward (.float .single (predictions (row 0))) labels]).saved[0]? =
        some ⟨⟨.single, .plain, [i]⟩, false⟩ ∧
      ((Engine.run (detector 1) [.forward (.float .single (predictions (row 0))) labels]).backward none
        (.number (3 : ℝ))).1 = .ok g ∧
      entry (detector 1) g.tensor 0 0 4 = 3 / 2 ∧ entry (detector 1) g.tensor 0 0 5 = -(3 / 2) := by
  obtain ⟨i, hr, h1⟩ := record_predictions 1 (row 0)
  have hrun : Engine.run (detector 1) [.forward (.float .single (predictions (row 0))) labels] =
      (Engine.initial (detector 1)).save ⟨.single, .plain, [i]⟩ :=
    congrArg Prod.snd (Engine.forward_of_record hr (Engine.initial (detector 1)))
  have ht : (Engine.run (detector 1) [.forward (.float .single (predictions (row 0))) labels]).target
      none = some 0 := by rw [hrun]; rfl
  have hs : (Engine.run (detector 1)
      [.forward (.float .single (predictions (row 0))) labels]).saved[0]? =
      some ⟨⟨.single, .plain, [i]⟩, false⟩ := by rw [hrun]; rfl
  obtain ⟨before, after, t, labels', g, hrs, -, hg, -, -, -, hentry⟩ :=
    backward_closedForm ht hs rfl (3 : ℝ)
  have htensor : t = predictions (row 0) := by
    cases before with
    | nil => cases hrs; rfl
    | cons r before => cases before <;> cases hrs
  subst htensor
  obtain ⟨t', -, hrec⟩ := Engine.record_eq_ok hr
  have hpos : i.item.positive.get ⟨0, Nat.one_pos⟩ = true := positive_of_countTrue
    ((hrec.numPositives i (List.mem_singleton.mpr rfl)).symm.trans h1)
  have hdiv : (detector 1).armDivider = (1 : ℝ) := rfl
  have hlogit : ∀ c : Fin 12, 4 ≤ c.val → c.val < 6 →
      entry (detector 1) g.tensor 0 0 c = (1 / 2 - indicator (c - 4) 1) * 3 := by
    intro c hlow hhigh
    refine (hentry 0 Nat.one_pos ⟨0, Nat.one_pos⟩ c).trans ?_
    have h₄ : ¬ c.val < 4 := by omega
    have hj : c.val - 4 < 2 := by omega
    simp only [closedForm, List.getElem_cons_zero, h1, one_ne_zero, if_false, dif_neg h₄, if_pos hhigh,
      hpos, share_row hj, hdiv]
    norm_num
  refine ⟨i, g, ht, hs, congrArg Prod.fst hg, (hlogit 4 (le_refl 4) (by decide)).trans ?_,
    (hlogit 5 (by decide) (by decide)).trans ?_⟩
  · norm_num [indicator]
  · norm_num [indicator]

end OneAnchor

end Exact

end AnchorLoss
