import Mathlib
import AnchorLoss.Proofs.Engine.Concat
import AnchorLoss.Proofs.Exact.BoxGradient

namespace AnchorLoss

namespace Exact

variable {K : Type} [Field K] [LinearOrder K] [FloorRing K] {T : Functions K} {p : Precision}

section Mean

theorem loss_eq {n k : Nat} (form : Form) (is : List (PassImage (Exact T) p n k)) :
    (Pass.loss ⟨p, form, is⟩).value =
      ((is.map fun i => (i.item.terms.total : K)).sum / is.length : K) := by
  rw [Pass.loss, sum_eq, ofNat_eq]

theorem total_eq {d : Detector (Wide (Exact T))} {t : Tensor (Exact T p)} {form : Form}
    {is : List (PassImage (Exact T) p d.numAnchors d.classes)} (hr : Engine.Recorded d t form is) :
    is.map (fun i => (i.item.terms.total : K)) =
      is.map fun i => if i.item.numPositives = 0 then 0 else i.item.terms.total := by
  refine List.map_congr_left fun i hi => ?_
  by_cases h0 : i.item.numPositives = 0
  · have ht := total_of_no_positives d i.item i.heads h0
    rw [show i.item.withTerms d i.heads = i.item from congrArg PassImage.item (hr.terms i hi)] at ht
    rw [if_pos h0, ht]
  · rw [if_neg h0]

theorem total_mean (items : List (Breakdown (Wide (Exact T)))) :
    (Breakdown.mean items).total = ((items.map fun b => (b.total : K)).sum / items.length : K) := by
  cases items with
  | nil => simp [Breakdown.mean, Breakdown.empty, Breakdown.total]
  | cons b items =>
    simp only [Breakdown.mean, List.isEmpty_cons, Bool.false_eq_true, if_false, Breakdown.total,
      Breakdown.meanOf, sum_eq, ofNat_eq, List.sum_map_add]
    ring

theorem total_breakdown {n k : Nat} (form : Form) (is : List (PassImage (Exact T) p n k)) :
    (Pass.breakdown ⟨p, form, is⟩).total = ((Pass.loss ⟨p, form, is⟩).value : K) := by
  have hmap : (Pass.breakdowns ⟨p, form, is⟩).map (fun b => (b.total : K)) =
      is.map fun i => (i.item.terms.total : K) := by
    rw [Pass.breakdowns, List.map_map]
    rfl
  rw [Pass.breakdown, total_mean, loss_eq, hmap, Pass.breakdowns, List.length_map]

theorem loss_append {n k : Nat} (form : Form) {is js : List (PassImage (Exact T) p n k)}
    (hi : (is.length : K) ≠ 0) (hj : (js.length : K) ≠ 0) (h : (is.length + js.length : K) ≠ 0) :
    (is.length + js.length) * (Pass.loss ⟨p, form, is ++ js⟩).value =
      (is.length * (Pass.loss ⟨p, form, is⟩).value + js.length * (Pass.loss ⟨p, form, js⟩).value : K) := by
  simp only [loss_eq, List.map_append, List.sum_append, List.length_append, Nat.cast_add]
  rw [mul_div_cancel₀ _ h, mul_div_cancel₀ _ hi, mul_div_cancel₀ _ hj]

section Entries

variable {d : Detector (Wide (Exact T))} (form : Form)
  {is js : List (PassImage (Exact T) p d.numAnchors d.classes)} (x : K)
  (a : Fin d.numAnchors) (c : Fin d.predictionWidth)

theorem entry_append_left {b : Nat} (hb : b < is.length) (hi : (is.length : K) ≠ 0)
    (h : (is.length + js.length : K) ≠ 0) :
    entry d (Pass.answer d ⟨p, form, is ++ js⟩ x).tensor b a c =
      is.length / (is.length + js.length) * entry d (Pass.answer d ⟨p, form, is⟩ x).tensor b a c := by
  have hlt : b < (is ++ js).length := by
    rw [List.length_append]
    exact Nat.lt_add_right _ hb
  rw [entry_answer x b hlt a c, entry_answer x b hb a c]
  simp only [List.getElem_append_left hb, List.length_append, Nat.cast_add]
  field_simp

theorem entry_append_right {b : Nat} (hb : b < js.length) (hj : (js.length : K) ≠ 0)
    (h : (is.length + js.length : K) ≠ 0) :
    entry d (Pass.answer d ⟨p, form, is ++ js⟩ x).tensor (is.length + b) a c =
      js.length / (is.length + js.length) * entry d (Pass.answer d ⟨p, form, js⟩ x).tensor b a c := by
  have hlt : is.length + b < (is ++ js).length := by
    rw [List.length_append]
    exact Nat.add_lt_add_left hb _
  have hget : (is ++ js)[is.length + b] = js[b] := by
    rw [List.getElem_append_right (Nat.le_add_right _ _)]
    simp only [Nat.add_sub_cancel_left]
  rw [entry_answer x _ hlt a c, entry_answer x b hb a c, hget]
  simp only [List.length_append, Nat.cast_add]
  field_simp

end Entries

end Mean

/-- Put one after the other, two batches leave each other's images alone, in every arithmetic. In exact
arithmetic the loss and the gradient of the whole are those of the parts in proportion to their numbers of
images, and the loss is the total of the reported terms: the mean over all images, of which those without
positives add nothing. -/
theorem forward_joined :
    (∀ {F : Precision → Type} [Arithmetic F] {d : Detector (Wide F)} {e₁ e₂ : Engine F d}
      {X Y Z L M N : TypedTensor F} {lx ly : FloatScalar F},
      Engine.Joined e₁ e₂ X Y Z L M N lx ly → ∀ e : Engine F d, ∃ lz q form is js,
        X.shape.head? = some is.length ∧ Y.shape.head? = some js.length ∧
        (e.forward Z N).1 = .ok lz ∧
        (e₁.forward X L).2.state = some ⟨⟨q, form, is⟩, false⟩ ∧
        (e₂.forward Y M).2.state = some ⟨⟨q, form, js⟩, false⟩ ∧
        (e.forward Z N).2.state = some ⟨⟨q, form, is ++ js⟩, false⟩) ∧
    (∀ {K : Type} [Field K] [LinearOrder K] [IsStrictOrderedRing K] [FloorRing K] {T : Functions K}
      {d : Detector (Wide (Exact T))},
      (∀ {e₁ e₂ : Engine (Exact T) d} {X Y Z L M N : TypedTensor (Exact T)}
        {lx ly : FloatScalar (Exact T)},
        Engine.Joined e₁ e₂ X Y Z L M N lx ly → ∀ e : Engine (Exact T) d, ∃ lz n m,
          X.shape.head? = some n ∧ Y.shape.head? = some m ∧ (e.forward Z N).1 = .ok lz ∧
          (n + m : K) * lz.value = n * lx.value + m * ly.value ∧
          ∀ x : K, ∃ gx gy gz,
            ((e₁.forward X L).2.backward none (.number x)).1 = .ok gx ∧
            ((e₂.forward Y M).2.backward none (.number x)).1 = .ok gy ∧
            ((e.forward Z N).2.backward none (.number x)).1 = .ok gz ∧
            gz.tensor.shape = Z.shape ∧
            (∀ b < n, ∀ (a : Fin d.numAnchors) (c : Fin d.predictionWidth),
              entry d gz.tensor b a c = n / (n + m) * entry d gx.tensor b a c) ∧
            ∀ b < m, ∀ (a : Fin d.numAnchors) (c : Fin d.predictionWidth),
              entry d gz.tensor (n + b) a c = m / (n + m) * entry d gy.tensor b a c) ∧
      ∀ {e : Engine (Exact T) d} {X L : TypedTensor (Exact T)} {loss : FloatScalar (Exact T)},
        (e.forward X L).1 = .ok loss → ∃ q form is terms,
          (e.forward X L).2.state = some ⟨⟨q, form, is⟩, false⟩ ∧
          X.shape.head? = some is.length ∧
          (e.forward X L).2.lastBreakdown = some terms ∧ (loss.value : K) = terms.total ∧
          (loss.value : K) =
            (is.map fun i => if i.item.numPositives = 0 then 0 else i.item.terms.total).sum /
              is.length) := by
  refine ⟨fun {F} _ d e₁ e₂ X Y Z L M N lx ly h e => ?_, fun {K} _ _ _ _ T d =>
    ⟨fun {e₁ e₂ X Y Z L M N lx ly} h e => ?_, fun {e X L loss} h => ?_⟩⟩
  · obtain ⟨q, form, is, js, hxs, hys, -, -, -, hx, hy, hz⟩ := h.forward e
    refine ⟨_, q, form, is, js, ?_, ?_, congrArg Prod.fst hz, ?_, ?_, ?_⟩
    · rw [hxs, Pass.head?_shape]
    · rw [hys, Pass.head?_shape]
    · rw [hx]
      exact e₁.state_save _
    · rw [hy]
      exact e₂.state_save _
    · rw [hz]
      exact e.state_save _
  · obtain ⟨q, form, is, js, hxs, hys, hzs, hi, hj, hx, hy, hz⟩ := h.forward e
    have hn : X.shape.head? = some is.length := by rw [hxs, Pass.head?_shape]
    have hm : Y.shape.head? = some js.length := by rw [hys, Pass.head?_shape]
    have hfirst := h.first
    have hsecond := h.second
    rw [hx] at hfirst ⊢
    rw [hy] at hsecond ⊢
    rw [hz]
    obtain rfl := Except.ok.inj hfirst
    obtain rfl := Except.ok.inj hsecond
    have hi : (is.length : K) ≠ 0 := Nat.cast_ne_zero.mpr hi
    have hj : (js.length : K) ≠ 0 := Nat.cast_ne_zero.mpr hj
    have hij : (is.length + js.length : K) ≠ 0 := by
      rw [← Nat.cast_add, Nat.cast_ne_zero]
      exact fun h0 => hi (by rw [Nat.eq_zero_of_add_eq_zero_right h0, Nat.cast_zero])
    refine ⟨_, is.length, js.length, hn, hm, rfl, loss_append form hi hj hij, fun x => ?_⟩
    refine ⟨_, _, _, congrArg Prod.fst (e₁.backward_save _ x), congrArg Prod.fst (e₂.backward_save _ x),
      congrArg Prod.fst (e.backward_save _ x), ?_, ?_, ?_⟩
    · exact hzs.symm
    · exact fun b hb a c => entry_append_left form x a c hb hi hij
    · exact fun b hb a c => entry_append_right form x a c hb hj hij
  · obtain ⟨⟨q, form, is⟩, hp, rfl⟩ := Engine.record_of_forward h
    obtain ⟨t, rfl, hr⟩ := Engine.record_eq_ok hp
    rw [Engine.forward_of_record hp]
    refine ⟨q, form, is, _, e.state_save _, ?_, rfl, (total_breakdown form is).symm, ?_⟩
    · rw [Engine.shape_of_record hp, Pass.head?_shape]
    · rw [loss_eq, total_eq hr]

section OneAnchor

open OneAnchor

noncomputable def bothRows : Tensor (Exact real .single) :=
  ⟨[2, 1, 12], (predictions (row 0)).data ++ (predictions (row 1)).data, by
    rw [Array.size_append, Tensor.size_data, Tensor.size_data]
    rfl⟩

noncomputable def bothBoxes : Tensor (Exact real .single) :=
  ⟨[2, 1, 7], box.data ++ box.data, by
    rw [Array.size_append, Tensor.size_data]
    rfl⟩

theorem joined_rows : ∃ lx ly, Engine.Joined (Engine.initial (detector 1)) (Engine.initial (detector 1))
    (.float .single (predictions (row 0))) (.float .single (predictions (row 1)))
    (.float .single bothRows) labels labels (.float .single bothBoxes) lx ly := by
  obtain ⟨i, hi, -⟩ := record_predictions 1 (row 0)
  obtain ⟨j, hj, -⟩ := record_predictions 1 (row 1)
  have hrows : (predictions (row 0)).concat? (predictions (row 1)) = some bothRows :=
    Tensor.concat?_eq_some.mpr ⟨1, 1, [1, 12], rfl, rfl, rfl, rfl⟩
  have hboxes : box.concat? box = some bothBoxes :=
    Tensor.concat?_eq_some.mpr ⟨1, 1, [1, 7], rfl, rfl, rfl, rfl⟩
  exact ⟨_, _, congrArg (Option.map (TypedTensor.float .single)) hrows,
    congrArg (Option.map (TypedTensor.float .single)) hboxes,
    congrArg Prod.fst (Engine.forward_of_record hi _), congrArg Prod.fst (Engine.forward_of_record hj _)⟩

theorem forward_joined_rows :
    ∃ lx ly lz gy gz, Engine.Joined (Engine.initial (detector 1)) (Engine.initial (detector 1))
        (.float .single (predictions (row 0))) (.float .single (predictions (row 1)))
        (.float .single bothRows) labels labels (.float .single bothBoxes) lx ly ∧
      ((Engine.initial (detector 1)).forward (.float .single bothRows) (.float .single bothBoxes)).1 = .ok lz ∧
      (∃ terms, ((Engine.initial (detector 1)).forward (.float .single bothRows)
        (.float .single bothBoxes)).2.lastBreakdown = some terms ∧ (lz.value : ℝ) = terms.total) ∧
      (lz.value : ℝ) = (lx.value + ly.value) / 2 ∧
      (((Engine.initial (detector 1)).forward (.float .single (predictions (row 1))) labels).2.backward
        none (.number (1 : ℝ))).1 = .ok gy ∧
      (((Engine.initial (detector 1)).forward (.float .single bothRows) (.float .single bothBoxes)).2.backward
        none (.number (1 : ℝ))).1 = .ok gz ∧
      entry (detector 1) gz.tensor 1 0 0 = 1 / 2 * entry (detector 1) gy.tensor 0 0 0 := by
  obtain ⟨lx, ly, h⟩ := joined_rows
  obtain ⟨lz, n, m, hn, hm, hz, hsum, hg⟩ :=
    (forward_joined.2 (T := real) (d := detector 1)).1 h (Engine.initial (detector 1))
  obtain ⟨q, form, is, terms, -, -, hterms, htotal, -⟩ :=
    (forward_joined.2 (T := real) (d := detector 1)).2 hz
  obtain ⟨gx, gy, gz, -, hgy, hgz, -, -, hentry⟩ := hg (1 : ℝ)
  obtain rfl : 1 = n := Option.some.inj hn
  obtain rfl : 1 = m := Option.some.inj hm
  refine ⟨lx, ly, lz, gy, gz, h, hz, ⟨terms, hterms, htotal⟩, ?_, hgy, hgz, ?_⟩
  · norm_num at hsum
    linarith only [hsum]
  · refine (hentry 0 Nat.one_pos ⟨0, Nat.one_pos⟩ ⟨0, by decide⟩).trans ?_
    norm_num

end OneAnchor

end Exact

end AnchorLoss
