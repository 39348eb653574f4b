import Mathlib
import AnchorLoss.Proofs.Exact.BoxGradient
import AnchorLoss.Proofs.Exact.Softmax

namespace AnchorLoss

def PassImage.withChannel {F : Precision → Type} [Arithmetic F] {p : Precision} {n k : Nat}
    (d : Detector (Wide F)) (i : PassImage F p n k) (a : Fin n) (c : Fin (10 + (k + 1))) (x : F p) :
    PassImage F p n k :=
  i.withHeads d (setAt i.heads a ((i.heads.get a).setChannel c x))

namespace Exact

variable {p : Precision} {n k : Nat}

theorem hasDerivAt_crossEntropy {epsilon : Exact real p} (h : (0 : ℝ) ≤ epsilon)
    (rows : Vector (Vector (Exact real p) k) n) (labels : Vector (Fin k) n) {mask : Vector Bool n}
    {a : Fin n} (ha : mask.get a = true) (j : Fin k) :
    HasDerivAt (F := ℝ)
      (fun x : ℝ => (crossEntropy epsilon (setAt rows a (setAt (rows.get a) j x)) labels mask :
        Exact real p))
      (damping epsilon (rows.get a) (labels.get a) * score (rows.get a) (labels.get a) j)
      ((rows.get a).get j) := by
  have hterm : ∀ i, HasDerivAt (F := ℝ)
      (fun x : ℝ => if mask.get i then (labelLoss epsilon
        ((setAt rows a (setAt (rows.get a) j x)).get i) (labels.get i) : Exact real p) else (0 : ℝ))
      (if i = a then damping epsilon (rows.get a) (labels.get a) *
        score (rows.get a) (labels.get a) j else 0) ((rows.get a).get j) := by
    intro i
    by_cases hi : i = a
    · subst hi
      simp only [get_setAt, ha, if_true]
      exact hasDerivAt_labelLoss (rows.get i) h (labels.get i) j
    · simp only [get_setAt, if_neg hi]
      exact hasDerivAt_const _ _
  have hsum := HasDerivAt.fun_sum fun i (_ : i ∈ Finset.univ) => hterm i
  rw [Finset.sum_ite_eq' Finset.univ a, if_pos (Finset.mem_univ a)] at hsum
  simp only [crossEntropy, maskedSum_eq]
  exact hsum

variable (d : Detector (Wide (Exact real)))

section Channels

variable {d} (i : PassImage (Exact real) p n k) (a : Fin n) (h0 : i.item.numPositives ≠ 0)
  (h : (0 : ℝ) ≤ d.epsilon)

theorem map_set_eq_self {β : Type} (f : Heads (Exact real p) k → β)
    (heads : Vector (Heads (Exact real p) k) n) (a : Fin n) {h' : Heads (Exact real p) k}
    (hf : f h' = f (heads.get a)) : (setAt heads a h').map f = heads.map f := by
  have hget : f (heads.get a) = (heads.map f).get a := (Vector.get_map ..).symm
  rw [map_setAt, hf, hget, setAt_get]

include h0 h

theorem hasDerivAt_armLogits (j : Fin 2) :
    HasDerivAt (F := ℝ)
      (fun x : ℝ => ((i.withChannel d a (Channel.armLogit j) x).item.terms.total : Exact real p))
      (damping d.epsilon (i.heads.get a).armLogits ((Item.armLabels i.item.positive).get a) *
          score (i.heads.get a).armLogits ((Item.armLabels i.item.positive).get a) j /
        (i.item.numPositives * d.armDivider))
      ((i.heads.get a).armLogits.get j) := by
  have hce := hasDerivAt_crossEntropy (p := p) h (i.heads.map Heads.armLogits)
    (Item.armLabels i.item.positive) (Vector.get_replicate n true a) j
  rw [Vector.get_map] at hce
  simp only [PassImage.withChannel, PassImage.withHeads, Item.withTerms, Item.termsOf, if_neg h0,
    Breakdown.total, Heads.setChannel_armLogits, map_setAt, armNormalizer_eq,
    map_set_eq_self Heads.armOffsets, map_set_eq_self Heads.odmOffsets,
    map_set_eq_self Heads.odmLogits]
  exact (((hce.div_const _).add_const _).add_const _).add_const _

theorem hasDerivAt_odmLogits (hu : i.item.used.get a = true) (j : Fin (k + 1)) :
    HasDerivAt (F := ℝ)
      (fun x : ℝ => ((i.withChannel d a (Channel.odmLogit j) x).item.terms.total : Exact real p))
      (damping d.epsilon (i.heads.get a).odmLogits (i.item.labels.get a) *
          score (i.heads.get a).odmLogits (i.item.labels.get a) j / i.item.numPositives)
      ((i.heads.get a).odmLogits.get j) := by
  have hce := hasDerivAt_crossEntropy (p := p) h (i.heads.map Heads.odmLogits) i.item.labels hu j
  rw [Vector.get_map] at hce
  simp only [PassImage.withChannel, PassImage.withHeads, Item.withTerms, Item.termsOf, if_neg h0,
    Breakdown.total, Heads.setChannel_odmLogits, map_setAt, ofNat_eq,
    map_set_eq_self Heads.armOffsets, map_set_eq_self Heads.odmOffsets,
    map_set_eq_self Heads.armLogits]
  exact ((hce.div_const _).const_add _).add_const _

end Channels

/-- The loss of a pass as a function of the prediction in one channel, with the masks, the labels and the
targets that were recorded. -/
noncomputable def lossAt (form : Form) (is : List (PassImage (Exact real) p n k)) (b : Nat) (a : Fin n)
    (c : Fin (10 + (k + 1))) (x : ℝ) : ℝ :=
  (Pass.loss ⟨p, form, is.modify b fun i => i.withChannel d a c x⟩).value

variable {d} in
theorem lossAt_channel {t : Tensor (Exact real p)} {form : Form}
    {is : List (PassImage (Exact real) p d.numAnchors d.classes)} (ht : Engine.Recorded d t form is)
    {b : Nat} (hb : b < is.length) (a : Fin d.numAnchors) (c : Fin (10 + (d.classes + 1))) :
    lossAt d form is b a c ((is[b].heads.get a).channel c) = (Pass.loss ⟨p, form, is⟩).value := by
  have hi : is[b].withChannel d a c ((is[b].heads.get a).channel c) = is[b] := by
    rw [PassImage.withChannel, Heads.setChannel_channel, setAt_get]
    exact ht.terms is[b] (List.getElem_mem hb)
  rw [lossAt, List.modify_eq_set_get _ hb, List.get_eq_getElem, hi, List.set_getElem_self]

theorem hasDerivAt_lossAt {form : Form} {is : List (PassImage (Exact real) p n k)} {b : Nat}
    (hb : b < is.length) {a : Fin n} {c : Fin (10 + (k + 1))} {x slope : ℝ}
    (h : HasDerivAt (F := ℝ) (fun y : ℝ =>
      ((is[b].withChannel d a c y).item.terms.total : Exact real p)) slope x) :
    HasDerivAt (lossAt d form is b a c) (slope / is.length) x := by
  have hfun : lossAt d form is b a c = fun y =>
      (((is.map fun i => (i.item.terms.total : Exact real p)).sum : ℝ) +
        (-(is[b].item.terms.total) + (is[b].withChannel d a c y).item.terms.total)) / is.length := by
    funext y
    have hb' : b < (is.map fun i => (i.item.terms.total : Exact real p)).length := by
      rwa [List.length_map]
    have hsum := List.sum_set' (is.map fun i => (i.item.terms.total : Exact real p)) b
      (is[b].withChannel d a c y).item.terms.total
    rw [dif_pos hb', List.getElem_map] at hsum
    rw [← hsum, ← List.map_set, lossAt, Pass.loss, sum_eq, ofNat_eq, List.length_modify,
      List.modify_eq_set_get _ hb]
    rfl
  rw [hfun]
  exact ((h.const_add _).const_add _).div_const _

theorem crossEntropyGradient_get (normalizer : Exact real p) (rows : Vector (Vector (Exact real p) k) n)
    (labels : Vector (Fin k) n) {mask : Vector Bool n} {a : Fin n} (ha : mask.get a = true)
    (j : Fin k) : ((crossEntropyGradient normalizer rows labels mask).get a).get j =
      (score (rows.get a) (labels.get a) j / normalizer : ℝ) := by
  rw [crossEntropyGradient, maskedRows_get, if_pos ha, labelGradient_get]

section Entries

variable {d} {form : Form} {is : List (PassImage (Exact real) p d.numAnchors d.classes)} {b : Nat}
  (hb : b < is.length) (h0 : is[b].item.numPositives ≠ 0) (a : Fin d.numAnchors) (x : ℝ)

include h0

theorem entry_armLogits (j : Fin 2) :
    entry d (Pass.answer d ⟨p, form, is⟩ x).tensor b a
        (Channel.armLogit j : Fin (10 + (d.classes + 1))) =
      score (is[b].heads.get a).armLogits ((Item.armLabels is[b].item.positive).get a) j /
        (is[b].item.numPositives * d.armDivider) / is.length * x := by
  rw [entry_answer x b hb a (Channel.armLogit j), Item.gradient_armLogits d _ h0,
    crossEntropyGradient_get _ _ _ (Vector.get_replicate _ true a), Vector.get_map, armNormalizer_eq]

theorem entry_odmLogits (hu : is[b].item.used.get a = true) (j : Fin (d.classes + 1)) :
    entry d (Pass.answer d ⟨p, form, is⟩ x).tensor b a (Channel.odmLogit j) =
      score (is[b].heads.get a).odmLogits (is[b].item.labels.get a) j /
        is[b].item.numPositives / is.length * x := by
  rw [entry_answer x b hb a (Channel.odmLogit j), Item.gradient_odmLogits d _ h0,
    crossEntropyGradient_get _ _ _ hu, Vector.get_map, ofNat_eq]

end Entries

/-- What an entry `c` of a gradient is that belongs to class `j` of a row with label `y`, when the gradient
is that of a pass times `x`: the slope of the loss without the guard, which is the derivative of the loss
only where the guard is zero. -/
structure ClassSlope (d : Detector (Wide (Exact real))) (form : Form)
    (is : List (PassImage (Exact real) p d.numAnchors d.classes)) (g : FloatTensor (Exact real)) (x : ℝ)
    (b : Nat) (a : Fin d.numAnchors) (c : Fin (10 + (d.classes + 1))) {m : Nat}
    (row : Vector (Exact real p) m) (y j : Fin m) (normalizer : ℝ) : Prop where
  entry : entry d g.tensor b a c = x / (is.length * normalizer) * score row y j
  derivative : HasDerivAt (lossAt d form is b a c)
    (1 / (is.length * normalizer) * damping d.epsilon row y * score row y j) (row.get j)
  agrees : Exact.entry d g.tensor b a c =
    x / (is.length * normalizer) * damping d.epsilon row y * score row y j ↔ x = 0 ∨ d.epsilon = 0

theorem classSlope {d : Detector (Wide (Exact real))} (h : (0 : ℝ) ≤ d.epsilon) {form : Form}
    {is : List (PassImage (Exact real) p d.numAnchors d.classes)} {g : FloatTensor (Exact real)} {x : ℝ}
    {b : Nat} (hb : b < is.length) {a : Fin d.numAnchors} {c : Fin (10 + (d.classes + 1))} {m : Nat}
    (hm : 2 ≤ m) {row : Vector (Exact real p) m} {y j : Fin m} {normalizer : ℝ}
    (hn : normalizer ≠ 0)
    (hentry : entry d g.tensor b a c = score row y j / normalizer / is.length * x)
    (htotal : HasDerivAt (F := ℝ) (fun z : ℝ =>
      ((is[b].withChannel d a c z).item.terms.total : Exact real p))
      (damping d.epsilon row y * score row y j / normalizer) (row.get j)) :
    ClassSlope d form is g x b a c row y j normalizer := by
  have hB : (is.length : ℝ) ≠ 0 := Nat.cast_ne_zero.mpr (by omega)
  have hs : score row y j ≠ 0 := score_ne_zero row hm y j
  refine ⟨?_, ?_, ?_⟩
  · rw [hentry]
    field_simp
  · refine (hasDerivAt_lossAt d hb htotal).congr_deriv ?_
    field_simp
  · rw [hentry, ← damping_eq_one row h y]
    have hz : score row y j / normalizer / is.length * x =
        x / (is.length * normalizer) * damping d.epsilon row y * score row y j ↔
        x * (damping d.epsilon row y - 1) = 0 := by
      constructor
      · intro he
        field_simp at he
        linarith
      · intro he
        field_simp
        linarith
    rw [hz, mul_eq_zero, sub_eq_zero]

section Entries

variable {d : Detector (Wide (Exact real))} (heps : (0 : ℝ) ≤ d.epsilon) (form : Form)
  {is : List (PassImage (Exact real) p d.numAnchors d.classes)} {b : Nat} (hb : b < is.length)
  (h0 : is[b].item.numPositives ≠ 0) (a : Fin d.numAnchors) (x : ℝ)

include heps h0

theorem classSlope_armLogits (hd : (0 : ℝ) < d.armDivider) (j : Fin 2) :
    ClassSlope d form is (Pass.answer d ⟨p, form, is⟩ x) x b a (Channel.armLogit j)
      (is[b].heads.get a).armLogits ((Item.armLabels is[b].item.positive).get a) j
      (is[b].item.numPositives * d.armDivider) := by
  have hn : (is[b].item.numPositives * d.armDivider : ℝ) ≠ 0 :=
    mul_ne_zero (Nat.cast_ne_zero.mpr h0) hd.ne'
  exact classSlope heps hb (le_refl 2) hn (entry_armLogits hb h0 a x j)
    (hasDerivAt_armLogits is[b] a h0 heps j)

theorem classSlope_odmLogits (hk : 1 ≤ d.classes) (hu : is[b].item.used.get a = true)
    (j : Fin (d.classes + 1)) :
    ClassSlope d form is (Pass.answer d ⟨p, form, is⟩ x) x b a (Channel.odmLogit j)
      (is[b].heads.get a).odmLogits (is[b].item.labels.get a) j is[b].item.numPositives :=
  classSlope heps hb (by omega) (Nat.cast_ne_zero.mpr h0) (entry_odmLogits hb h0 a x hu j)
    (hasDerivAt_odmLogits is[b] a h0 heps hu j)

end Entries

/-- The confidence entries of the gradient of admissible settings: they leave out the guard of the
logarithm, so that they are the derivative of the loss only where epsilon is zero. -/
theorem forward_classSlope {config : LossConfig Int ℝ} {d : Detector (Wide (Exact real))}
    (hc : config.check = .ok ()) (hd : Detector.ofConfig config = .ok d) {t : Tensor (Exact real p)}
    {labels : TypedTensor (Exact real)} {loss : FloatScalar (Exact real)} (e : Engine (Exact real) d)
    (hf : (e.forward (.float p t) labels).1 = .ok loss) (x : ℝ) :
    ∃ (g : FloatTensor (Exact real)) (form : Form)
      (is : List (PassImage (Exact real) p d.numAnchors d.classes)),
      (e.forward (.float p t) labels).2.state = some ⟨⟨p, form, is⟩, false⟩ ∧
      Engine.Recorded d t form is ∧
      ((e.forward (.float p t) labels).2.backward none (.number x)).1 = .ok g ∧
      (∀ b (hb : b < is.length) (a : Fin d.numAnchors) (c : Fin (10 + (d.classes + 1))),
        lossAt d form is b a c ((is[b].heads.get a).channel c) = loss.value) ∧
      ∀ b (hb : b < is.length), is[b].item.numPositives ≠ 0 → ∀ a : Fin d.numAnchors,
        (∀ j : Fin 2, ClassSlope d form is g x b a (Channel.armLogit j) (is[b].heads.get a).armLogits
          ((Item.armLabels is[b].item.positive).get a) j (is[b].item.numPositives * d.armDivider)) ∧
        (is[b].item.used.get a = true → ∀ j : Fin (d.classes + 1),
          ClassSlope d form is g x b a (Channel.odmLogit j) (is[b].heads.get a).odmLogits
            (is[b].item.labels.get a) j is[b].item.numPositives) := by
  obtain ⟨hk, hdiv, heps⟩ := Detector.ofConfig_of_check hc hd
  obtain ⟨pass, hr, rfl⟩ := Engine.record_of_forward hf
  obtain ⟨t', ht, hrec⟩ := Engine.record_eq_ok hr
  obtain ⟨q, form, is⟩ := pass
  cases ht
  rw [Engine.forward_of_record hr]
  refine ⟨Pass.answer d ⟨q, form, is⟩ x, form, is, e.saved_save _, hrec, ?_, ?_, ?_⟩
  · rw [Engine.backward_save]
    rfl
  · intro b hb a c
    exact lossAt_channel hrec hb a c
  · intro b hb h0 a
    exact ⟨fun j => classSlope_armLogits heps form hb h0 a x hdiv j,
      fun hu j => classSlope_odmLogits heps form hb h0 a x hk hu j⟩

section OneAnchor

open OneAnchor

theorem forward_classSlope_row :
    (config 1).check = .ok () ∧ Detector.ofConfig (config 1) = .ok (detector 1) ∧
      ∃ loss g i,
        ((Engine.initial (detector 1)).forward (.float .single (predictions (row 0))) labels).1 =
          .ok loss ∧
        (((Engine.initial (detector 1)).forward (.float .single (predictions (row 0)))
          labels).2.backward none (.number (1 : ℝ))).1 = .ok g ∧
        i.item.numPositives = 1 ∧
        ∀ j : Fin 2, ClassSlope (p := .single) (detector 1) .plain [i] g 1 0 ⟨0, Nat.one_pos⟩
          (Channel.armLogit j) (i.heads.get ⟨0, Nat.one_pos⟩).armLogits
          ((Item.armLabels i.item.positive).get ⟨0, Nat.one_pos⟩) j
          (i.item.numPositives * (detector 1).armDivider) := by
  refine ⟨check_config zero_le_one, ofConfig_config 1, ?_⟩
  obtain ⟨i, hr, h1⟩ := record_predictions 1 (row 0)
  have hf := Engine.forward_of_record hr (Engine.initial (detector 1))
  obtain ⟨g, form, is, hs, -, hg, -, h⟩ := forward_classSlope (check_config zero_le_one)
    (ofConfig_config 1) (Engine.initial (detector 1)) (congrArg Prod.fst hf) (1 : ℝ)
  rw [hf] at hs
  cases hs
  refine ⟨_, g, i, congrArg Prod.fst hf, hg, h1, fun j => ?_⟩
  have h0 : i.item.numPositives ≠ 0 := by omega
  exact (h 0 Nat.one_pos h0 ⟨0, Nat.one_pos⟩).1 j

/-- With an epsilon of one, an entry of the gradient is not the derivative of the loss. -/
theorem entry_ne_derivative :
    ∃ loss g i,
      ((Engine.initial (detector 1)).forward (.float .single (predictions (row 0))) labels).1 =
        .ok loss ∧
      (((Engine.initial (detector 1)).forward (.float .single (predictions (row 0)))
        labels).2.backward none (.number (1 : ℝ))).1 = .ok g ∧
      Engine.record (detector 1) (.float .single (predictions (row 0))) labels =
        .ok ⟨.single, .plain, [i]⟩ ∧
      ∃ slope, HasDerivAt (lossAt (p := .single) (detector 1) .plain [i] 0 ⟨0, Nat.one_pos⟩
          (Channel.armLogit 0)) slope ((i.heads.get ⟨0, Nat.one_pos⟩).armLogits.get 0) ∧
        entry (detector 1) g.tensor 0 0 4 ≠ slope := by
  obtain ⟨i, hr, h1⟩ := record_predictions 1 (row 0)
  have hf := Engine.forward_of_record hr (Engine.initial (detector 1))
  have h0 : i.item.numPositives ≠ 0 := by omega
  have heps : (0 : ℝ) ≤ (detector 1).epsilon := zero_le_one
  have hb : 0 < [i].length := Nat.one_pos
  obtain ⟨-, hslope, hagrees⟩ :=
    classSlope_armLogits heps .plain hb h0 ⟨0, Nat.one_pos⟩ 1 one_pos 0
  refine ⟨_, Pass.answer (detector 1) ⟨.single, .plain, [i]⟩ (1 : ℝ), i, congrArg Prod.fst hf, ?_, hr,
    _, hslope, fun he => ?_⟩
  · rw [hf, Engine.backward_save]
    rfl
  · obtain h | h := hagrees.mp he
    · exact one_ne_zero h
    · exact one_ne_zero h

end OneAnchor

end Exact

end AnchorLoss
