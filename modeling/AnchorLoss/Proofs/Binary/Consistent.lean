import Mathlib
import AnchorLoss.Proofs.Binary.Count
import AnchorLoss.Proofs.Binary.Masking
import AnchorLoss.Proofs.Config.Admissible
import AnchorLoss.Proofs.Item.Consistent

namespace AnchorLoss

namespace Binary

theorem forward_consistent {c : LossConfig Int Float} {d : Detector (Wide Binary)}
    (hc : c.check = .ok ()) (hd : Detector.ofConfig c = .ok d) {predictions labels : TypedTensor Binary}
    {loss : FloatScalar Binary} (e : Engine Binary d)
    (hf : (e.forward predictions labels).1 = .ok loss) :
    ∃ (pass : Pass Binary d.numAnchors d.classes) (anchors : Vector (Box (Binary .single)) d.numAnchors)
      (images : List (Image (Binary pass.precision) d.numAnchors d.classes)),
      (e.forward predictions labels).2.state = some ⟨pass, false⟩ ∧
      Grid.anchors (F := Binary) d.grid = .ok anchors ∧
      validate d predictions labels = .ok ⟨pass.precision, pass.form, images⟩ ∧
      List.Forall₂ (fun image i => i.heads = image.heads ∧
        Item.Consistent d (anchors.map (·.map convert)) image.heads (Truth.ofRows image.rows) i.item ∧
        ∀ a, ((i.item.labels.get a).val : Int) < c.numClasses) images pass.images := by
  have hadm := LossConfig.admissible_of_check hc
  obtain rfl := Except.ok.inj (hd.symm.trans hadm.ofConfig)
  obtain ⟨pass, hr, rfl⟩ := Engine.record_of_forward hf
  obtain ⟨anchors, images, hg, hv, hi⟩ := Engine.validate_of_record hr
  refine ⟨pass, anchors, images, ?_, hg, hv, hi.imp fun image i h => ?_⟩
  · rw [Engine.forward_of_record hr]
    exact e.saved_save pass
  · obtain ⟨item, hitem, rfl⟩ := Engine.forward_of_recordImage h
    have ht : Nonneg (value (convert (F := Binary) (p := .double) (q := pass.precision)
        c.iouThreshold)) := by
      apply nonneg_convert
      apply nonneg_of_le
      exact hadm.iouThreshold
    refine ⟨rfl, ?_, fun a => ?_⟩
    · apply Item.consistent_of_forward
      · exact fun x hx => lt_zero_of_lt ht hx
      · exact fun m limit hl => limit_nonneg hadm.negativeRatio hl
      · exact hitem
    · rw [← hadm.classes]
      exact_mod_cast (item.labels.get a).isLt

section Tiny

open Tiny

theorem numPositives_zeros :
    (Engine.record detector (.float .single (predictions zeros zeros)) labels).toOption.map
      (fun pass => pass.images.map fun i => i.item.numPositives) = some [1] := by
  decide +kernel

theorem forward_consistent_tiny :
    config.check = .ok () ∧ Detector.ofConfig config = .ok detector ∧ ∃ loss pass i,
      ((Engine.initial detector).forward (.float .single (predictions zeros zeros)) labels).1 =
        .ok loss ∧
      ((Engine.initial detector).forward (.float .single (predictions zeros zeros)) labels).2.state =
        some ⟨pass, false⟩ ∧ pass.images = [i] ∧ i.item.numPositives = 1 ∧ i.item.numNegatives ≤ 3 ∧
      ∀ a, (i.item.anchorLabels.get a).code = 1 ↔ i.item.positive.get a = true := by
  refine ⟨check_config, ofConfig_config, ?_⟩
  obtain ⟨pass, hp, hcount⟩ := Option.map_eq_some_iff.mp numPositives_zeros
  have hf := Engine.forward_of_record (eq_ok_of_toOption hp) (Engine.initial detector)
  obtain ⟨pass', anchors, images, hs, -, -, hi⟩ :=
    forward_consistent check_config ofConfig_config (Engine.initial detector) (congrArg Prod.fst hf)
  have hpass : some ⟨pass, false⟩ = some (SavedPass.mk pass' false) := by
    rw [← hs, hf]
    rfl
  cases hpass
  obtain ⟨i, his, h1⟩ := List.map_eq_singleton_iff.mp hcount
  rw [his] at hi
  cases hi with
  | cons h hnil =>
    obtain ⟨-, h, -⟩ := h
    obtain ⟨limit, hl, hle⟩ := h.numNegatives_le
    have hthree : Arithmetic.floor (F := Binary)
        (detector.negativeRatio * (Scalar.ofNat 1 : Wide Binary)) = .ok 3 := by decide +kernel
    rw [h1] at hl
    cases hl.symm.trans hthree
    exact ⟨_, pass, i, congrArg Prod.fst hf, hs, his, h1, by omega, h.code_positive⟩

end Tiny

end Binary

end AnchorLoss
