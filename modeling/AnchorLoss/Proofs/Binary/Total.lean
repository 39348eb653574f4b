import Mathlib
import AnchorLoss.Proofs.Binary.Anchors
import AnchorLoss.Proofs.Binary.Tiny
import AnchorLoss.Proofs.Engine.Record

namespace AnchorLoss

namespace Binary

section Item

variable {d : Detector (Wide Binary)} {p : Precision} {n k : Nat}

theorem mine_of_isFinite (hfin : IsFinite (d.negativeRatio * (Scalar.ofNat n : Wide Binary)))
    (heads : Vector (Heads (Binary p) k) n) (positive : Vector Bool n) :
    ∃ mining, Item.mine d heads positive = .ok mining := by
  have hle : countTrue positive ≤ n := by
    calc countTrue positive ≤ positive.toList.length := List.count_le_length
      _ = n := positive.length_toList
  obtain ⟨limit, hl⟩ := floor_of_isFinite (isFinite_mul_of_le hle hfin)
  have hlimit : Mining.limit Binary d.negativeRatio (countTrue positive) = .ok limit := hl
  unfold Item.mine
  rw [hlimit]
  exact ⟨_, rfl⟩

theorem recordImage_of_isFinite (hfin : IsFinite (d.negativeRatio * (Scalar.ofNat n : Wide Binary)))
    (anchors : Vector (Box (Binary p)) n) (image : Image (Binary p) n k) :
    ∃ i, Engine.recordImage d anchors image = .ok i := by
  obtain ⟨mining, hm⟩ := mine_of_isFinite hfin image.heads
    (Match.positives (Item.assign d anchors (Truth.ofRows image.rows)))
  simp only [Engine.recordImage, Item.forward, hm]
  exact ⟨_, rfl⟩

end Item

theorem record_of_validate {d : Detector (Wide Binary)} (hg : Grid.error? (F := Binary) d.grid = none)
    (hfin : IsFinite (d.negativeRatio * (Scalar.ofNat d.numAnchors : Wide Binary)))
    {predictions labels : TypedTensor Binary} {batch : Batch Binary d.numAnchors d.classes}
    (hv : validate d predictions labels = .ok batch) :
    ∃ pass, Engine.record d predictions labels = .ok pass := by
  obtain ⟨is, hp⟩ := Engine.passOf_eq_ok hg batch.form
    fun anchors image (_ : image ∈ batch.images) => recordImage_of_isFinite hfin anchors image
  rw [Engine.record, hv]
  exact ⟨_, hp⟩

/-- A forward pass over accepted tensors saves one image for each of theirs, and the backward pass after it
answers with a gradient in the shape of the predictions. -/
theorem forward_total {document : Value} {c : LossConfig Int Float}
    (hread : Config.read document = .ok c) (hstrides : c.HasWordStrides)
    (hratios : ∀ r ∈ c.aspectRatios, IsFinite (p := .double) r)
    (hnegative : IsFinite (p := .double) (c.negativeRatio * Scalar.ofInt c.numAnchors)) :
    ∃ d, Detector.ofConfig c = .ok d ∧ 0 < d.numAnchors ∧
      ∀ (e : Engine Binary d) (predictions labels : TypedTensor Binary)
        (batch : Batch Binary d.numAnchors d.classes), validate d predictions labels = .ok batch →
        ∃ loss pass, (e.forward predictions labels).1 = .ok loss ∧
          (e.forward predictions labels).2.state = some ⟨pass, false⟩ ∧
          predictions.shape = pass.form.shape pass.images.length d.numAnchors d.predictionWidth ∧
          ∀ factor : Wide Binary, ∃ gradient,
            ((e.forward predictions labels).2.backward none (.number factor)).1 = .ok gradient ∧
            gradient.tensor.shape = predictions.shape := by
  have hadm := LossConfig.admissible_of_check (Config.check_of_read hread)
  have hg := hadm.error?_eq_none hstrides hratios
  rw [← hadm.numAnchors_eq] at hnegative
  refine ⟨c.detector, hadm.ofConfig, hadm.numAnchors_pos, fun e predictions labels batch hv => ?_⟩
  obtain ⟨pass, hr⟩ := record_of_validate hg hnegative hv
  obtain ⟨t, rfl, hrec⟩ := Engine.record_eq_ok hr
  rw [Engine.forward_of_record hr]
  refine ⟨pass.loss, pass, rfl, e.saved_save pass, hrec.shape, fun factor => ?_⟩
  rw [e.backward_save pass factor]
  exact ⟨_, rfl, hrec.shape.symm⟩

section Tiny

open Tiny

theorem read_config : Config.read config.toMap = .ok config := by
  have hs : Config.sectionEntries config.toMap = .ok (config.toEntries .int .float) := rfl
  have hu : Config.rejectUnknown (config.toEntries .int .float) = .ok () := rfl
  have ho : Config.ofEntries (config.toEntries .int .float) = .ok config := rfl
  simp only [Config.read, hs, hu, ho, bind, Except.bind, LossConfig.checked, check_config]
  rfl

theorem forward_total_tiny : Config.read config.toMap = .ok config ∧ config.HasWordStrides ∧
    (∀ r ∈ config.aspectRatios, IsFinite (p := .double) r) ∧
    IsFinite (p := .double) (config.negativeRatio * Scalar.ofInt config.numAnchors) ∧
    ∃ loss gradient,
      ((Engine.initial detector).forward (.float .single (predictions zeros noOffsets)) labels).1 =
        .ok loss ∧
      (((Engine.initial detector).forward (.float .single (predictions zeros noOffsets)) labels).2.backward
        none (.number 1)).1 = .ok gradient ∧ gradient.tensor.shape = [1, 2, 12] := by
  have hstrides : config.HasWordStrides := by
    unfold LossConfig.HasWordStrides
    decide
  have hratios : ∀ r ∈ config.aspectRatios, IsFinite (p := .double) r := by
    unfold IsFinite
    decide +kernel
  have hnegative : IsFinite (p := .double) (config.negativeRatio * Scalar.ofInt config.numAnchors) := by
    unfold IsFinite
    decide +kernel
  refine ⟨read_config, hstrides, hratios, hnegative, ?_⟩
  obtain ⟨d, hd, -, hrun⟩ := forward_total read_config hstrides hratios hnegative
  obtain rfl := Except.ok.inj (hd.symm.trans ofConfig_config)
  obtain ⟨batch, hv⟩ : ∃ batch,
      validate detector (.float .single (predictions zeros noOffsets)) labels = .ok batch := ⟨_, rfl⟩
  obtain ⟨loss, pass, hf, -, -, hb⟩ := hrun (Engine.initial detector) _ _ batch hv
  obtain ⟨gradient, hg, hshape⟩ := hb 1
  exact ⟨loss, gradient, hf, hg, hshape⟩

end Tiny

end Binary

end AnchorLoss
