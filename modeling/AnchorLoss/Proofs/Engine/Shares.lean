import Mathlib
import AnchorLoss.Proofs.Engine.Alike

namespace AnchorLoss

section Losses

variable {α : Type} [Scalar α] {n k : Nat} {logits logits' : Vector (Vector α k) n}
  (h : ∀ i, softmax (logits'.get i) = softmax (logits.get i))

include h

theorem crossEntropy_of_softmax (eps : α) (labels : Vector (Fin k) n) (mask : Vector Bool n) :
    crossEntropy eps logits' labels mask = crossEntropy eps logits labels mask :=
  maskedSum_congr fun i _ => by rw [labelLoss, labelLoss, h]

theorem crossEntropyGradient_of_softmax (normalizer : α) (labels : Vector (Fin k) n)
    (mask : Vector Bool n) : crossEntropyGradient normalizer logits' labels mask =
      crossEntropyGradient normalizer logits labels mask :=
  maskedRows_congr fun i _ => by rw [labelGradient, labelGradient, h]

end Losses

theorem Mining.select_of_softmax {α : Type} [Scalar α] {n k : Nat}
    {logits logits' : Vector (Vector α (k + 1)) n}
    (h : ∀ i, softmax (logits'.get i) = softmax (logits.get i)) (threshold eps : α) (limit : Int)
    (positive : Vector Bool n) :
    select threshold eps limit logits' positive = select threshold eps limit logits positive := by
  simp only [select, candidates, backgroundConfidence, labelLoss, h]

/-- Predictions for an anchor with the same offsets and the same shares of the classes. -/
structure Heads.SameShares {α : Type} [Scalar α] {k : Nat} (h h' : Heads α k) : Prop where
  armOffsets : h'.armOffsets = h.armOffsets
  armLogits : softmax h'.armLogits = softmax h.armLogits
  odmOffsets : h'.odmOffsets = h.odmOffsets
  odmLogits : softmax h'.odmLogits = softmax h.odmLogits

variable {F : Precision → Type} [Arithmetic F] {p : Precision} {n k : Nat} (d : Detector (Wide F))

namespace Item

variable {h h' : Vector (Heads (F p) k) n} (hs : ∀ a, (h.get a).SameShares (h'.get a))

omit [Arithmetic F] in
theorem map_eq_of_get {β : Type} {f : Heads (F p) k → β} (hf : ∀ a, f (h'.get a) = f (h.get a)) :
    h'.map f = h.map f := by
  ext a ha
  rw [Vector.getElem_map, Vector.getElem_map]
  exact hf ⟨a, ha⟩

omit [Arithmetic F] in
theorem softmax_map_get {α : Type} [Scalar α] {m : Nat} {h h' : Vector (Heads α k) n} {f : Heads α k → Vector α m}
    (hf : ∀ a, softmax (f (h'.get a)) = softmax (f (h.get a))) (a : Fin n) :
    softmax ((h'.map f).get a) = softmax ((h.map f).get a) := by
  rw [Vector.get_map, Vector.get_map, hf]

include hs

theorem forward_of_shares (anchors : Vector (Box (F p)) n) (truths : List (Truth (F p) k)) :
    forward d anchors h' truths = forward d anchors h truths := by
  have harm := softmax_map_get fun a => (hs a).armLogits
  have hodm := softmax_map_get fun a => (hs a).odmLogits
  simp only [forward, mine, termsOf, Mining.select_of_softmax harm, crossEntropy_of_softmax harm,
    crossEntropy_of_softmax hodm, map_eq_of_get fun a => (hs a).armOffsets,
    map_eq_of_get fun a => (hs a).odmOffsets]

theorem gradient_of_shares (item : Item F p n k) : item.gradient d h' = item.gradient d h := by
  have harm := softmax_map_get fun a => (hs a).armLogits
  have hodm := softmax_map_get fun a => (hs a).odmLogits
  simp only [gradient, crossEntropyGradient_of_softmax harm, crossEntropyGradient_of_softmax hodm,
    map_eq_of_get fun a => (hs a).armOffsets, map_eq_of_get fun a => (hs a).odmOffsets]

end Item

namespace Engine

variable {d}

theorem recordImage_of_shares (anchors : Vector (Box (F p)) n) {i i' : Image (F p) n k}
    (hr : i'.rows = i.rows) (hs : ∀ a, (i.heads.get a).SameShares (i'.heads.get a)) :
    FailAlike (PassImage.Alike d) (recordImage d anchors i) (recordImage d anchors i') := by
  unfold recordImage
  rw [hr, Item.forward_of_shares d hs]
  cases Item.forward d anchors i.heads (Truth.ofRows i.rows) with
  | error e => exact .error _
  | ok item => exact .ok ⟨rfl, (Item.gradient_of_shares d hs item).symm⟩

omit [Arithmetic F] in
theorem element?_heads {α : Type} {s l : BatchShape} (f : Fit d s l) {t labels : Tensor α}
    (ht : s.toList = t.shape) (hl : l.toList = labels.shape) (b : Nat)
    (hb : b < (imagesOf f t labels ht hl).length) (a : Fin d.numAnchors)
    (c : Fin (10 + (d.classes + 1))) : t.element? d.numAnchors d.predictionWidth b a c =
      some (((imagesOf f t labels ht hl)[b].heads.get a).channel c) := by
  refine element?_headsOf t (volume_of_fit f ht) ?_ a c
  rw [← heads_imagesOf f ht hl, List.getElem?_map, List.getElem?_eq_getElem hb, Option.map_some]

theorem record_of_shares {q : Precision} {t u : Tensor (F q)} (labels : TypedTensor F)
    (hs : u.shape = t.shape)
    (h : ∀ b (a : Fin d.numAnchors) (x y : Heads (F q) d.classes),
      (∀ c : Fin (10 + (d.classes + 1)),
        t.element? d.numAnchors d.predictionWidth b a c = some (x.channel c)) →
      (∀ c : Fin (10 + (d.classes + 1)),
        u.element? d.numAnchors d.predictionWidth b a c = some (y.channel c)) → x.SameShares y) :
    FailAlike (Pass.Alike d) (record d (.float q t) labels) (record d (.float q u) labels) := by
  refine record_failAlike hs rfl fun p l f ht hu hl _ => ?_
  refine List.forall₂_iff_get.mpr ⟨by rw [length_imagesOf, length_imagesOf], fun b hb hb' anchors => ?_⟩
  refine recordImage_of_shares anchors ?_ fun a => ?_
  · simp only [imagesOf, List.get_eq_getElem, List.getElem_zipWith, imageOf]
  · exact h b a _ _ (element?_heads f ht hl b hb a) (element?_heads f hu hl b hb' a)

end Engine

end AnchorLoss
