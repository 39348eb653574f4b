import Mathlib
import AnchorLoss.Proofs.Binary.Rank
import AnchorLoss.Proofs.Binary.Tiny
import AnchorLoss.Proofs.Config.Admissible
import AnchorLoss.Proofs.Engine.Alike
import AnchorLoss.Proofs.Engine.Order

namespace AnchorLoss

namespace Engine

/-- Only rows with a box change their places, every box overlaps an anchor, and no anchor has its greatest
overlap with two boxes. The pass is then the same, and so is the machine after it, with all that it has
saved for later backward passes. -/
theorem forward_reordered {d : Detector (Wide Binary)} {predictions labels labels' : TypedTensor Binary}
    {σ : Nat → Equiv.Perm (Fin d.maxTruths)} (hl : labels.Reordered d.labelWidth σ labels')
    (hmoved : ∀ batch, validate d predictions labels = .ok batch →
      ∀ b (hb : b < batch.images.length) r, σ b r ≠ r →
        r.val < (Truth.ofRows batch.images[b].rows).length)
    (hs : ∀ batch anchors, validate d predictions labels = .ok batch → Grid.anchors d.grid = .ok anchors →
      ∀ image ∈ batch.images, Separated (anchors.map (·.map convert)) (Truth.ofRows image.rows))
    (e : Engine Binary d) : e.forward predictions labels' = e.forward predictions labels := by
  rw [forward_eq_finish, forward_eq_finish,
    record_reordered (fun _ => Binary.not_isNaN_overlap) hl hmoved hs]

section Tiny

open Tiny

def pair : Detector (Wide Binary) := { detector with maxTruths := 2 }

def squareFirst : TypedTensor Binary :=
  .float .single ⟨[1, 2, 7], #[1, 0, 0, 8, 8, 0, 1, 1, -4, 2, 12, 6, 0, 1], rfl⟩

def tallFirst : TypedTensor Binary :=
  .float .single ⟨[1, 2, 7], #[1, -4, 2, 12, 6, 0, 1, 1, 0, 0, 8, 8, 0, 1], rfl⟩

theorem reordered_pair : squareFirst.Reordered pair.labelWidth (fun _ => Equiv.swap (0 : Fin 2) 1)
    tallFirst := by
  refine .float ⟨rfl, fun b r c => ?_⟩
  unfold Tensor.element?
  by_cases hb : b = 0
  · subst hb
    revert r c
    decide +kernel
  · have hi : ∀ r : Fin 2, 14 ≤ (b * 2 + r) * 7 + c := fun r => by omega
    rw [Array.getElem?_eq_none (hi r), Array.getElem?_eq_none (hi _)]

theorem apart_pair : (validate pair (.float .single (predictions zeros zeros)) squareFirst).toOption.any
    (fun batch => (Grid.anchors pair.grid).toOption.any fun anchors => batch.images.all fun image =>
      (Truth.ofRows image.rows).length = 2 ∧
      (∀ t ∈ Truth.ofRows image.rows, ∃ a, Scalar.lt Scalar.zero
        (((anchors.map (·.map convert)).get a : Box (Binary batch.precision)).overlap t.box)) ∧
      (Truth.ofRows image.rows).Pairwise (Truth.Apart (anchors.map (·.map convert)))) := by
  decide +kernel

theorem separated_pair {batch : Batch Binary pair.numAnchors pair.classes}
    {anchors : Vector (Box (Binary .single)) pair.numAnchors}
    (hv : validate pair (.float .single (predictions zeros zeros)) squareFirst = .ok batch)
    (hg : Grid.anchors pair.grid = .ok anchors) {image : Image (Binary batch.precision) _ _}
    (hi : image ∈ batch.images) : (Truth.ofRows image.rows).length = 2 ∧
      Separated (anchors.map (·.map convert)) (Truth.ofRows image.rows) := by
  have h := apart_pair
  rw [hv, hg] at h
  obtain ⟨hlen, hmet, hapart⟩ := of_decide_eq_true (List.all_eq_true.mp h image hi)
  exact ⟨hlen, .of_apart hmet hapart⟩

theorem numPositives_pair :
    (record pair (.float .single (predictions zeros zeros)) squareFirst).toOption.map
      (fun pass => pass.images.map fun i => i.item.numPositives) = some [2] := by
  decide +kernel

theorem forward_reordered_pair : ∃ pass,
    record pair (.float .single (predictions zeros zeros)) squareFirst = .ok pass ∧
    (pass.images.map fun i => i.item.numPositives) = [2] ∧
    (initial pair).forward (.float .single (predictions zeros zeros)) tallFirst =
      (.ok pass.loss, (initial pair).save pass) := by
  obtain ⟨pass, hp, hcount⟩ := Option.map_eq_some_iff.mp numPositives_pair
  have hr := eq_ok_of_toOption hp
  obtain ⟨anchors, -, hg, -⟩ := validate_of_record hr
  refine ⟨pass, hr, hcount, ?_⟩
  rw [← forward_of_record hr]
  refine forward_reordered reordered_pair (fun batch hv b hb r _ => ?_)
    (fun batch anchors hv hg image hi => (separated_pair hv hg hi).2) _
  rw [(separated_pair hv hg (List.getElem_mem hb)).1]
  exact r.isLt

end Tiny

end Engine

end AnchorLoss
