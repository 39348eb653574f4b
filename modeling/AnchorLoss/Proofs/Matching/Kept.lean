import Mathlib
import AnchorLoss.Proofs.Binary.Rank
import AnchorLoss.Proofs.Matching.Resolved

namespace AnchorLoss

namespace Scalar

variable {α : Type} [Scalar α] {n : Nat} {v : Fin n → α}

theorem IsFirstMax.unique {i j : Fin n} (hi : IsFirstMax v i) (hj : IsFirstMax v j) : i = j := by
  obtain h | h | h := lt_trichotomy i j
  · exact absurd (hi.1 j) (lt_iff.mp (hj.2 i h)).2
  · exact h
  · exact absurd (hj.1 i) (lt_iff.mp (hi.2 j h)).2

theorem exists_isFirstMax [LawfulLe α] (hv : ∀ i, ¬ isNaN (v i)) (i : Fin n) : ∃ j, IsFirstMax v j := by
  cases n with
  | zero => exact i.elim0
  | succ n =>
    exact ⟨argmax (Vector.ofFn v), (isArgmax_iff_isFirstMax hv).mp (argmax?_ofFn_eq_some_iff.mp rfl)⟩

end Scalar

namespace Match

open Scalar

section Table

variable {α : Type} [Scalar α] {n g : Nat}

/-- What becomes of a box that competes for its anchors with the others. -/
structure Contested (threshold : α) (overlap : Fin n → Fin g → α) (ms : Vector (Match α g) n) (b : Fin g) :
    Prop where
  claimed : ∃ a, IsFirstMax (overlap · b) a ∧ (ms.get a).positive ∧
    ∃ c, (ms.get a).truth = some c ∧ IsFirstMax (overlap a) c
  kept : ∀ a, IsFirstMax (overlap · b) a → IsFirstMax (overlap a) b →
    (ms.get a).positive ∧ (ms.get a).truth = some b
  /-- The box may be kept at an anchor that is positive for another one. -/
  kept_iff : (∃ a, (ms.get a).positive ∧ (ms.get a).truth = some b) ↔
    ∃ a, lt zero (overlap a b) ∧ IsFirstMax (overlap a) b ∧
      ∃ c, IsFirstMax (overlap · c) a ∨ lt threshold (overlap a c)

variable [LawfulLe α] {threshold : α} {overlap : Fin n → Fin g → α}

variable (hn : ∀ a b, ¬ isNaN (overlap a b))

include hn

namespace Standing

variable {a : Fin n} {m : Match α g} (h : Standing threshold overlap a (List.finRange g) m)

include h

theorem positive_iff :
    m.positive ↔ ∃ b, IsFirstMax (overlap · b) a ∨ lt threshold (overlap a b) := by
  simp [h.positive, claims_iff_isFirstMax (hn · _)]

theorem exists_truth (hpos : ∃ b, lt zero (overlap a b)) :
    ∃ c, m.truth = some c ∧ IsFirstMax (overlap a) c := by
  obtain ⟨c, hc, heq, hmin⟩ := h.exists_isLeast hpos
  obtain ⟨hle, hge⟩ := eq_iff.mp heq
  have hmax : ∀ d, le (overlap a d) (overlap a c) := fun d =>
    LawfulLe.le_trans (h.greatest.le d (List.mem_finRange d) (hn a d)) hge
  refine ⟨c, hc, hmax, fun d hd => lt_iff.mpr ⟨hmax d, fun hcd => ?_⟩⟩
  -- an earlier box with this overlap would have been the first
  have hd' : eq (overlap a d) m.overlap :=
    eq_iff.mpr ⟨LawfulLe.le_trans (hmax d) hle, LawfulLe.le_trans hge hcd⟩
  exact absurd (hmin hd') (not_le_of_gt hd)

theorem truth_eq_some_iff (hpos : ∃ b, lt zero (overlap a b)) {b : Fin g} :
    m.truth = some b ↔ IsFirstMax (overlap a) b := by
  obtain ⟨c, hc, hmax⟩ := h.exists_truth hn hpos
  rw [hc, Option.some_inj]
  constructor
  · rintro rfl
    exact hmax
  · exact hmax.unique

theorem lt_zero_of_truth {a' : Fin n} {b : Fin g} (hb : lt zero (overlap a' b)) (hm : m.truth = some b) :
    lt zero (overlap a b) := by
  by_cases hpos : ∃ c, lt zero (overlap a c)
  · obtain ⟨c, hc⟩ := hpos
    have hmax := (h.truth_eq_some_iff hn ⟨c, hc⟩).mp hm
    exact hmax.lt_of_lt hc
  · have hfirst := h.isFirst_claimed fun c hc => hpos ⟨c, hc⟩
    rw [hm] at hfirst
    have hclaimed := (isArgmax_iff_isFirstMax fun a => hn a b).mp hfirst.1.2
    exact hclaimed.lt_of_lt hb

end Standing

theorem contested_assign {b : Fin g} (hb : ∃ a, lt zero (overlap a b)) :
    Contested threshold overlap (assign threshold overlap) b := by
  have hstanding := Standing.assign threshold overlap
  obtain ⟨a', hb⟩ := hb
  have hpos : ∀ a, IsFirstMax (overlap · b) a → ∃ c, lt zero (overlap a c) := fun a ha =>
    ⟨b, ha.lt_of_lt hb⟩
  have hpositive : ∀ a, IsFirstMax (overlap · b) a → ((assign threshold overlap).get a).positive :=
    fun a ha => ((hstanding a).positive_iff hn).mpr ⟨b, .inl ha⟩
  refine ⟨?_, fun a ha hmax => ?_, ?_, ?_⟩
  · obtain ⟨a, ha⟩ := exists_isFirstMax (fun a => hn a b) a'
    exact ⟨a, ha, hpositive a ha, (hstanding a).exists_truth hn (hpos a ha)⟩
  · exact ⟨hpositive a ha, ((hstanding a).truth_eq_some_iff hn (hpos a ha)).mpr hmax⟩
  · rintro ⟨a, hp, ht⟩
    have h0 := (hstanding a).lt_zero_of_truth hn hb ht
    have hmax := ((hstanding a).truth_eq_some_iff hn ⟨b, h0⟩).mp ht
    exact ⟨a, h0, hmax, ((hstanding a).positive_iff hn).mp hp⟩
  · rintro ⟨a, h0, hmax, hp⟩
    have ht := ((hstanding a).truth_eq_some_iff hn ⟨b, h0⟩).mpr hmax
    exact ⟨a, ((hstanding a).positive_iff hn).mpr hp, ht⟩

end Table

section Boxes

variable {p : Precision} {n k : Nat}

/-- A box that overlaps some anchor has its best anchor made positive; it is the target of a positive anchor,
with its coordinates and its class, exactly if it is the first of those that such an anchor overlaps most. -/
theorem contested_ofBoxes (threshold : Binary p) (anchors : Vector (Box (Binary p)) n)
    (truths : List (Truth (Binary p) k)) (b : Fin truths.length)
    (hb : ∃ a, lt zero ((anchors.get a).overlap ((Item.boxesOf truths).get b))) :
    Contested threshold (fun a b => (anchors.get a).overlap ((Item.boxesOf truths).get b))
      (ofBoxes threshold anchors (Item.boxesOf truths)) b ∧
    ∀ m : Match (Binary p) truths.length, m.truth = some b →
      m.target (Item.boxesOf truths) = (truths.get b).box ∧ Item.classOf truths m = (truths.get b).label := by
  have hle : ∀ p, LawfulLe (Binary p) := inferInstance
  have := hle p
  refine ⟨contested_assign (fun a b => Binary.not_isNaN_overlap _ _) hb,
    fun m hm => ⟨?_, Item.classOf_of_truth hm⟩⟩
  rw [target, hm]
  exact Item.boxesOf_get truths b

def adjacentAnchors : Vector (Box (Binary .single)) 2 := #v[⟨⟨4, 4⟩, ⟨8, 8⟩⟩, ⟨⟨12, 4⟩, ⟨8, 8⟩⟩]

def crowdedTruths : List (Truth (Binary .single) 1) :=
  [⟨⟨⟨4, 4⟩, ⟨8, 8⟩⟩, Fin.last 1⟩, ⟨⟨⟨5, 4⟩, ⟨8, 8⟩⟩, Fin.last 1⟩]

theorem contested_ofBoxes_crowded :
    Contested (0.5 : Float32)
      (fun a b => (adjacentAnchors.get a).overlap ((Item.boxesOf (F := Binary) crowdedTruths).get b))
      (ofBoxes (0.5 : Float32) adjacentAnchors (Item.boxesOf (F := Binary) crowdedTruths)) ⟨0, by decide⟩ ∧
    (ofBoxes (0.5 : Float32) adjacentAnchors (Item.boxesOf (F := Binary) crowdedTruths)).toList.map
      (fun m => (m.truth.map Fin.val, m.positive)) = [(some 0, true), (some 1, false)] :=
  ⟨(contested_ofBoxes _ adjacentAnchors crowdedTruths ⟨0, by decide⟩
    ⟨⟨0, by decide⟩, by decide +kernel⟩).1, by decide +kernel⟩

/-- The second of `crowdedTruths` overlaps both anchors: at the first it comes behind the other box, and the second,
which it overlaps most of all boxes, is not positive. -/
theorem exists_lost : ¬ ∀ (n g : Nat) (anchors : Vector (Box (Binary .single)) n)
    (boxes : Vector (Box (Binary .single)) g), Function.Injective boxes.get → g ≤ n →
    (∀ b, ∃ a, lt zero ((anchors.get a).overlap (boxes.get b))) →
    ∀ b, ∃ a, ((ofBoxes (0.5 : Float32) anchors boxes).get a).positive ∧
      ((ofBoxes (0.5 : Float32) anchors boxes).get a).truth = some b := by
  intro h
  let boxes : Vector (Box (Binary .single)) 2 := Item.boxesOf (F := Binary) crowdedTruths
  have hcenter : ∀ b c, eq (boxes.get b).center.y (boxes.get c).center.y ↔ b = c := by decide +kernel
  have hinj : Function.Injective boxes.get := fun b c hbc =>
    (hcenter b c).mp (hbc ▸ (hcenter b b).mpr rfl)
  have hpos : ∀ b, lt zero ((adjacentAnchors.get ⟨0, by decide⟩).overlap (boxes.get b)) := by
    decide +kernel
  have hlost : ¬ ∃ a, ((ofBoxes (0.5 : Float32) adjacentAnchors boxes).get a).positive ∧
      ((ofBoxes (0.5 : Float32) adjacentAnchors boxes).get a).truth = some ⟨1, by decide⟩ := by
    decide +kernel
  exact hlost (h 2 2 adjacentAnchors boxes hinj (Nat.le_refl 2) (fun b => ⟨_, hpos b⟩) ⟨1, by decide⟩)

end Boxes

end Match

end AnchorLoss
