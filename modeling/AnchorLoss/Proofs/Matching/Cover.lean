import Mathlib
import AnchorLoss.Proofs.Binary.Rank
import AnchorLoss.Proofs.Matching.Matched
import AnchorLoss.Proofs.Matching.Standing
import AnchorLoss.Proofs.Mining.Count

namespace AnchorLoss

namespace Match

open Scalar

variable {α : Type} [Scalar α] {n g : Nat}

/-- Which anchors are positive, and which boxes they have. -/
structure Covering (threshold : α) (overlap : Fin n → Fin g → α) (ms : Vector (Match α g) n) : Prop where
  positive_iff : ∀ a, (positives ms).get a = true ↔
    ∃ b, IsFirstMax (overlap · b) a ∨ lt threshold (overlap a b)
  exists_truth : ∀ a, (positives ms).get a = true →
    ∃ b, (ms.get a).truth = some b ∧ ∀ c, le (overlap a c) (overlap a b)
  countTrue_eq_zero_iff : countTrue (positives ms) = 0 ↔ g = 0
  le_of_claimed : ∀ a b c, IsFirstMax (overlap · b) a → (ms.get a).truth = some c →
    le (overlap a b) (overlap a c)

variable [LawfulLe α] {threshold : α} {overlap : Fin n → Fin g → α}

theorem lt_zero_of_admits (ht : admits threshold = true) {x : α} (hx : lt threshold x) : lt zero x := by
  obtain ⟨h0, -⟩ := Bool.and_eq_true_iff.mp ht
  exact lt_of_le_of_lt h0 hx

/-- Where no overlap is positive, all of them are zero, and none exceeds that of the box in place. -/
theorem Standing.le_of_truth (ho : ∀ a b, le zero (overlap a b) = true) {a : Fin n}
    {bs : List (Fin g)} {m : Match α g} (h : Standing threshold overlap a bs m) {c : Fin g}
    (hc : m.truth = some c) {b : Fin g} (hb : b ∈ bs) : le (overlap a b) (overlap a c) := by
  have hle := h.greatest.le b hb (LawfulLe.not_isNaN_of_le (ho a b)).2
  by_cases hlt : lt zero m.overlap = true
  · have hfirst := h.overlapped hlt
    rw [hc] at hfirst
    exact LawfulLe.le_trans hle (eq_iff.mp hfirst.1.2).2
  · have hzero := le_of_not_lt LawfulLe.not_isNaN_zero h.greatest.isNumber hlt
    exact LawfulLe.le_trans hle (LawfulLe.le_trans hzero (ho a c))

/-- Overlaps that are not negative are covered by any threshold of the admitted range. -/
theorem covering_assign {threshold : α} (ht : admits threshold = true)
    {overlap : Fin (n + 1) → Fin g → α} (ho : ∀ a b, le zero (overlap a b) = true) :
    Covering threshold overlap (assign threshold overlap) := by
  have hn : ∀ a b, ¬ isNaN (overlap a b) := fun a b => (LawfulLe.not_isNaN_of_le (ho a b)).2
  have hstanding := Standing.assign threshold overlap
  have hsettled := settled_assign (fun x => lt_zero_of_admits ht) overlap
  have hget : ∀ a, (positives (assign threshold overlap)).get a =
      ((assign threshold overlap).get a).positive := fun a => Vector.get_map ..
  have hpositive : ∀ a, (positives (assign threshold overlap)).get a = true ↔
      ∃ b, IsFirstMax (overlap · b) a ∨ lt threshold (overlap a b) := fun a => by
    rw [hget, (hstanding a).positive]
    simp [claims_iff_isFirstMax (hn · _)]
  refine ⟨hpositive, fun a ha => ?_, ?_, fun a b c _ hc => ?_⟩
  · rw [hget] at ha
    obtain ⟨b, hb⟩ := Option.ne_none_iff_exists'.mp ((hsettled a).truth ha)
    exact ⟨b, hb, fun c => (hstanding a).le_of_truth ho hb (List.mem_finRange c)⟩
  · cases g with
    | zero =>
      refine iff_of_true (countTrue_eq_zero.mpr fun a => ?_) rfl
      rw [← Bool.not_eq_true, hpositive]
      exact fun ⟨b, _⟩ => b.elim0
    | succ g =>
      obtain ⟨a, ha⟩ := exists_positive threshold overlap
      exact iff_of_false (countTrue_positives ha) (Nat.succ_ne_zero g)
  · exact (hstanding a).le_of_truth ho hc (List.mem_finRange b)

def nearTable (a b : Fin 2) : Float32 := (#v[#v[0, 0.75], #v[0, 0.25]].get a).get b

theorem covering_assign_near : admits (0.5 : Float32) = true ∧ (∀ a b, le zero (nearTable a b) = true) ∧
    IsFirstMax (nearTable · ⟨0, by decide⟩) ⟨0, by decide⟩ ∧
    Covering 0.5 nearTable (assign 0.5 nearTable) ∧
    (positives (assign 0.5 nearTable)).toList = [true, false] := by
  have hle : ∀ p, LawfulLe (Binary p) := inferInstance
  have hsingle : LawfulLe Float32 := hle .single
  have ht : admits (0.5 : Float32) = true := by decide +kernel
  have ho : ∀ a b, le zero (nearTable a b) = true := by decide +kernel
  exact ⟨ht, ho, by unfold IsFirstMax; decide +kernel, covering_assign ht ho, by decide +kernel⟩

end Match

end AnchorLoss
