import Mathlib
import AnchorLoss.Matching

namespace AnchorLoss

namespace Match

variable {α : Type} [Scalar α] {n g : Nat}

theorem positive_improve (b : Fin g) (overlap : α) (m : Match α g) :
    (m.improve b overlap).positive = m.positive := by
  unfold improve
  split <;> rfl

theorem positive_meet (threshold : α) (b : Fin g) (overlap : α) (claimed : Bool) (m : Match α g) :
    (m.meet threshold b overlap claimed).positive =
      (claimed || m.positive || Scalar.lt threshold overlap) := by
  cases claimed with
  | false => simp [meet, exceed, positive_improve]
  | true => simp [meet, exceed, claim]

theorem exists_positive_meetAll (threshold : α) (b : Fin g) (column : Vector α (n + 1))
    (ms : Vector (Match α g) (n + 1)) :
    ∃ a, ((meetAll threshold b column ms).get a).positive = true := by
  refine ⟨Scalar.argmax column, ?_⟩
  rw [meetAll, Vector.get_ofFn, positive_meet, Scalar.argmax?, beq_self_eq_true, Bool.true_or,
    Bool.true_or]

/-- The last box makes some anchor positive. -/
theorem exists_positive (threshold : α) (overlap : Fin (n + 1) → Fin (g + 1) → α) :
    ∃ a, ((assign threshold overlap).get a).positive = true := by
  rw [assign, List.finRange_succ_last, List.foldl_concat]
  exact exists_positive_meetAll threshold (Fin.last g) _ _

omit [Scalar α] in
theorem countTrue_positives {ms : Vector (Match α g) n} {a : Fin n}
    (h : (ms.get a).positive = true) : countTrue (positives ms) ≠ 0 := by
  have hm : true ∈ (positives ms).toList := by
    have hget : (positives ms).get a = true := by rw [positives, Vector.get_map, h]
    rw [← hget, Vector.get_eq_getElem, Vector.mem_toList_iff]
    exact Vector.getElem_mem a.isLt
  exact Nat.pos_iff_ne_zero.mp (List.count_pos_iff.mpr hm)

end Match

end AnchorLoss
