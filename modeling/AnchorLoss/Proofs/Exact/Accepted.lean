import Mathlib
import AnchorLoss.Proofs.Config.Admissible
import AnchorLoss.Proofs.Engine.Record
import AnchorLoss.Proofs.Exact.Basic

namespace AnchorLoss

noncomputable instance : Measure ℝ where
  against x n := some (some (compare x n))

namespace LossConfig

theorem check_eq_ok {c : LossConfig Int ℝ} (h : c.check = .ok ()) :
    2 ≤ c.numClasses ∧ 0 < c.armDivider ∧ 0 ≤ c.epsilon := by
  simp only [check, bind_eq_ok, refuse_eq_ok] at h
  obtain ⟨hk, -, -, -, -, -, -, -, -, -, -, -, hd, he⟩ := h
  have hd : ((0 : Int) : ℝ) < c.armDivider := not_compare_le.mp (Except.ok.inj hd)
  have he : ((0 : Int) : ℝ) ≤ c.epsilon := not_compare_lt.mp (Except.ok.inj he)
  rw [Int.cast_zero] at hd he
  exact ⟨not_compare_lt.mp (Except.ok.inj hk), hd, he⟩

end LossConfig

theorem Detector.ofConfig_of_check {c : LossConfig Int ℝ} {d : Detector ℝ} (h : c.check = .ok ())
    (hd : ofConfig c = .ok d) : 1 ≤ d.classes ∧ 0 < d.armDivider ∧ 0 ≤ d.epsilon := by
  obtain ⟨hk, hdiv, heps⟩ := LossConfig.check_eq_ok h
  unfold ofConfig at hd
  cases hg : Grid.ofConfig c with
  | error e => rw [hg] at hd; cases hd
  | ok grid =>
    rw [hg] at hd
    cases hd
    exact ⟨by dsimp only; omega, hdiv, heps⟩

namespace Exact

variable {K : Type} [Field K] [LinearOrder K] [FloorRing K] {T : Functions K} {q : Precision}

theorem record_of_fit {d : Detector (Wide (Exact T))} {p l : BatchShape} (f : Fit d p l)
    {t : Tensor (Exact T q)} {labels : TypedTensor (Exact T)} (hp : p.toList = t.shape)
    (hl : l.toList = (labels.toFloat q).shape) (hg : Grid.error? (F := Exact T) d.grid = none) :
    ∃ is, Engine.record d (.float q t) labels = .ok ⟨q, p.form, is⟩ := by
  rw [Engine.record_of_fit f hp hl]
  apply Engine.passOf_eq_ok hg p.form
  -- every number has a floor, so that mining does not fail
  exact fun anchors image _ => ⟨_, rfl⟩

end Exact

end AnchorLoss
