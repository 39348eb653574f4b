import Mathlib
import AnchorLoss.Proofs.Except
import AnchorLoss.Item
import AnchorLoss.Proofs.Matching.Matched
import AnchorLoss.Proofs.Mining.Count

namespace AnchorLoss

namespace Item

variable {F : Precision → Type} [Arithmetic F] {p : Precision} {n k : Nat}

/-- The masks, labels, targets and counts of an item, for anchors that were matched to `truths` and
predictions `heads` that were mined. -/
structure Consistent (d : Detector (Wide F)) (anchors : Vector (Box (F p)) n)
    (heads : Vector (Heads (F p) k) n) (truths : List (Truth (F p) k)) (item : Item F p n k) : Prop where
  used : ∀ a, item.positive.get a = true → item.used.get a = true
  numPositives : item.numPositives = countTrue item.positive
  numNegatives : ∃ mining, mine d heads item.positive = .ok mining ∧ item.numNegatives = mining.kept
  numNegatives_le : ∃ limit : Int,
    Arithmetic.floor (F := F) (d.negativeRatio * (Scalar.ofNat item.numPositives : Wide F)) = .ok limit ∧
      (item.numNegatives : Int) ≤ limit
  code_positive : ∀ a, (item.anchorLabels.get a).code = 1 ↔ item.positive.get a = true
  code_negative : ∀ a, (item.anchorLabels.get a).code = 0 ↔
    item.used.get a = true ∧ item.positive.get a = false
  code_ignored : ∀ a, (item.anchorLabels.get a).code = -1 ↔ item.used.get a = false
  /-- The label of a surviving negative is the background, that of any other anchor the class of its box,
  or the background where it has none. -/
  label_negative : ∀ a, item.used.get a = true → item.positive.get a = false →
    item.labels.get a = background
  label_matched : ∀ a, ¬(item.used.get a = true ∧ item.positive.get a = false) →
    ∀ b, ((assign d anchors truths).get a).truth = some b → item.labels.get a = (truths.get b).label
  label_unmatched : ∀ a, ((assign d anchors truths).get a).truth = none →
    item.labels.get a = background
  target : ∀ a, item.positive.get a = true → ∃ b, ((assign d anchors truths).get a).truth = some b ∧
    item.targets.get a = Box.offsets (convert d.epsilon) (truths.get b).box (anchors.get a)

theorem code_ofMasks {pos used : Bool} (h : pos = true → used = true) :
    ((AnchorLabel.ofMasks pos used).code = 1 ↔ pos = true) ∧
      ((AnchorLabel.ofMasks pos used).code = 0 ↔ used = true ∧ pos = false) ∧
      ((AnchorLabel.ofMasks pos used).code = -1 ↔ used = false) := by
  cases pos with
  | false => cases used <;> decide
  | true =>
    obtain rfl := h rfl
    decide

section Masks

variable (item : Item F p n k) (a : Fin n)

omit [Arithmetic F] in
theorem anchorLabels_get : item.anchorLabels.get a =
    AnchorLabel.ofMasks (item.positive.get a) (item.used.get a) := by
  simp [anchorLabels, Vector.get_eq_getElem]

omit [Arithmetic F] in
theorem numNegatives_eq {negative : Vector Bool n}
    (hn : ∀ a, negative.get a = (item.used.get a && !item.positive.get a)) :
    item.numNegatives = countTrue negative := by
  have hmask : item.positive.zipWith (fun pos used => used && !pos) item.used = negative := by
    ext i hi
    have h := hn ⟨i, hi⟩
    simp only [Vector.get_eq_getElem] at h
    simp [h]
  rw [numNegatives, hmask]

end Masks

omit [Arithmetic F] in
theorem boxesOf_get (truths : List (Truth (F p) k)) (b : Fin truths.length) :
    (boxesOf truths).get b = (truths.get b).box := by
  simp [boxesOf, Vector.get_eq_getElem]

section Matched

variable {d : Detector (Wide F)} {anchors : Vector (Box (F p)) n} {truths : List (Truth (F p) k)}
  {ms : Vector (Match (F p) truths.length) n} {a : Fin n} {b : Fin truths.length}

omit [Arithmetic F] in
theorem labelsOf_get (ms : Vector (Match (F p) truths.length) n) (negative : Vector Bool n) (a : Fin n) :
    (labelsOf truths ms negative).get a =
      if negative.get a then background else classOf truths (ms.get a) := by
  rw [labelsOf, Vector.get_ofFn]

omit [Arithmetic F] in
theorem classOf_of_truth {m : Match (F p) truths.length} (h : m.truth = some b) :
    classOf truths m = (truths.get b).label := by
  rw [classOf, h]

omit [Arithmetic F] in
theorem classOf_of_none {m : Match (F p) truths.length} (h : m.truth = none) :
    classOf truths m = background := by
  rw [classOf, h]

theorem targetsOf_get (h : (ms.get a).truth = some b) : (targetsOf d anchors truths ms).get a =
    Box.offsets (convert d.epsilon) (truths.get b).box (anchors.get a) := by
  rw [targetsOf, Vector.get_ofFn, Match.target, h]
  simp only [boxesOf_get]

end Matched

theorem mine_eq_ok {d : Detector (Wide F)} {heads : Vector (Heads (F p) k) n}
    {positive : Vector Bool n} {mining : Mining n} (h : mine d heads positive = .ok mining) :
    (∀ a, mining.negative.get a = true → positive.get a = false) ∧
      countTrue mining.negative = mining.kept ∧
      ∃ limit : Int, Arithmetic.floor (F := F)
        (d.negativeRatio * (Scalar.ofNat (countTrue positive) : Wide F)) = .ok limit ∧
        (0 ≤ limit → (mining.kept : Int) ≤ limit) := by
  obtain ⟨limit, hl, rfl⟩ := exists_of_map_eq_ok h
  refine ⟨fun a => ?_, ?_, limit, hl, fun h0 => ?_⟩
  · apply Mining.positive_of_negative
  · apply Mining.countTrue_select
  · apply Mining.kept_select_le
    exact h0

theorem consistent_of_forward {d : Detector (Wide F)} {anchors : Vector (Box (F p)) n}
    {heads : Vector (Heads (F p) k) n} {truths : List (Truth (F p) k)} {item : Item F p n k}
    (ht : ∀ x : F p, Scalar.lt (convert d.iouThreshold) x = true → Scalar.lt Scalar.zero x = true)
    (hl : ∀ (m : Nat) (limit : Int),
      Arithmetic.floor (F := F) (d.negativeRatio * (Scalar.ofNat m : Wide F)) = .ok limit → 0 ≤ limit)
    (h : forward d anchors heads truths = .ok item) : Consistent d anchors heads truths item := by
  obtain ⟨mining, hm, hitem⟩ := exists_of_map_eq_ok h
  dsimp only at hitem
  subst hitem
  obtain ⟨hneg, hkept, limit, hlimit, hle⟩ := mine_eq_ok hm
  generalize hpos : Match.positives (assign d anchors truths) = positive at *
  have hused : ∀ a, (positive.zipWith (· || ·) mining.negative).get a =
      (positive.get a || mining.negative.get a) := by
    intro a
    simp [Vector.get_eq_getElem]
  have hcontained : ∀ a, positive.get a = true →
      (positive.zipWith (· || ·) mining.negative).get a = true := by
    intro a ha
    rw [hused, ha, Bool.true_or]
  -- the masks determine the negatives that were mined
  have hsurvives : ∀ a, mining.negative.get a =
      ((positive.zipWith (· || ·) mining.negative).get a && !positive.get a) := by
    intro a
    rw [hused]
    cases hn : mining.negative.get a with
    | false => simp
    | true => rw [hneg a hn]; rfl
  have hcode := fun a => code_ofMasks (hcontained a)
  refine ⟨hcontained, rfl, ⟨mining, hm, (numNegatives_eq _ hsurvives).trans hkept⟩,
    ⟨limit, hlimit, ?_⟩, ?_, ?_, ?_, ?_, ?_, ?_, ?_⟩
  · rw [numNegatives_eq _ hsurvives, hkept]
    apply hle
    exact hl _ _ hlimit
  · intro a
    rw [anchorLabels_get]
    exact (hcode a).1
  · intro a
    rw [anchorLabels_get]
    exact (hcode a).2.1
  · intro a
    rw [anchorLabels_get]
    exact (hcode a).2.2
  · intro a hu hp
    have hn : mining.negative.get a = true := by
      rw [hsurvives]
      exact Bool.and_eq_true_iff.mpr ⟨hu, by rw [hp]; rfl⟩
    rw [labelsOf_get, if_pos hn]
  · intro a hother b hb
    have hn : mining.negative.get a ≠ true := by
      intro hn
      refine hother ⟨?_, hneg a hn⟩
      rw [hused, hn, Bool.or_true]
    rw [labelsOf_get, if_neg hn, classOf_of_truth hb]
  · intro a ha
    rw [labelsOf_get, classOf_of_none ha, ite_self]
  · intro a ha
    have hsettled : ((assign d anchors truths).get a).Settled := by
      apply Match.settled_assign
      exact ht
    obtain ⟨b, hb⟩ : ∃ b, ((assign d anchors truths).get a).truth = some b := by
      apply Option.ne_none_iff_exists'.mp
      apply hsettled.truth
      rw [← ha, ← hpos, Match.positives, Vector.get_map]
    exact ⟨b, hb, targetsOf_get hb⟩

end Item

end AnchorLoss
