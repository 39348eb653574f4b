import Mathlib
import AnchorLoss.Proofs.Engine.Record
import AnchorLoss.Proofs.Matching.Positive

namespace AnchorLoss

variable {F : Precision → Type} [Arithmetic F]

theorem Item.numPositives_forward_ne_zero {d : Detector (Wide F)} {p : Precision} {n k : Nat}
    {anchors : Vector (Box (F p)) n} {heads : Vector (Heads (F p) k) n}
    {truths : List (Truth (F p) k)} {item : Item F p n k} (hn : 0 < n) (ht : truths ≠ [])
    (h : forward d anchors heads truths = .ok item) : item.numPositives ≠ 0 := by
  have hpos : countTrue (Match.positives (assign d anchors truths)) ≠ 0 := by
    obtain ⟨m, rfl⟩ := Nat.exists_eq_add_of_le' hn
    cases truths with
    | nil => exact absurd rfl ht
    | cons truth rest =>
      obtain ⟨a, ha⟩ := Match.exists_positive (convert d.iouThreshold : F p)
        fun a b => (anchors.get a).overlap ((boxesOf (truth :: rest)).get b)
      exact Match.countTrue_positives ha
  obtain ⟨mining, -, rfl⟩ := exists_of_map_eq_ok h
  exact hpos

theorem Truth.ofRows_eq_nil_iff {α : Type} [Scalar α] {k : Nat} {rows : List (LabelRow α k)} {x : α}
    (h : rows[0]?.map LabelRow.presence = some x) :
    Truth.ofRows rows = [] ↔ Scalar.eq x Scalar.zero = true := by
  cases rows with
  | nil => cases h
  | cons row rows =>
    obtain rfl : row.presence = x := Option.some.inj h
    simp [Truth.ofRows, List.takeWhile_cons, LabelRow.isPresent]

namespace Engine

variable {d : Detector (Wide F)}

theorem record_images {q : Precision} {t : Tensor (F q)} {labels : TypedTensor F} {form : Form}
    {is : List (PassImage F q d.numAnchors d.classes)}
    (h : record d (.float q t) labels = .ok ⟨q, form, is⟩) :
    ∃ p l, ∃ f : Fit d p l, ∃ (hp : p.toList = t.shape) (hl : l.toList = (labels.toFloat q).shape)
      (anchors : Vector (Box (F q)) d.numAnchors),
      List.Forall₂ (fun image i => recordImage d anchors image = .ok i)
        (imagesOf f t (labels.toFloat q) hp hl) is := by
  obtain ⟨s, hv⟩ | ⟨p, l, f, hl, hp, hv⟩ := validate_float_cases t labels
  · rw [record, hv t rfl] at h
    cases h
  · rw [record_of_fit f hp hl] at h
    obtain ⟨anchors, is, -, he, hi⟩ := images_of_passOf h
    cases he
    exact ⟨p, l, f, hp, hl, _, hi⟩

omit [Arithmetic F] in
theorem presence_imagesOf {α : Type} {p l : BatchShape} (f : Fit d p l) {t labels : Tensor α}
    (hp : p.toList = t.shape) (hl : l.toList = labels.shape) (b : Nat)
    (hb : b < (imagesOf f t labels hp hl).length) (r : Fin d.maxTruths) :
    (imagesOf f t labels hp hl)[b].rows[r.val]?.map LabelRow.presence =
      labels.element? d.maxTruths d.labelWidth b r 0 := by
  have hv : volume labels.shape = l.images * d.maxTruths * d.labelWidth := by
    rw [← hl, l.volume_toList, f.truths, f.labelWidth]
  have hlt : b < (labels.images l.images d.maxTruths d.labelWidth hv).length := by
    rw [Tensor.length_images, f.images, ← length_imagesOf f hp hl]
    exact hb
  have hc : 0 < d.labelWidth := by unfold Detector.labelWidth; omega
  rw [Tensor.element?_images labels l.images d.maxTruths d.labelWidth hv b hlt r ⟨0, hc⟩]
  simp only [imagesOf, List.getElem_zipWith, imageOf]
  simp [LabelRow.ofVector, Vector.get_eq_getElem]

omit [Arithmetic F] in
theorem length_rows_imagesOf {α : Type} {p l : BatchShape} (f : Fit d p l) {t labels : Tensor α}
    (hp : p.toList = t.shape) (hl : l.toList = labels.shape) (b : Nat)
    (hb : b < (imagesOf f t labels hp hl).length) :
    (imagesOf f t labels hp hl)[b].rows.length = d.maxTruths := by
  simp [imagesOf, imageOf]

theorem forward_of_record_images {q : Precision} {t : Tensor (F q)} {labels : TypedTensor F} {form : Form}
    {is : List (PassImage F q d.numAnchors d.classes)}
    (h : record d (.float q t) labels = .ok ⟨q, form, is⟩) (hm : 0 < d.maxTruths) {b : Nat}
    (hb : b < is.length) : ∃ (flag : F q) (anchors : Vector (Box (F q)) d.numAnchors)
      (rows : List (LabelRow (F q) d.classes)),
      (labels.toFloat q).element? d.maxTruths d.labelWidth b 0 0 = some flag ∧
      rows[0]?.map LabelRow.presence = some flag ∧
      Item.forward d anchors is[b].heads (Truth.ofRows rows) = .ok is[b].item := by
  obtain ⟨p, l, f, hp, hl, anchors, hi⟩ := record_images h
  obtain ⟨hlen, hget⟩ := List.forall₂_iff_get.mp hi
  have hb' : b < (imagesOf f t (labels.toFloat q) hp hl).length := hlen.symm ▸ hb
  obtain ⟨item, hf, hitem⟩ := forward_of_recordImage (hget b hb' hb)
  simp only [List.get_eq_getElem] at hf hitem
  have hrows : 0 < (imagesOf f t (labels.toFloat q) hp hl)[b].rows.length := by
    rwa [length_rows_imagesOf f hp hl b hb']
  have hflag := presence_imagesOf f hp hl b hb' ⟨0, hm⟩
  rw [List.getElem?_eq_getElem hrows, Option.map_some] at hflag
  refine ⟨_, anchors, (imagesOf f t (labels.toFloat q) hp hl)[b].rows, hflag.symm, ?_, ?_⟩
  · rw [List.getElem?_eq_getElem hrows, Option.map_some]
  · rw [hitem]
    exact hf

/-- An image whose first label row is present has positives. -/
theorem numPositives_ne_zero {q : Precision} {t : Tensor (F q)} {labels : TypedTensor F} {form : Form}
    {is : List (PassImage F q d.numAnchors d.classes)}
    (h : record d (.float q t) labels = .ok ⟨q, form, is⟩) (hn : 0 < d.numAnchors)
    (hm : 0 < d.maxTruths) {b : Nat} (hb : b < is.length) {x : F q}
    (hx : (labels.toFloat q).element? d.maxTruths d.labelWidth b 0 0 = some x)
    (h0 : Scalar.eq x Scalar.zero = false) : is[b].item.numPositives ≠ 0 := by
  obtain ⟨flag, anchors, rows, hflag, hrow, hf⟩ := forward_of_record_images h hm hb
  obtain rfl := Option.some.inj (hflag.symm.trans hx)
  refine Item.numPositives_forward_ne_zero hn (fun hnil => ?_) hf
  rw [Truth.ofRows_eq_nil_iff hrow, h0] at hnil
  cases hnil

end Engine

end AnchorLoss
