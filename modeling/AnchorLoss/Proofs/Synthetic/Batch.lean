import Mathlib
import AnchorLoss.Synthetic
import AnchorLoss.Proofs.Config.Admissible
import AnchorLoss.Proofs.Engine.Record

namespace AnchorLoss

section Many

variable {σ β : Type}

theorem drawMany_succ (draw : StateM σ β) (count : Nat) (s : σ) :
    ((drawMany draw (count + 1)).run s).1 =
      (draw.run s).1 :: ((drawMany draw count).run (draw.run s).2).1 := by
  simp only [drawMany, List.replicate_succ, List.mapM_cons]
  rfl

theorem forall_drawMany {P : β → Prop} {draw : StateM σ β} (h : ∀ s, P (draw.run s).1) (count : Nat)
    (s : σ) : ((drawMany draw count).run s).1.length = count ∧
      ∀ x ∈ ((drawMany draw count).run s).1, P x := by
  induction count generalizing s with
  | zero => exact ⟨rfl, fun x hx => nomatch hx⟩
  | succ count ih =>
    obtain ⟨hlen, hall⟩ := ih (draw.run s).2
    rw [drawMany_succ]
    exact ⟨congrArg Nat.succ hlen, List.forall_mem_cons.mpr ⟨h s, hall⟩⟩

end Many

section Layout

variable {α : Type} {k n w : Nat}

theorem LabelRow.ofVector_toVector (row : LabelRow α k) : ofVector row.toVector = row := by
  obtain ⟨presence, ⟨⟨y, x⟩, ⟨y', x'⟩⟩, classes⟩ := row
  simp [ofVector, toVector]

theorem Tensor.images_ofChannelImages {images : List (Vector (Vector α w) n)} {b : Nat}
    (hb : images.length = b) (h : volume (ofChannelImages images).shape = b * n * w) :
    (ofChannelImages images).images b n w h = images := by
  refine List.ext_getElem (by rw [length_images, hb]) fun i hi hi' => ?_
  ext r hr c hc
  have he := element?_images _ b n w h i hi ⟨r, hr⟩ ⟨c, hc⟩
  have hd : (ofChannelImages images).data = (ofImages images).data := rfl
  rw [element?_of_data hd, element?_ofImages images i hi' ⟨r, hr⟩ ⟨c, hc⟩] at he
  exact (Option.some.inj he).symm

end Layout

variable {F : Precision → Type} [Arithmetic F]

omit [Arithmetic F] in
theorem Engine.rows_imagesOf {α : Type} {d : Detector (Wide F)} {p l : BatchShape} (f : Fit d p l)
    {t labels : Tensor α} (hp : p.toList = t.shape) (hl : l.toList = labels.shape)
    (hv : volume labels.shape = l.images * d.maxTruths * d.labelWidth) :
    (imagesOf f t labels hp hl).map Image.rows =
      (labels.images l.images d.maxTruths d.labelWidth hv).map fun rows =>
        (rows.map LabelRow.ofVector).toList := by
  refine List.ext_getElem ?_ fun i hi hi' => ?_
  · rw [List.length_map, length_imagesOf, List.length_map, Tensor.length_images, f.images]
  · simp only [imagesOf, List.getElem_map, List.getElem_zipWith, imageOf]

namespace Synthetic

variable (d : Detector (Wide F))

section Rows

theorem toList_rowsOf {bs : List (BoxDraw (F .single))} (h : bs.length ≤ d.maxTruths) :
    (rowsOf d bs).toList =
      bs.map (rowOf d) ++ List.replicate (d.maxTruths - bs.length) LabelRow.absent := by
  refine List.ext_getElem (by simp; omega) fun i hi hi' => ?_
  simp only [rowsOf, Vector.getElem_toList, Vector.getElem_ofFn]
  by_cases hlt : i < bs.length
  · simp [List.getElem_append_left, hlt]
  · rw [List.getElem_append_right (by simpa using hlt), List.getElem_replicate]
    simp [hlt]

theorem ofRows_rowsOf (hzero : Scalar.eq (Scalar.zero : F .single) Scalar.zero = true)
    (hone : Scalar.eq (Scalar.one : F .single) Scalar.zero = false) {bs : List (BoxDraw (F .single))}
    (h : bs.length ≤ d.maxTruths) :
    Truth.ofRows (rowsOf d bs).toList = bs.map fun b => (rowOf d b).truth := by
  have hpresent : ∀ row ∈ bs.map (rowOf d), LabelRow.isPresent row = true := by
    intro row hrow
    obtain ⟨b, -, rfl⟩ := List.mem_map.mp hrow
    simp [LabelRow.isPresent, rowOf, LabelRow.present, hone]
  have habsent : LabelRow.isPresent (LabelRow.absent : LabelRow (F .single) d.classes) = false := by
    simp [LabelRow.isPresent, LabelRow.absent, hzero]
  rw [toList_rowsOf d h, Truth.ofRows, List.takeWhile_append_of_pos hpresent, List.takeWhile_replicate,
    habsent]
  simp

end Rows

section Validate

/-- A batch of at least one image is accepted, whatever is drawn, and read back row by row. -/
theorem validate_batch [LawfulConvert F] {n : Nat} (hn : n ≠ 0)
    (entries : Vector (F .single) (n * d.numAnchors * d.predictionWidth))
    {boxes : List (List (BoxDraw (F .single)))} (hb : boxes.length = n) :
    ∃ images, validate d (.float .single (predictions d n entries)) (.float .single (labels d boxes)) =
        .ok ⟨.single, .channel, images⟩ ∧
      images.map Image.rows = boxes.map fun bs => (rowsOf d bs).toList := by
  let p : BatchShape := ⟨.channel, n, d.numAnchors, d.predictionWidth⟩
  let l : BatchShape := ⟨.channel, n, d.maxTruths, d.labelWidth⟩
  have f : Fit d p l := ⟨hn, rfl, rfl, rfl, rfl, rfl⟩
  have hconvert : TypedTensor.toFloat (F := F) .single (.float .single (labels d boxes)) = labels d boxes :=
    Tensor.map_eq_self LawfulConvert.convert_self _
  have hshape : l.toList = (labels d boxes).shape := by
    simp [l, BatchShape.toList, Form.shape, labels, Tensor.ofChannelImages, hb]
  have hl := hshape.trans (congrArg Tensor.shape hconvert).symm
  have hv : volume (labels d boxes).shape = l.images * d.maxTruths * d.labelWidth := by
    rw [← hshape, l.volume_toList]
  have hv' := (congrArg (fun t => volume t.shape) hconvert).trans hv
  refine ⟨_, Engine.validate_of_fit f (t := predictions d n entries) rfl hl, ?_⟩
  -- the labels are in the precision of the predictions already, and are read as they were written
  rw [Engine.rows_imagesOf f rfl hl hv', Tensor.images_of_data (congrArg Tensor.data hconvert) rfl hv hv']
  have himages : (labels d boxes).images l.images d.maxTruths d.labelWidth hv =
      boxes.map fun bs => (rowsOf d bs).map LabelRow.toVector :=
    Tensor.images_ofChannelImages (by rw [List.length_map, hb]) hv
  rw [himages, List.map_map]
  refine List.map_congr_left fun bs _ => ?_
  simp [LabelRow.ofVector_toVector, Function.comp_def]

end Validate

section Run

variable {σ : Type} [RandomSource σ (F .single)]

def draws (images : Nat) (wanted : Int) :
    StateM σ (Vector (F .single) (images * d.numAnchors * d.predictionWidth) ×
      List (List (BoxDraw (F .single)))) := do
  let entries ← RandomSource.normals (images * d.numAnchors * d.predictionWidth)
  let boxes ← drawMany (drawMany (drawBox d) (truthCount d wanted)) images
  return (entries, boxes)

theorem run_batch (images : Nat) (wanted : Int) (s : σ) : (batch d images wanted).run s =
    ((.float .single (predictions d images ((draws d images wanted).run s).1.1),
      .float .single (labels d ((draws d images wanted).run s).1.2)),
      ((draws d images wanted).run s).2) := rfl

theorem forall_draws {P : BoxDraw (F .single) → Prop} (h : ∀ s : σ, P ((drawBox d).run s).1) (images : Nat)
    (wanted : Int) (s : σ) : ((draws d images wanted).run s).1.2.length = images ∧
      ∀ bs ∈ ((draws d images wanted).run s).1.2,
        bs.length = truthCount d wanted ∧ ∀ b ∈ bs, P b :=
  forall_drawMany (fun s => forall_drawMany h (truthCount d wanted) s) images
    ((RandomSource.normals (α := F .single) (images * d.numAnchors * d.predictionWidth)).run s).2

/-- The image is in the range of binary64 and, if boxes are drawn, half of it is in that of binary32. -/
def InRange (wanted : Int) : Prop :=
  extent d < beyondDouble ∧ (0 < truthCount d wanted →
    Scalar.lt (Scalar.ofInt largestSingle) ((Scalar.half : Wide F) * side d) = false)

theorem error?_eq_none_iff {images wanted : Int} (h : 1 ≤ images) :
    error? d images wanted = none ↔ InRange d wanted := by
  have hneg : ¬ images < 0 := by omega
  have hpos : 0 < images := by omega
  rw [error?, if_neg hneg, InRange]
  by_cases hr : beyondDouble ≤ extent d
  · simp [hr]
  · have hlt : extent d < beyondDouble := lt_of_not_ge hr
    by_cases hc : 0 < truthCount d wanted <;> simp [hr, hlt, hc, hpos]

theorem batch?_eq_ok_iff {images wanted : Int} (h : 1 ≤ images) {s : σ}
    {r : (TypedTensor F × TypedTensor F) × σ} : batch? d images wanted s = .ok r ↔
      InRange d wanted ∧ r = (batch d images.toNat wanted).run s := by
  rw [← error?_eq_none_iff d h, batch?]
  cases error? d images wanted with
  | none => simp [eq_comm]
  | some e => simp

end Run

end Synthetic

section Layout

variable {ρ σ : Type} {c : LossConfig Int ρ}

namespace Synthetic

theorem extent_detector (h : c.HasLayout) {n t : Int} (hn : c.mapSizes.head? = some n)
    (ht : c.strides.head? = some t) : extent c.detector = n * t := by
  have hstrides := h.length_strides
  have hsizes := h.length_anchorSizes
  obtain ⟨ns, hns⟩ := List.head?_eq_some_iff.mp hn
  obtain ⟨ts, hts⟩ := List.head?_eq_some_iff.mp ht
  obtain ⟨a, as, has⟩ := List.exists_cons_of_length_pos
    (l := c.anchorSizes) (by rw [← hsizes, hts, List.length_cons]; omega)
  simp only [extent, LossConfig.detector, Grid.ofLists, hns, hts, has, List.zip_cons_cons, List.map_cons]

/-- Tensors for so many images, of the counts and widths that the settings imply. -/
structure Sized (c : LossConfig Int ρ) (images : Int) (predictions labels : TypedTensor F) : Prop where
  predictions : predictions.shape.map Int.ofNat = [images, 1, c.numAnchors, c.predictionWidth]
  labels : labels.shape.map Int.ofNat = [images, 1, c.maxTruths, c.labelWidth]

omit [Arithmetic F] in
theorem Sized.of_map {f : ρ → σ} {images : Int} {p l : TypedTensor F}
    (h : Sized (c.map id f) images p l) : Sized c images p l := by
  refine ⟨h.predictions.trans ?_, h.labels⟩
  simp [LossConfig.numAnchors, LossConfig.map, LossConfig.predictionWidth]

theorem sized_batch [LawfulConvert F] [RandomSource σ (F .single)] {c : LossConfig Int (Wide F)}
    (h : c.HasLayout) {images : Int} (hi : 1 ≤ images) (wanted : Int) (s : σ) :
    ∃ p l is s', (batch c.detector images.toNat wanted).run s = ((p, l), s') ∧ Sized c images p l ∧
      validate c.detector p l = .ok ⟨.single, .channel, is⟩ ∧
      is.map Image.rows = ((draws c.detector images.toNat wanted).run s).1.2.map fun bs =>
        (rowsOf c.detector bs).toList := by
  obtain ⟨hlength, -⟩ := forall_draws c.detector (P := fun _ => True) (fun _ => trivial) images.toNat
    wanted s
  obtain ⟨is, hv, hrows⟩ := validate_batch c.detector (by omega)
    ((draws c.detector images.toNat wanted).run s).1.1 hlength
  have himages : (images.toNat : Int) = images := by omega
  refine ⟨_, _, is, _, run_batch c.detector images.toNat wanted s, ⟨?_, ?_⟩, hv, hrows⟩
  · simp [TypedTensor.shape, predictions, h.numAnchors_eq, h.predictionWidth_eq, himages]
  · simp [TypedTensor.shape, labels, Tensor.ofChannelImages, hlength, h.maxTruths_eq, h.labelWidth_eq,
      himages]

theorem sized_batch? [LawfulConvert F] [RandomSource σ (F .single)] {c : LossConfig Int (Wide F)}
    (h : c.HasLayout) {images : Int} (hi : 1 ≤ images) (wanted : Int) (s : σ) :
    (InRange c.detector wanted → ∃ p l s' b, batch? c.detector images wanted s = .ok ((p, l), s') ∧
      Sized c images p l ∧ validate c.detector p l = .ok b) ∧
    (¬ InRange c.detector wanted → ∃ e, batch? c.detector images wanted s = .error e) := by
  constructor
  · intro hr
    obtain ⟨p, l, is, s', hrun, hsized, hv, -⟩ := sized_batch h hi wanted s
    have hb := (batch?_eq_ok_iff c.detector hi).mpr ⟨hr, hrun.symm⟩
    exact ⟨p, l, s', _, hb, hsized, hv⟩
  · intro hr
    cases hb : batch? c.detector images wanted s with
    | error e => exact ⟨e, rfl⟩
    | ok r => exact absurd ((batch?_eq_ok_iff c.detector hi).mp hb).1 hr

end Synthetic

end Layout

end AnchorLoss
