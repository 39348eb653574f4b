import Mathlib
import AnchorLoss.Proofs.Engine.Record
import AnchorLoss.Proofs.Item.Order

namespace AnchorLoss

section TakeWhile

variable {α : Type} {p : α → Bool} {m : Nat} {f : Fin m → α} {σ : Equiv.Perm (Fin m)}

theorem drop_takeWhile (p : α → Bool) (l : List α) : l.drop (l.takeWhile p).length = l.dropWhile p := by
  have h : (l.takeWhile p ++ l.dropWhile p).drop (l.takeWhile p).length = l.dropWhile p := List.drop_left
  rwa [List.takeWhile_append_dropWhile] at h

theorem takeWhile_dropWhile (p : α → Bool) (l : List α) : (l.dropWhile p).takeWhile p = [] :=
  List.takeWhile_eq_nil_iff.mpr (List.dropWhile_get_zero_not p l)

theorem drop_ofFn_comp {c : Nat} (h : ∀ r, σ r ≠ r → r < c) :
    (List.ofFn (f ∘ σ)).drop c = (List.ofFn f).drop c := by
  refine List.ext_getElem (by simp) fun i hi hi' => ?_
  rw [List.getElem_drop, List.getElem_drop, List.getElem_ofFn, List.getElem_ofFn, Function.comp_apply]
  congr 1
  by_contra hne
  have hc := h _ hne
  simp at hc

theorem takeWhile_perm (h : ∀ r, σ r ≠ r → r < ((List.ofFn f).takeWhile p).length) :
    ((List.ofFn f).takeWhile p).Perm ((List.ofFn (f ∘ σ)).takeWhile p) := by
  -- as many entries as before come first, and what follows them is what followed
  have hsplit := List.take_append_drop ((List.ofFn f).takeWhile p).length (List.ofFn (f ∘ σ))
  rw [drop_ofFn_comp h, drop_takeWhile] at hsplit
  have hperm : ((List.ofFn (f ∘ σ)).take ((List.ofFn f).takeWhile p).length).Perm
      ((List.ofFn f).takeWhile p) := by
    refine (List.perm_append_right_iff ((List.ofFn f).dropWhile p)).mp ?_
    rw [hsplit, List.takeWhile_append_dropWhile]
    exact Equiv.Perm.ofFn_comp_perm σ f
  have hall : ∀ x ∈ (List.ofFn (f ∘ σ)).take ((List.ofFn f).takeWhile p).length, p x = true :=
    fun x hx => List.mem_takeWhile_imp (hperm.mem_iff.mp hx)
  rw [← hsplit, List.takeWhile_append_of_pos hall, takeWhile_dropWhile, List.append_nil]
  exact hperm.symm

end TakeWhile

namespace Tensor

variable {α β : Type} {m w : Nat} {σ : Nat → Equiv.Perm (Fin m)}

/-- Batches of matrices of `m` rows of `w` entries: row `r` of image `b` of the second is row `σ b r` of the
first. -/
structure Reordered (w : Nat) (σ : Nat → Equiv.Perm (Fin m)) (t u : Tensor α) : Prop where
  shape : u.shape = t.shape
  element : ∀ b (r : Fin m) (c : Fin w), u.element? m w b r c = t.element? m w b (σ b r) c

theorem Reordered.map (f : α → β) {t u : Tensor α} (h : t.Reordered w σ u) :
    (t.map f).Reordered w σ (u.map f) where
  shape := h.shape
  element := fun b r c => by rw [element?_map, element?_map, h.element]

theorem Reordered.images {t u : Tensor α} (h : t.Reordered w σ u) {n : Nat}
    (ht : volume t.shape = n * m * w) (hu : volume u.shape = n * m * w) (b : Nat)
    (hb : b < (t.images n m w ht).length) (hb' : b < (u.images n m w hu).length) (r : Fin m) :
    (u.images n m w hu)[b].get r = (t.images n m w ht)[b].get (σ b r) := by
  ext c hc
  have he := h.element b r ⟨c, hc⟩
  rw [element?_images t n m w ht b hb, element?_images u n m w hu b hb'] at he
  exact Option.some.inj he

end Tensor

inductive TypedTensor.Reordered {F : Precision → Type} {m : Nat} (w : Nat)
    (σ : Nat → Equiv.Perm (Fin m)) : TypedTensor F → TypedTensor F → Prop where
  | float {q : Precision} {t u : Tensor (F q)} (h : t.Reordered w σ u) :
    Reordered w σ (.float q t) (.float q u)
  | int64 {t u : Tensor Int} (h : t.Reordered w σ u) : Reordered w σ (.int64 t) (.int64 u)
  | int32 {t u : Tensor Int} (h : t.Reordered w σ u) : Reordered w σ (.int32 t) (.int32 u)
  | bool {t u : Tensor Bool} (h : t.Reordered w σ u) : Reordered w σ (.bool t) (.bool u)

variable {F : Precision → Type} [Arithmetic F]

namespace TypedTensor.Reordered

variable {m w : Nat} {σ : Nat → Equiv.Perm (Fin m)} {labels labels' : TypedTensor F}

omit [Arithmetic F] in
theorem shape (h : labels.Reordered w σ labels') : labels'.shape = labels.shape := by
  cases h with
  | float h => exact h.shape
  | int64 h => exact h.shape
  | int32 h => exact h.shape
  | bool h => exact h.shape

theorem toFloat (h : labels.Reordered w σ labels') (q : Precision) :
    (labels.toFloat q).Reordered w σ (labels'.toFloat q) := by
  cases h with
  | float h => exact h.map _
  | int64 h => exact h.map _
  | int32 h => exact h.map _
  | bool h => exact h.map _

end TypedTensor.Reordered

theorem Truth.ofRows_perm {α : Type} [Scalar α] {m k : Nat} {row : Fin m → LabelRow α k}
    {σ : Equiv.Perm (Fin m)} (h : ∀ r, σ r ≠ r → r < (ofRows (List.ofFn row)).length) :
    (ofRows (List.ofFn row)).Perm (ofRows (List.ofFn (row ∘ σ))) := by
  simp only [ofRows, List.length_map] at h
  exact (takeWhile_perm h).map LabelRow.truth

namespace Engine

variable {d : Detector (Wide F)}

theorem validate_eq_error {predictions labels labels' : TypedTensor F} {s : ShapeError}
    (hs : labels'.shape = labels.shape) (h : validate d predictions labels = .error s) :
    validate d predictions labels' = .error s := by
  -- the values of labels are not looked at before the tensors are accepted
  have hnot : (∃ q, ∃ t : Tensor (F q), predictions = .float q t) ∨ ∀ labels,
      validate d predictions labels = (batchShape .prediction predictions.shape).bind fun _ =>
        (batchShape .label labels.shape).bind fun _ => .error (.notFloating predictions.elementType) := by
    cases predictions with
    | float q t => exact .inl ⟨q, t, rfl⟩
    | int64 t => exact .inr fun _ => rfl
    | int32 t => exact .inr fun _ => rfl
    | bool t => exact .inr fun _ => rfl
  obtain ⟨q, t, rfl⟩ | hnot := hnot
  · obtain ⟨s', hv⟩ | ⟨p, l, f, hp, hl, hv⟩ := validate_shape_cases (d := d) q t.shape labels.shape
    · rw [← h, hv t labels rfl rfl, hv t labels' rfl hs]
    · rw [hv t labels hp (hl.trans (labels.shape_toFloat q).symm)] at h
      cases h
  · rw [← h, hnot, hnot, hs]

theorem passOf_eq {q : Precision} (form : Form)
    {images images' : List (Image (F q) d.numAnchors d.classes)}
    (h : ∀ anchors, Grid.anchors d.grid = .ok anchors → List.Forall₂ (fun i i' =>
      recordImage d (anchors.map (·.map convert)) i' = recordImage d (anchors.map (·.map convert)) i)
      images images') : passOf ⟨q, form, images'⟩ = passOf ⟨q, form, images⟩ := by
  cases hg : Grid.anchors (F := F) d.grid with
  | error x => rw [passOf, passOf, hg]; rfl
  | ok anchors => rw [passOf_of_anchors hg, passOf_of_anchors hg, mapM_eq_of_forall₂ (h anchors hg)]

omit [Arithmetic F] in
theorem imagesOf_reordered {α : Type} {σ : Nat → Equiv.Perm (Fin d.maxTruths)} {p l : BatchShape}
    (f : Fit d p l) {t labels labels' : Tensor α} (h : labels.Reordered d.labelWidth σ labels')
    (ht : p.toList = t.shape) (hl : l.toList = labels.shape) (hl' : l.toList = labels'.shape) (b : Nat)
    (hb : b < (imagesOf f t labels ht hl).length) (hb' : b < (imagesOf f t labels' ht hl').length) :
    (imagesOf f t labels' ht hl')[b].heads = (imagesOf f t labels ht hl)[b].heads ∧
      ∃ row, (imagesOf f t labels ht hl)[b].rows = List.ofFn row ∧
        (imagesOf f t labels' ht hl')[b].rows = List.ofFn (row ∘ σ b) := by
  have hlabels : volume labels.shape = l.images * d.maxTruths * d.labelWidth := by
    rw [← hl, l.volume_toList, f.truths, f.labelWidth]
  have hlabels' : volume labels'.shape = l.images * d.maxTruths * d.labelWidth := by
    rw [h.shape]
    exact hlabels
  rw [length_imagesOf, ← f.images] at hb
  have hi : b < (labels.images l.images d.maxTruths d.labelWidth hlabels).length := by
    rwa [Tensor.length_images]
  have hi' : b < (labels'.images l.images d.maxTruths d.labelWidth hlabels').length := by
    rwa [Tensor.length_images]
  simp only [imagesOf, List.getElem_zipWith, imageOf, true_and]
  refine ⟨fun r => LabelRow.ofVector
    ((labels.images l.images d.maxTruths d.labelWidth hlabels)[b].get r), ?_, ?_⟩
  · rw [toList_eq_ofFn]
    exact congrArg List.ofFn (funext fun r => Vector.get_map _ _ _)
  · rw [toList_eq_ofFn]
    refine congrArg List.ofFn (funext fun r => ?_)
    rw [Vector.get_map, h.images hlabels hlabels' b hi hi']
    rfl

theorem recordImage_reordered {q : Precision} [LawfulLe (F q)]
    (hn : ∀ a b : Box (F q), ¬ Scalar.isNaN (a.overlap b)) {anchors : Vector (Box (F q)) d.numAnchors}
    {i i' : Image (F q) d.numAnchors d.classes} (hh : i'.heads = i.heads)
    (hs : Separated anchors (Truth.ofRows i.rows))
    (hperm : (Truth.ofRows i.rows).Perm (Truth.ofRows i'.rows)) :
    recordImage d anchors i' = recordImage d anchors i := by
  rw [recordImage, recordImage, hh, Item.forward_perm d hn i.heads hs hperm]

/-- What is recorded of a batch does not depend on the order of the rows. -/
theorem record_reordered [∀ q, LawfulLe (F q)]
    (hn : ∀ q, ∀ a b : Box (F q), ¬ Scalar.isNaN (a.overlap b)) {predictions labels labels' : TypedTensor F}
    {σ : Nat → Equiv.Perm (Fin d.maxTruths)} (hl : labels.Reordered d.labelWidth σ labels')
    (hmoved : ∀ batch, validate d predictions labels = .ok batch →
      ∀ b (hb : b < batch.images.length) r, σ b r ≠ r →
        r.val < (Truth.ofRows batch.images[b].rows).length)
    (hs : ∀ batch anchors, validate d predictions labels = .ok batch → Grid.anchors d.grid = .ok anchors →
      ∀ image ∈ batch.images, Separated (anchors.map (·.map convert)) (Truth.ofRows image.rows)) :
    record d predictions labels' = record d predictions labels := by
  cases hv : validate d predictions labels with
  | error s => rw [record, record, hv, validate_eq_error hl.shape hv]
  | ok batch =>
    obtain ⟨q, t, rfl⟩ := validate_eq_ok hv
    obtain ⟨s, hc⟩ | ⟨p, l, f, hp, hls, hc⟩ := validate_shape_cases (d := d) q t.shape labels.shape
    · rw [hc t labels rfl rfl] at hv
      cases hv
    · have hlt := hls.trans (labels.shape_toFloat q).symm
      have hlt' := hlt.trans (hl.toFloat q).shape.symm
      rw [record_of_fit f hp hlt, record_of_fit f hp hlt']
      refine passOf_eq p.form fun anchors hg => List.forall₂_iff_get.mpr ⟨?_, fun b hb hb' => ?_⟩
      · rw [length_imagesOf, length_imagesOf]
      · have hvalid := hc t labels hp hlt
        obtain ⟨hh, row, hr, hr'⟩ := imagesOf_reordered f (hl.toFloat q) hp hlt hlt' b hb hb'
        refine recordImage_reordered (hn q) hh (hs _ anchors hvalid hg _ (List.getElem_mem hb)) ?_
        have hm := hmoved _ hvalid b hb
        simp only [hr] at hm
        simp only [List.get_eq_getElem, hr, hr']
        exact Truth.ofRows_perm hm

end Engine

end AnchorLoss
