import Mathlib
import AnchorLoss.Proofs.Engine.Record
import AnchorLoss.Proofs.Tensor.Concat

namespace AnchorLoss

def BatchShape.withImages (s : BatchShape) (images : Nat) : BatchShape := { s with images }

theorem BatchShape.withImages_of_toList {s : BatchShape} {n : Nat} {ns : List Nat}
    (h : s.toList = n :: ns) (m : Nat) : (s.withImages m).toList = m :: ns := by
  obtain ⟨form, images, rows, width⟩ := s
  cases form <;>
  · cases h
    rfl

theorem BatchShape.eq_withImages {s s' : BatchShape} {n m : Nat} {ns : List Nat}
    (h : s.toList = n :: ns) (h' : s'.toList = m :: ns) : s.images = n ∧ s' = s.withImages m := by
  obtain ⟨form, images, rows, width⟩ := s
  obtain ⟨form', images', rows', width'⟩ := s'
  cases form with
  | plain =>
    cases h
    cases form' with
    | plain =>
      cases h'
      exact ⟨rfl, rfl⟩
    | channel => cases h'
  | channel =>
    cases h
    cases form' with
    | plain => cases h'
    | channel =>
      cases h'
      exact ⟨rfl, rfl⟩

theorem Pass.head?_shape {F : Precision → Type} {n k : Nat} (pass : Pass F n k) :
    pass.shape.head? = some pass.images.length := by
  obtain ⟨q, form, is⟩ := pass
  cases form <;> rfl

namespace Engine

variable {F : Precision → Type} [Arithmetic F] {d : Detector (Wide F)}

omit [Arithmetic F] in
theorem fit_append {p l : BatchShape} {n m : Nat} (f : Fit d p l)
    (f' : Fit d (p.withImages n) (l.withImages m)) :
    Fit d (p.withImages (p.images + n)) (l.withImages (l.images + m)) where
  nonempty := fun h => f.nonempty (Nat.eq_zero_of_add_eq_zero_right h)
  predictionWidth := f.predictionWidth
  anchors := f.anchors
  labelWidth := f.labelWidth
  truths := f.truths
  images := by
    have hi : l.images = p.images := f.images
    have hi' : m = n := f'.images
    rw [BatchShape.withImages, BatchShape.withImages, hi, hi']

omit [Arithmetic F] in
theorem imagesOf_append {α : Type} {p l : BatchShape} {n m : Nat} (f : Fit d p l)
    (f' : Fit d (p.withImages n) (l.withImages m))
    (g : Fit d (p.withImages (p.images + n)) (l.withImages (l.images + m)))
    {t u v labels labels' labels'' : Tensor α} (ht : p.toList = t.shape)
    (hl : l.toList = labels.shape) (hu : (p.withImages n).toList = u.shape)
    (hl' : (l.withImages m).toList = labels'.shape)
    (hv : (p.withImages (p.images + n)).toList = v.shape)
    (hl'' : (l.withImages (l.images + m)).toList = labels''.shape) (hd : v.data = t.data ++ u.data)
    (hdl : labels''.data = labels.data ++ labels'.data) :
    imagesOf g v labels'' hv hl'' = imagesOf f t labels ht hl ++ imagesOf f' u labels' hu hl' := by
  have hlen : (t.images p.images d.numAnchors d.predictionWidth (volume_of_fit f ht)).length =
      (labels.images l.images d.maxTruths d.labelWidth
        (by rw [← hl, l.volume_toList, f.truths, f.labelWidth])).length := by
    rw [Tensor.length_images, Tensor.length_images, f.images]
  rw [imagesOf, imagesOf, imagesOf, ← List.zipWith_append hlen]
  congr 1
  · exact Tensor.images_append _ hd _ _
  · exact Tensor.images_append _ hdl _ _

theorem validate_append {X Y Z L M N : TypedTensor F} (hX : X.concat? Y = some Z)
    (hL : L.concat? M = some N) {batch batch' : Batch F d.numAnchors d.classes}
    (hx : validate d X L = .ok batch) (hy : validate d Y M = .ok batch') :
    ∃ q form images images', batch = ⟨q, form, images⟩ ∧ batch' = ⟨q, form, images'⟩ ∧
      validate d Z N = .ok ⟨q, form, images ++ images'⟩ := by
  obtain ⟨q, t, rfl⟩ := validate_eq_ok hx
  obtain ⟨u, v, rfl, rfl, hv⟩ := TypedTensor.concat?_float hX
  obtain ⟨n, m, ns, ht, hu, hvs, hd⟩ := Tensor.concat?_eq_some.mp hv
  obtain ⟨n', m', ms, hlt, hlu, hlv, hdl⟩ :=
    Tensor.concat?_eq_some.mp (TypedTensor.concat?_toFloat q hL)
  obtain ⟨s, h⟩ | ⟨p, l, f, hl, hp, h⟩ := validate_float_cases (d := d) t L
  · cases hx.symm.trans (h t rfl)
  obtain ⟨s, h'⟩ | ⟨p', l', f', hl', hp', h'⟩ := validate_float_cases (d := d) u M
  · cases hy.symm.trans (h' u rfl)
  obtain rfl := Except.ok.inj (hx.symm.trans (h t hp))
  obtain rfl := Except.ok.inj (hy.symm.trans (h' u hp'))
  -- the sizes of the second batch are those of the first but for the number of images
  obtain ⟨rfl, rfl⟩ := BatchShape.eq_withImages (hp.trans ht) (hp'.trans hu)
  obtain ⟨rfl, rfl⟩ := BatchShape.eq_withImages (hl.trans hlt) (hl'.trans hlu)
  have hpv := (BatchShape.withImages_of_toList (hp.trans ht) (p.images + m)).trans hvs.symm
  have hlv := (BatchShape.withImages_of_toList (hl.trans hlt) (l.images + m')).trans hlv.symm
  refine ⟨q, p.form, _, _, rfl, rfl, ?_⟩
  rw [← imagesOf_append f f' (fit_append f f') hp hl hp' hl' hpv hlv hd hdl]
  exact validate_of_fit (fit_append f f') hpv hlv

theorem passOf_append {q : Precision} {form : Form}
    {images images' : List (Image (F q) d.numAnchors d.classes)}
    {pass pass' : Pass F d.numAnchors d.classes} (h : passOf ⟨q, form, images⟩ = .ok pass)
    (h' : passOf ⟨q, form, images'⟩ = .ok pass') :
    ∃ is js, pass = ⟨q, form, is⟩ ∧ pass' = ⟨q, form, js⟩ ∧
      passOf ⟨q, form, images ++ images'⟩ = .ok ⟨q, form, is ++ js⟩ := by
  obtain ⟨anchors, is, hg, rfl, hi⟩ := images_of_passOf h
  obtain ⟨anchors', js, hg', rfl, hj⟩ := images_of_passOf h'
  obtain rfl := Except.ok.inj (hg.symm.trans hg')
  refine ⟨is, js, rfl, rfl, ?_⟩
  rw [passOf_of_anchors hg, List.mapM_append, mapM_eq_ok_iff.mpr hi, mapM_eq_ok_iff.mpr hj]
  rfl

theorem record_append {X Y Z L M N : TypedTensor F} (hX : X.concat? Y = some Z)
    (hL : L.concat? M = some N) {pass pass' : Pass F d.numAnchors d.classes}
    (hx : record d X L = .ok pass) (hy : record d Y M = .ok pass') :
    ∃ q form is js, pass = ⟨q, form, is⟩ ∧ pass' = ⟨q, form, js⟩ ∧
      record d Z N = .ok ⟨q, form, is ++ js⟩ := by
  unfold record at hx hy
  cases hv : validate d X L with
  | error s => rw [hv] at hx; cases hx
  | ok batch =>
    cases hv' : validate d Y M with
    | error s => rw [hv'] at hy; cases hy
    | ok batch' =>
      rw [hv] at hx
      rw [hv'] at hy
      obtain ⟨q, form, images, images', rfl, rfl, hz⟩ := validate_append hX hL hv hv'
      obtain ⟨is, js, rfl, rfl, hp⟩ := passOf_append hx hy
      refine ⟨q, form, is, js, rfl, rfl, ?_⟩
      rw [record, hz]
      exact hp

theorem state_save (e : Engine F d) (pass : Pass F d.numAnchors d.classes) :
    (e.save pass).state = some ⟨pass, false⟩ :=
  e.saved_save pass

theorem shape_of_record {X L : TypedTensor F} {pass : Pass F d.numAnchors d.classes}
    (h : record d X L = .ok pass) : X.shape = pass.shape := by
  obtain ⟨t, rfl, hr⟩ := record_eq_ok h
  exact hr.shape

/-- Two batches on which forward passes of two machines succeed, and the batch that they make together. -/
structure Joined (e₁ e₂ : Engine F d) (X Y Z L M N : TypedTensor F) (lx ly : FloatScalar F) : Prop where
  predictions : X.concat? Y = some Z
  labels : L.concat? M = some N
  first : (e₁.forward X L).1 = .ok lx
  second : (e₂.forward Y M).1 = .ok ly

/-- Whatever the machines have seen before, the images of the whole are recorded as in their own batches. -/
theorem Joined.forward {e₁ e₂ : Engine F d} {X Y Z L M N : TypedTensor F} {lx ly : FloatScalar F}
    (h : Joined e₁ e₂ X Y Z L M N lx ly) (e : Engine F d) :
    ∃ q form is js, X.shape = Pass.shape ⟨q, form, is⟩ ∧ Y.shape = Pass.shape ⟨q, form, js⟩ ∧
      Z.shape = Pass.shape ⟨q, form, is ++ js⟩ ∧ is.length ≠ 0 ∧ js.length ≠ 0 ∧
      e₁.forward X L = (.ok (Pass.loss ⟨q, form, is⟩), e₁.save ⟨q, form, is⟩) ∧
      e₂.forward Y M = (.ok (Pass.loss ⟨q, form, js⟩), e₂.save ⟨q, form, js⟩) ∧
      e.forward Z N = (.ok (Pass.loss ⟨q, form, is ++ js⟩), e.save ⟨q, form, is ++ js⟩) := by
  obtain ⟨pass, hpx, -⟩ := record_of_forward h.first
  obtain ⟨pass', hpy, -⟩ := record_of_forward h.second
  obtain ⟨q, form, is, js, rfl, rfl, hpz⟩ := record_append h.predictions h.labels hpx hpy
  obtain ⟨t, -, hr⟩ := record_eq_ok hpx
  obtain ⟨u, -, hr'⟩ := record_eq_ok hpy
  exact ⟨q, form, is, js, shape_of_record hpx, shape_of_record hpy, shape_of_record hpz,
    hr.nonempty, hr'.nonempty, forward_of_record hpx e₁, forward_of_record hpy e₂, forward_of_record hpz e⟩

end Engine

end AnchorLoss
