import Mathlib
import AnchorLoss.Proofs.Engine.Masking

namespace AnchorLoss

/-- Two computations fail with the same error, or have related results. -/
inductive FailAlike {ε α β : Type} (R : α → β → Prop) : Except ε α → Except ε β → Prop where
  | error (e : ε) : FailAlike R (.error e) (.error e)
  | ok {a : α} {b : β} (h : R a b) : FailAlike R (.ok a) (.ok b)

namespace FailAlike

variable {ε α β γ δ : Type} {R : α → β → Prop} {S : γ → δ → Prop}

theorem bind {x : Except ε α} {y : Except ε β} {f : α → Except ε γ} {g : β → Except ε δ}
    (h : FailAlike R x y) (hfg : ∀ a b, R a b → FailAlike S (f a) (g b)) :
    FailAlike S (x >>= f) (y >>= g) := by
  cases h with
  | error e => exact .error e
  | ok h => exact hfg _ _ h

theorem map {x : Except ε α} {y : Except ε β} {f : α → γ} {g : β → δ} (h : FailAlike R x y)
    (hfg : ∀ a b, R a b → S (f a) (g b)) : FailAlike S (x.map f) (y.map g) := by
  cases h with
  | error e => exact .error e
  | ok h => exact .ok (hfg _ _ h)

theorem mapM {f : α → Except ε γ} {g : β → Except ε δ} {xs : List α} {ys : List β}
    (h : List.Forall₂ R xs ys) (hfg : ∀ a b, R a b → FailAlike S (f a) (g b)) :
    FailAlike (List.Forall₂ S) (xs.mapM f) (ys.mapM g) := by
  induction h with
  | nil => exact .ok .nil
  | cons hab _ ih =>
    rw [List.mapM_cons, List.mapM_cons]
    exact (hfg _ _ hab).bind fun _ _ hcd => ih.bind fun _ _ hs => .ok (.cons hcd hs)

end FailAlike

variable {F : Precision → Type} [Arithmetic F]

/-- Records of an image that may differ in predictions that neither the loss nor the gradient shows. -/
structure PassImage.Alike {p : Precision} {n k : Nat} (d : Detector (Wide F)) (i j : PassImage F p n k) :
    Prop where
  item : i.item = j.item
  gradient : i.item.gradient d i.heads = j.item.gradient d j.heads

theorem Pass.alike_of_images {p : Precision} {n k : Nat} {d : Detector (Wide F)} (form : Form)
    {is js : List (PassImage F p n k)} (h : List.Forall₂ (PassImage.Alike d) is js) :
    Pass.Alike d ⟨p, form, is⟩ ⟨p, form, js⟩ := by
  have hmaps : is.map PassImage.item = js.map PassImage.item ∧
      (is.map fun i => i.item.gradient d i.heads) = js.map fun i => i.item.gradient d i.heads := by
    induction h with
    | nil => exact ⟨rfl, rfl⟩
    | cons hi _ ih =>
      simp only [List.map_cons]
      exact ⟨by rw [hi.item, ih.1], by rw [hi.gradient, ih.2]⟩
  exact .mk hmaps.1 hmaps.2

namespace Engine

variable {d : Detector (Wide F)}

def finish (e : Engine F d) : Except ForwardError (Pass F d.numAnchors d.classes) →
    Except ForwardError (FloatScalar F) × Engine F d
  | .ok pass => (.ok pass.loss, e.save pass)
  | .error (.shape s) => (.error (.shape s), e)
  | .error x => (.error x, { e with current := none })

theorem passOf_ne_shape (batch : Batch F d.numAnchors d.classes) (s : ShapeError) :
    passOf batch ≠ .error (.shape s) := by
  intro h
  obtain hgrid | ⟨anchors, -, h⟩ := eq_error_or_of_bind_eq_error h
  · obtain ⟨x, hx⟩ := exists_of_mapError_eq_error hgrid
    cases hx
  · obtain hm | ⟨is, -, h⟩ := eq_error_or_of_bind_eq_error h
    · obtain ⟨image, -, hi⟩ := exists_of_mapM_error hm
      obtain ⟨x, hx⟩ := exists_of_mapError_eq_error hi
      cases hx
    · cases h

theorem forward_eq_finish (e : Engine F d) (predictions labels : TypedTensor F) :
    e.forward predictions labels = e.finish (record d predictions labels) := by
  unfold forward record
  cases validate d predictions labels with
  | error s => rfl
  | ok batch =>
    have hshape := passOf_ne_shape batch
    dsimp only
    cases hp : passOf batch with
    | ok pass => rfl
    | error x =>
      cases x with
      | shape s => exact absurd hp (hshape s)
      | grid g => rfl
      | mining m => rfl

theorem alike_finish (e : Engine F d) {x y : Except ForwardError (Pass F d.numAnchors d.classes)}
    (h : FailAlike (Pass.Alike d) x y) :
    (e.finish x).1 = (e.finish y).1 ∧ Alike (e.finish x).2 (e.finish y).2 := by
  cases h with
  | error x => exact ⟨rfl, Alike.refl _⟩
  | ok h => exact ⟨congrArg Except.ok h.loss, alike_save e h⟩

theorem passOf_failAlike {q : Precision} (form : Form)
    {images images' : List (Image (F q) d.numAnchors d.classes)}
    (h : List.Forall₂ (fun i i' => ∀ anchors, FailAlike (PassImage.Alike d) (recordImage d anchors i)
      (recordImage d anchors i')) images images') :
    FailAlike (Pass.Alike d) (passOf ⟨q, form, images⟩) (passOf ⟨q, form, images'⟩) := by
  cases hg : Grid.anchors (F := F) d.grid with
  | error x =>
    rw [passOf, passOf, hg]
    exact .error _
  | ok anchors =>
    rw [passOf_of_anchors hg, passOf_of_anchors hg]
    exact (FailAlike.mapM h fun i i' hi => hi _).map fun is js hs => Pass.alike_of_images form hs

theorem record_failAlike {q : Precision} {t u : Tensor (F q)} {labels labels' : TypedTensor F}
    (hs : u.shape = t.shape) (hl : labels'.shape = labels.shape)
    (h : ∀ (p l : BatchShape) (f : Fit d p l) (ht : p.toList = t.shape) (hu : p.toList = u.shape)
      (hl : l.toList = (labels.toFloat q).shape) (hl' : l.toList = (labels'.toFloat q).shape),
      List.Forall₂ (fun i i' => ∀ anchors, FailAlike (PassImage.Alike d) (recordImage d anchors i)
        (recordImage d anchors i')) (imagesOf f t (labels.toFloat q) ht hl)
        (imagesOf f u (labels'.toFloat q) hu hl')) :
    FailAlike (Pass.Alike d) (record d (.float q t) labels) (record d (.float q u) labels') := by
  obtain ⟨s, hv⟩ | ⟨p, l, f, hp, hls, hv⟩ := validate_shape_cases (d := d) q t.shape labels.shape
  · rw [record, record, hv t labels rfl rfl, hv u labels' hs hl]
    exact .error _
  · have hpu := hp.trans hs.symm
    have hlt := hls.trans (labels.shape_toFloat q).symm
    have hlu := (hls.trans hl.symm).trans (labels'.shape_toFloat q).symm
    rw [record, record, hv t labels hp hlt, hv u labels' hpu hlu]
    exact passOf_failAlike p.form (h p l f hp hpu hlt hlu)

end Engine

end AnchorLoss
