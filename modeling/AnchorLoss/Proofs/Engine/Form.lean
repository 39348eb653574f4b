import Mathlib
import AnchorLoss.Proofs.Binary.Tiny
import AnchorLoss.Proofs.Config.Admissible
import AnchorLoss.Proofs.Engine.Alike
import AnchorLoss.Proofs.Engine.Concat

namespace AnchorLoss

inductive TypedTensor.SameEntries {F : Precision → Type} : TypedTensor F → TypedTensor F → Prop where
  | float {q : Precision} {t u : Tensor (F q)} (h : u.data = t.data) :
    SameEntries (.float q t) (.float q u)
  | int64 {t u : Tensor Int} (h : u.data = t.data) : SameEntries (.int64 t) (.int64 u)
  | int32 {t u : Tensor Int} (h : u.data = t.data) : SameEntries (.int32 t) (.int32 u)
  | bool {t u : Tensor Bool} (h : u.data = t.data) : SameEntries (.bool t) (.bool u)

variable {F : Precision → Type} [Arithmetic F]

theorem TypedTensor.SameEntries.toFloat {labels labels' : TypedTensor F} (h : labels.SameEntries labels')
    (q : Precision) : (labels'.toFloat q).data = (labels.toFloat q).data := by
  cases h with
  | float h => exact congrArg (Array.map convert) h
  | int64 h => exact congrArg (Array.map (Scalar.ofInt : Int → F q)) h
  | int32 h => exact congrArg (Array.map (Scalar.ofInt : Int → F q)) h
  | bool h => exact congrArg (Array.map fun b => (Scalar.ofInt b.toInt : F q)) h

def Pass.withForm {n k : Nat} (pass : Pass F n k) (form : Form) : Pass F n k := { pass with form }

namespace Engine

variable {d : Detector (Wide F)}

section Accepted

/-- Predictions and labels in the sizes that settings ask for with this number of anchors: predictions of
floating-point type, at least one image, and as many images among the labels, each of the two in any of
the forms. -/
def Fitting {ρ : Type} (c : LossConfig Int ρ) (anchors : Nat) (predictions labels : TypedTensor F) : Prop :=
  ∃ (q : Precision) (b : Nat) (form form' : Form), predictions.elementType = .float q ∧ b ≠ 0 ∧
    predictions.shape = form.shape b anchors (10 + c.numClasses.toNat) ∧
    labels.shape = form'.shape b c.maxTruths.toNat (5 + c.numClasses.toNat)

theorem validate_isOk_iff {predictions labels : TypedTensor F} :
    (∃ batch, validate d predictions labels = .ok batch) ↔
      ∃ (q : Precision) (b : Nat) (form form' : Form), predictions.elementType = .float q ∧ b ≠ 0 ∧
        predictions.shape = form.shape b d.numAnchors d.predictionWidth ∧
        labels.shape = form'.shape b d.maxTruths d.labelWidth := by
  constructor
  · rintro ⟨batch, h⟩
    obtain ⟨q, t, rfl⟩ := validate_eq_ok h
    obtain ⟨s, hv⟩ | ⟨p, l, f, hp, hl, -⟩ := validate_shape_cases (d := d) q t.shape labels.shape
    · cases h.symm.trans (hv t labels rfl rfl)
    · refine ⟨q, p.images, p.form, l.form, rfl, f.nonempty, ?_, ?_⟩
      · rw [← f.anchors, ← f.predictionWidth]
        exact hp.symm
      · rw [← f.images, ← f.truths, ← f.labelWidth]
        exact hl.symm
  · rintro ⟨q, b, form, form', hq, hb, hp, hl⟩
    cases predictions with
    | float q' t =>
      let p : BatchShape := ⟨form, b, d.numAnchors, d.predictionWidth⟩
      let l : BatchShape := ⟨form', b, d.maxTruths, d.labelWidth⟩
      have f : Fit d p l := ⟨hb, rfl, rfl, rfl, rfl, rfl⟩
      exact ⟨_, validate_of_fit f (t := t) hp.symm (hl.symm.trans (labels.shape_toFloat q').symm)⟩
    | int64 t => cases hq
    | int32 t => cases hq
    | bool t => cases hq

theorem forward_eq_shape_iff (e : Engine F d) {predictions labels : TypedTensor F} {s : ShapeError} :
    (e.forward predictions labels).1 = .error (.shape s) ↔ validate d predictions labels = .error s := by
  unfold forward
  cases validate d predictions labels with
  | error s => simp
  | ok batch =>
    have hshape := passOf_ne_shape batch s
    dsimp only
    cases hp : passOf batch with
    | ok pass => simp
    | error x => simpa [hp] using hshape

/-- Nothing but the shapes and the type of the predictions decides whether tensors are refused for them. -/
theorem exists_shape_iff (e : Engine F d) (predictions labels : TypedTensor F) :
    (∃ s, (e.forward predictions labels).1 = .error (.shape s)) ↔
      ¬ ∃ batch, validate d predictions labels = .ok batch := by
  simp only [forward_eq_shape_iff]
  cases validate d predictions labels <;> simp

theorem forward_of_shape {e : Engine F d} {predictions labels : TypedTensor F} {s : ShapeError}
    (h : (e.forward predictions labels).1 = .error (.shape s)) :
    (e.forward predictions labels).2 = e := by
  unfold forward
  rw [(forward_eq_shape_iff e).mp h]

theorem fitting_iff [Measure (Wide F)] {c : LossConfig Int (Wide F)} (hc : c.check = .ok ())
    (hd : Detector.ofConfig c = .ok d) {predictions labels : TypedTensor F} :
    Fitting c d.numAnchors predictions labels ↔ ∃ batch, validate d predictions labels = .ok batch := by
  have hclasses := (LossConfig.counts_of_check hc).1
  have hwidth : d.classes + 1 = c.numClasses.toNat := by
    rw [(Detector.counts_ofConfig hd).1]
    omega
  rw [validate_isOk_iff, Fitting, ← hwidth, ← (Detector.counts_ofConfig hd).2]

end Accepted

section Form

variable {predictions labels predictions' labels' : TypedTensor F}

omit [Arithmetic F] in
theorem imagesOf_of_data {α : Type} {p l p' l' : BatchShape} (f : Fit d p l) (f' : Fit d p' l')
    (hb : p'.images = p.images) {t u labels labels' : Tensor α} (hd : u.data = t.data)
    (hdl : labels'.data = labels.data) (ht : p.toList = t.shape) (hl : l.toList = labels.shape)
    (hu : p'.toList = u.shape) (hl' : l'.toList = labels'.shape) :
    imagesOf f' u labels' hu hl' = imagesOf f t labels ht hl := by
  rw [imagesOf, imagesOf, Tensor.images_of_data hd hb,
    Tensor.images_of_data hdl (f'.images.trans (hb.trans f.images.symm))]

omit [Arithmetic F] in
theorem images_of_data {α : Type} {p l p' l' : BatchShape} (f : Fit d p l) (f' : Fit d p' l')
    (hd : d.maxTruths ≠ 0) {labels labels' : Tensor α} (hdl : labels'.data = labels.data)
    (hl : l.toList = labels.shape) (hl' : l'.toList = labels'.shape) : p'.images = p.images := by
  have hwidth : 0 < d.labelWidth := Nat.lt_add_right _ (by decide)
  -- the forms differ in the axes, but not in the product of the sizes
  have hv := Tensor.volume_of_data hdl
  rw [← hl, ← hl', l.volume_toList, l'.volume_toList, f.truths, f'.truths, f.labelWidth, f'.labelWidth,
    f.images, f'.images, Nat.mul_assoc, Nat.mul_assoc] at hv
  exact Nat.eq_of_mul_eq_mul_right (Nat.mul_pos (Nat.pos_of_ne_zero hd) hwidth) hv

theorem passOf_withForm {q : Precision} (form form' : Form)
    (images : List (Image (F q) d.numAnchors d.classes)) :
    passOf ⟨q, form', images⟩ = (passOf ⟨q, form, images⟩).map (·.withForm form') := by
  cases hg : Grid.anchors (F := F) d.grid with
  | error x => rw [passOf, passOf, hg]; rfl
  | ok anchors =>
    rw [passOf_of_anchors hg, passOf_of_anchors hg]
    cases images.mapM (recordImage d (anchors.map (·.map convert))) <;> rfl

theorem record_withForm (hd : d.maxTruths ≠ 0)
    (h : ∃ batch, validate d predictions labels = .ok batch)
    (h' : ∃ batch, validate d predictions' labels' = .ok batch)
    (hp : predictions.SameEntries predictions') (hl : labels.SameEntries labels') :
    ∃ form, record d predictions' labels' = (record d predictions labels).map (·.withForm form) := by
  obtain ⟨batch, h⟩ := h
  obtain ⟨batch', h'⟩ := h'
  obtain ⟨q, t, rfl⟩ := validate_eq_ok h
  cases hp with
  | @float _ _ u hdata =>
    obtain ⟨s, hv⟩ | ⟨p, l, f, hpt, hlt, hv⟩ := validate_shape_cases (d := d) q t.shape labels.shape
    · cases h.symm.trans (hv t labels rfl rfl)
    obtain ⟨s, hv'⟩ | ⟨p', l', f', hpu, hlu, hv'⟩ :=
      validate_shape_cases (d := d) q u.shape labels'.shape
    · cases h'.symm.trans (hv' u labels' rfl rfl)
    have hlt := hlt.trans (labels.shape_toFloat q).symm
    have hlu := hlu.trans (labels'.shape_toFloat q).symm
    have himages := images_of_data f f' hd (hl.toFloat q) hlt hlu
    refine ⟨p'.form, ?_⟩
    rw [record, record, hv t labels hpt hlt, hv' u labels' hpu hlu]
    dsimp only
    rw [imagesOf_of_data f f' himages hdata (hl.toFloat q) hpt hlt hpu hlu, passOf_withForm p.form]

omit [Arithmetic F] in
theorem volume_withForm {n k : Nat} (pass : Pass F n k) (form : Form) :
    volume (pass.withForm form).shape = volume pass.shape := by
  rw [Pass.volume_shape, Pass.volume_shape]
  rfl

theorem backward_save_eq_ok (e : Engine F d) (pass : Pass F d.numAnchors d.classes) {factor : Factor F}
    {g : FloatTensor F} : ((e.save pass).backward none factor).1 = .ok g ↔
      ∃ r t, factor.scale? (pass.gradient d) = some r ∧ r.tensor.reshape? pass.shape = some t ∧
        g = ⟨r.precision, t⟩ := by
  have ht : (none : Option Nat).orElse (fun _ => (e.save pass).current) = some e.saved.length := rfl
  simp only [backward, ht, e.saved_save pass, Bool.false_eq_true, if_false]
  cases factor.scale? (pass.gradient d) with
  | none => simp
  | some r =>
    cases hr : r.tensor.reshape? pass.shape with
    | none => simp [hr]
    | some t => simp [hr, eq_comm]

theorem backward_withForm (e : Engine F d) (pass : Pass F d.numAnchors d.classes) (form : Form)
    {factor : Factor F} {g : FloatTensor F} (h : ((e.save pass).backward none factor).1 = .ok g) :
    g.tensor.shape = pass.shape ∧ ∃ t : Tensor (F g.precision),
      ((e.save (pass.withForm form)).backward none factor).1 = .ok ⟨g.precision, t⟩ ∧
        t.data = g.tensor.data ∧ t.shape = (pass.withForm form).shape := by
  obtain ⟨r, t, hr, ht, rfl⟩ := (backward_save_eq_ok e pass).mp h
  obtain ⟨hshape, hdata⟩ := Tensor.ofArray?_eq_some ht
  have hv : volume r.tensor.shape = volume (pass.withForm form).shape := by
    rw [volume_withForm, ← hshape]
    exact Tensor.volume_of_data hdata.symm
  refine ⟨hshape, _, (backward_save_eq_ok e _).mpr
    ⟨r, _, hr, Tensor.reshape?_of_volume _ _ hv, rfl⟩, hdata.symm, rfl⟩

/-- Answers of an engine to predictions of two shapes that cannot be told apart but for the shape of the
gradient. -/
structure SameButForm (r r' : Except ForwardError (FloatScalar F) × Engine F d) (shape shape' : List Nat) :
    Prop where
  loss : r'.1 = r.1
  breakdown : r'.2.lastBreakdown = r.2.lastBreakdown
  items : ∀ loss, r.1 = .ok loss → ∃ (q : Precision) (form form' : Form)
    (images : List (PassImage F q d.numAnchors d.classes)),
    r.2.state = some ⟨⟨q, form, images⟩, false⟩ ∧ r'.2.state = some ⟨⟨q, form', images⟩, false⟩
  number : ∀ loss, r.1 = .ok loss → ∀ x : Wide F, ∃ g, (r.2.backward none (.number x)).1 = .ok g
  gradient : ∀ loss, r.1 = .ok loss → ∀ (factor : Factor F) (g : FloatTensor F),
    (r.2.backward none factor).1 = .ok g → g.tensor.shape = shape ∧ ∃ t : Tensor (F g.precision),
      (r'.2.backward none factor).1 = .ok ⟨g.precision, t⟩ ∧ t.data = g.tensor.data ∧ t.shape = shape'

theorem forward_sameButForm (hd : d.maxTruths ≠ 0)
    (h : ∃ batch, validate d predictions labels = .ok batch)
    (h' : ∃ batch, validate d predictions' labels' = .ok batch)
    (hp : predictions.SameEntries predictions') (hl : labels.SameEntries labels') (e : Engine F d) :
    SameButForm (e.forward predictions labels) (e.forward predictions' labels') predictions.shape
      predictions'.shape := by
  obtain ⟨form, hrec⟩ := record_withForm hd h h' hp hl
  rw [forward_eq_finish, forward_eq_finish]
  cases hr : record d predictions labels with
  | error x =>
    rw [hr] at hrec
    rw [hrec]
    cases x <;> exact ⟨rfl, rfl, nofun, nofun, nofun⟩
  | ok pass =>
    rw [hr] at hrec
    rw [hrec, shape_of_record hr, shape_of_record hrec]
    refine ⟨rfl, rfl, fun _ _ => ?_, fun _ _ x => ?_, fun _ _ factor g hg => ?_⟩
    · exact ⟨pass.precision, pass.form, form, pass.images, state_save e pass, state_save e _⟩
    · exact ⟨_, congrArg Prod.fst (e.backward_save pass x)⟩
    · exact backward_withForm e pass form hg

end Form

theorem backward_of_state {e : Engine F d} {pass : Pass F d.numAnchors d.classes}
    (h : e.state = some ⟨pass, false⟩) (x : Wide F) :
    (e.backward none (.number x)).1 = .ok (pass.answer d (convert x)) := by
  obtain ⟨id, hid, hs⟩ := Option.bind_eq_some_iff.mp h
  have ht : e.target none = some id := hid
  exact congrArg Prod.fst (backward_number ht hs rfl x)

/-- Tensors are refused for their shapes exactly when they do not fit the settings; then the engine is as
it was, and its pending pass can still be used. Of tensors that do fit, the form makes no difference. -/
theorem forward_fitting [Measure (Wide F)] {c : LossConfig Int (Wide F)} (hc : c.check = .ok ())
    (hd : Detector.ofConfig c = .ok d) (e : Engine F d) (predictions labels : TypedTensor F) :
    ((∃ s, (e.forward predictions labels).1 = .error (.shape s)) ↔
      ¬ Fitting c d.numAnchors predictions labels) ∧
    (∀ s, (e.forward predictions labels).1 = .error (.shape s) →
      (e.forward predictions labels).2 = e ∧ ∀ pass, e.state = some ⟨pass, false⟩ → ∀ x : Wide F,
        (e.backward none (.number x)).1 = .ok (pass.answer d (convert x)) ∧
        ((e.forward predictions labels).2.backward none (.number x)).1 =
          .ok (pass.answer d (convert x))) ∧
    ∀ predictions' labels', Fitting c d.numAnchors predictions labels →
      Fitting c d.numAnchors predictions' labels' → predictions.SameEntries predictions' →
      labels.SameEntries labels' → SameButForm (e.forward predictions labels)
        (e.forward predictions' labels') predictions.shape predictions'.shape := by
  simp only [fitting_iff hc hd]
  refine ⟨exists_shape_iff e predictions labels, fun s hs => ?_, fun predictions' labels' h h' hp hl => ?_⟩
  · rw [forward_of_shape hs]
    exact ⟨rfl, fun pass h x => ⟨backward_of_state h x, backward_of_state h x⟩⟩
  · have htruths : d.maxTruths ≠ 0 := by
      have hpos := (LossConfig.counts_of_check hc).2
      rw [(Detector.counts_ofConfig hd).2]
      omega
    exact forward_sameButForm htruths h h' hp hl e

section Tiny

open Tiny

def channelZeros : TypedTensor Binary :=
  .float .single ⟨[1, 1, 2, 12], (zeros ++ zeros).toArray, (zeros ++ zeros).size_toArray⟩

theorem forward_fitting_tiny : config.check = .ok () ∧ Detector.ofConfig config = .ok detector ∧
    (¬ ∃ s, ((Engine.initial detector).forward channelZeros labels).1 = .error (.shape s)) ∧
    SameButForm ((Engine.initial detector).forward (.float .single (predictions zeros zeros)) labels)
      ((Engine.initial detector).forward channelZeros labels) [1, 2, 12] [1, 1, 2, 12] := by
  have hplain : Fitting config detector.numAnchors (.float .single (predictions zeros zeros)) labels :=
    ⟨.single, 1, .plain, .plain, rfl, by decide, rfl, rfl⟩
  have hchannel : Fitting config detector.numAnchors channelZeros labels :=
    ⟨.single, 1, .channel, .plain, rfl, by decide, rfl, rfl⟩
  refine ⟨check_config, ofConfig_config, ?_, ?_⟩
  · rw [(forward_fitting check_config ofConfig_config _ channelZeros labels).1, not_not]
    exact hchannel
  · exact (forward_fitting check_config ofConfig_config _ _ _).2.2 channelZeros labels hplain hchannel
      (.float rfl) (.float rfl)

end Tiny

end Engine

end AnchorLoss
