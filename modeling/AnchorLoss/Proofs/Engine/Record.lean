import Mathlib
import AnchorLoss.Proofs.Engine.Step
import AnchorLoss.Proofs.Except
import AnchorLoss.Proofs.Item.Channel

namespace AnchorLoss

variable {F : Precision → Type} [Arithmetic F]

theorem Grid.exists_anchors {g : Grid (Wide F)} (h : g.error? = none) : ∃ v, g.anchors = .ok v := by
  unfold anchors
  rw [h]
  exact ⟨_, rfl⟩

namespace Item

variable {p : Precision} {n k : Nat} (d : Detector (Wide F))

def withTerms (item : Item F p n k) (heads : Vector (Heads (F p) k) n) : Item F p n k :=
  { item with
    terms := termsOf d heads item.positive item.used item.labels item.targets item.numPositives }

/-- Matching and mining look at the confidences of the refinement head only. -/
theorem forward_withTerms (anchors : Vector (Box (F p)) n) {h h' : Vector (Heads (F p) k) n}
    (truths : List (Truth (F p) k)) (hl : h'.map Heads.armLogits = h.map Heads.armLogits) :
    forward d anchors h' truths = (forward d anchors h truths).map (·.withTerms d h') := by
  simp only [forward, mine, hl]
  cases Mining.limit F d.negativeRatio
    (countTrue (Match.positives (assign d anchors truths))) <;> rfl

theorem terms_forward {anchors : Vector (Box (F p)) n} {heads : Vector (Heads (F p) k) n}
    {truths : List (Truth (F p) k)} {item : Item F p n k}
    (h : forward d anchors heads truths = .ok item) : item.withTerms d heads = item := by
  have hl : heads.map Heads.armLogits = heads.map Heads.armLogits := rfl
  have hf := forward_withTerms d anchors truths hl
  rw [h] at hf
  exact (Except.ok.inj hf).symm

theorem numPositives_forward {anchors : Vector (Box (F p)) n} {heads : Vector (Heads (F p) k) n}
    {truths : List (Truth (F p) k)} {item : Item F p n k}
    (h : forward d anchors heads truths = .ok item) :
    item.numPositives = countTrue item.positive := by
  obtain ⟨mining, -, rfl⟩ := exists_of_map_eq_ok h
  rfl

end Item

def PassImage.withHeads {p : Precision} {n k : Nat} (d : Detector (Wide F)) (i : PassImage F p n k)
    (heads : Vector (Heads (F p) k) n) : PassImage F p n k :=
  ⟨heads, i.item.withTerms d heads⟩

namespace Engine

variable {d : Detector (Wide F)}

/-- What is recorded of one image. -/
def recordImage {p : Precision} {n k : Nat} (d : Detector (Wide F)) (anchors : Vector (Box (F p)) n)
    (image : Image (F p) n k) : Except ForwardError (PassImage F p n k) :=
  ((Item.forward d anchors image.heads (Truth.ofRows image.rows)).map
    (PassImage.mk image.heads)).mapError .mining

theorem recordImage_withHeads {p : Precision} {n k : Nat} (anchors : Vector (Box (F p)) n)
    {i i' : Image (F p) n k} (hr : i'.rows = i.rows)
    (hl : i'.heads.map Heads.armLogits = i.heads.map Heads.armLogits) :
    recordImage d anchors i' = (recordImage d anchors i).map (·.withHeads d i'.heads) := by
  simp only [recordImage, hr, Item.forward_withTerms d anchors _ hl]
  cases Item.forward d anchors i.heads (Truth.ofRows i.rows) <;> rfl

theorem forward_of_recordImage {p : Precision} {n k : Nat} {anchors : Vector (Box (F p)) n}
    {image : Image (F p) n k} {i : PassImage F p n k} (h : recordImage d anchors image = .ok i) :
    ∃ item, Item.forward d anchors image.heads (Truth.ofRows image.rows) = .ok item ∧
      i = ⟨image.heads, item⟩ := by
  obtain ⟨item, hf, rfl⟩ := exists_of_map_eq_ok (eq_ok_of_mapError h)
  exact ⟨item, hf, rfl⟩

theorem recordImage_eq_ok {p : Precision} {n k : Nat} {anchors : Vector (Box (F p)) n}
    {image : Image (F p) n k} {i : PassImage F p n k} (h : recordImage d anchors image = .ok i) :
    i.heads = image.heads ∧ i.item.numPositives = countTrue i.item.positive ∧
      i.withHeads d i.heads = i := by
  obtain ⟨item, hf, rfl⟩ := forward_of_recordImage h
  refine ⟨rfl, Item.numPositives_forward d hf, ?_⟩
  simp only [PassImage.withHeads, Item.terms_forward d hf]

theorem mapM_recordImage_withHeads {p : Precision} {n k : Nat} (anchors : Vector (Box (F p)) n)
    {images images' : List (Image (F p) n k)}
    (h : List.Forall₂ (fun i i' => i'.rows = i.rows ∧
      i'.heads.map Heads.armLogits = i.heads.map Heads.armLogits) images images') :
    images'.mapM (recordImage d anchors) = (images.mapM (recordImage d anchors)).map
      fun is => is.zipWith (PassImage.withHeads d) (images'.map Image.heads) := by
  induction h with
  | nil => rfl
  | cons hi hs ih =>
    rw [List.mapM_cons, List.mapM_cons, ih, recordImage_withHeads anchors hi.1 hi.2]
    rename_i i i' is is'
    cases recordImage d anchors i with
    | error x => rfl
    | ok j => cases is.mapM (recordImage d anchors) <;> rfl

theorem recorded {p : Precision} {n k : Nat} {anchors : Vector (Box (F p)) n}
    {images : List (Image (F p) n k)} {is : List (PassImage F p n k)}
    (h : images.mapM (recordImage d anchors) = .ok is) :
    is.map PassImage.heads = images.map Image.heads ∧
      ∀ i ∈ is, i.item.numPositives = countTrue i.item.positive ∧ i.withHeads d i.heads = i := by
  induction mapM_eq_ok_iff.mp h with
  | nil => simp
  | cons hi hs ih =>
    obtain ⟨hh, hn, hw⟩ := recordImage_eq_ok hi
    obtain ⟨ihh, ihi⟩ := ih (mapM_eq_ok_iff.mpr hs)
    refine ⟨by rw [List.map_cons, List.map_cons, hh, ihh], ?_⟩
    intro i hm
    obtain rfl | hm := List.mem_cons.mp hm
    · exact ⟨hn, hw⟩
    · exact ihi i hm

theorem passOf_of_anchors {anchors : Vector (Box (F .single)) d.numAnchors}
    (hg : Grid.anchors d.grid = .ok anchors) {q : Precision} (form : Form)
    (images : List (Image (F q) d.numAnchors d.classes)) : passOf ⟨q, form, images⟩ =
      (images.mapM (recordImage d (anchors.map (·.map convert)))).map (Pass.mk q form) := by
  simp only [passOf, hg]
  rfl

theorem passOf_eq_ok (hg : Grid.error? (F := F) d.grid = none) {q : Precision} (form : Form)
    {images : List (Image (F q) d.numAnchors d.classes)}
    (hi : ∀ anchors, ∀ image ∈ images, ∃ i, recordImage d anchors image = .ok i) :
    ∃ is, passOf ⟨q, form, images⟩ = .ok ⟨q, form, is⟩ := by
  obtain ⟨anchors, ha⟩ := Grid.exists_anchors hg
  obtain ⟨is, hm⟩ := mapM_eq_ok_of_forall (hi (anchors.map (·.map convert)))
  exact ⟨is, by rw [passOf_of_anchors ha, hm]; rfl⟩

theorem images_of_passOf {q : Precision} {form : Form}
    {images : List (Image (F q) d.numAnchors d.classes)} {pass : Pass F d.numAnchors d.classes}
    (h : passOf ⟨q, form, images⟩ = .ok pass) :
    ∃ (anchors : Vector (Box (F .single)) d.numAnchors)
      (is : List (PassImage F q d.numAnchors d.classes)),
      Grid.anchors d.grid = .ok anchors ∧ pass = ⟨q, form, is⟩ ∧
      List.Forall₂ (fun image i => recordImage d (anchors.map (·.map convert)) image = .ok i) images
        is := by
  obtain ⟨anchors, hg, h⟩ := exists_of_bind_eq_ok h
  obtain ⟨is, hm, h⟩ := exists_of_bind_eq_ok h
  exact ⟨anchors, is, eq_ok_of_mapError hg, (Except.ok.inj h).symm, mapM_eq_ok_iff.mp hm⟩

theorem passOf_withHeads {q : Precision} (form : Form)
    {images images' : List (Image (F q) d.numAnchors d.classes)}
    (h : List.Forall₂ (fun i i' => i'.rows = i.rows ∧
      i'.heads.map Heads.armLogits = i.heads.map Heads.armLogits) images images') :
    (∃ x, passOf ⟨q, form, images⟩ = .error x ∧ passOf ⟨q, form, images'⟩ = .error x) ∨
    (∃ is, passOf ⟨q, form, images⟩ = .ok ⟨q, form, is⟩ ∧
      passOf ⟨q, form, images'⟩ =
        .ok ⟨q, form, is.zipWith (PassImage.withHeads d) (images'.map Image.heads)⟩ ∧
      is.map PassImage.heads = images.map Image.heads ∧
      ∀ i ∈ is, i.item.numPositives = countTrue i.item.positive ∧ i.withHeads d i.heads = i) := by
  cases hg : Grid.anchors (F := F) d.grid with
  | error x => exact .inl ⟨.grid x, by rw [passOf, hg]; rfl, by rw [passOf, hg]; rfl⟩
  | ok anchors =>
    rw [passOf_of_anchors hg form images, passOf_of_anchors hg form images']
    rw [mapM_recordImage_withHeads _ h]
    cases hm : images.mapM (recordImage d (anchors.map (·.map convert))) with
    | error x => exact .inl ⟨x, rfl, rfl⟩
    | ok is =>
      exact .inr ⟨is, rfl, rfl, recorded hm⟩

theorem batchShape_of_toList (role : TensorRole) {s : BatchShape} {shape : List Nat}
    (h : s.toList = shape) : batchShape role shape = .ok ⟨s, h⟩ := by
  obtain ⟨form, images, rows, width⟩ := s
  subst h
  cases form <;> simp [BatchShape.toList, Form.shape, batchShape]

omit [Arithmetic F] in
theorem fit_eq_ok {p l : BatchShape} (f : Fit d p l) : fit d p l = .ok ⟨f⟩ := by
  simp [fit, f.nonempty, f.predictionWidth, f.anchors, f.labelWidth, f.truths, f.images]

theorem validate_of_fit {q : Precision} {p l : BatchShape} (f : Fit d p l) {t : Tensor (F q)}
    {labels : TypedTensor F} (hp : p.toList = t.shape) (hl : l.toList = (labels.toFloat q).shape) :
    validate d (.float q t) labels = .ok ⟨q, p.form, imagesOf f t (labels.toFloat q) hp hl⟩ := by
  have hpt : batchShape .prediction (TypedTensor.float q t).shape = .ok ⟨p, hp⟩ :=
    batchShape_of_toList .prediction hp
  have hlt : batchShape .label labels.shape = .ok ⟨l, hl.trans (labels.shape_toFloat q)⟩ :=
    batchShape_of_toList .label _
  unfold validate
  rw [hpt, hlt]
  simp only [bind, Except.bind, fit_eq_ok f]

theorem record_of_fit {q : Precision} {p l : BatchShape} (f : Fit d p l) {t : Tensor (F q)}
    {labels : TypedTensor F} (hp : p.toList = t.shape) (hl : l.toList = (labels.toFloat q).shape) :
    record d (.float q t) labels =
      passOf ⟨q, p.form, imagesOf f t (labels.toFloat q) hp hl⟩ := by
  rw [record, validate_of_fit f hp hl]

theorem validate_shape_cases (q : Precision) (ps ls : List Nat) :
    (∃ s, ∀ (u : Tensor (F q)) (labels : TypedTensor F), u.shape = ps → labels.shape = ls →
      validate d (.float q u) labels = .error s) ∨
    (∃ p l, ∃ f : Fit d p l, p.toList = ps ∧ l.toList = ls ∧
      ∀ (u : Tensor (F q)) (labels : TypedTensor F) (hu : p.toList = u.shape)
        (hl : l.toList = (labels.toFloat q).shape), validate d (.float q u) labels =
          .ok ⟨q, p.form, imagesOf f u (labels.toFloat q) hu hl⟩) := by
  cases hp : batchShape .prediction ps with
  | error s =>
    refine .inl ⟨s, fun u labels hu _ => ?_⟩
    have hpu : batchShape .prediction (TypedTensor.float q u).shape = .error s := by
      rw [TypedTensor.shape, hu]
      exact hp
    unfold validate
    rw [hpu]
    rfl
  | ok p =>
    obtain ⟨p, rfl⟩ := p
    have hpu : ∀ (u : Tensor (F q)) (hu : p.toList = u.shape),
        batchShape .prediction (TypedTensor.float q u).shape = .ok ⟨p, hu⟩ := fun u hu =>
      batchShape_of_toList .prediction hu
    cases hl : batchShape .label ls with
    | error s =>
      refine .inl ⟨s, fun u labels hu hls => ?_⟩
      have hlu : batchShape .label labels.shape = .error s := by
        rw [hls]
        exact hl
      unfold validate
      rw [hpu u hu.symm, hlu]
      rfl
    | ok l =>
      obtain ⟨l, rfl⟩ := l
      have hlu : ∀ (labels : TypedTensor F) (hls : l.toList = labels.shape),
          batchShape .label labels.shape = .ok ⟨l, hls⟩ := fun labels hls =>
        batchShape_of_toList .label hls
      cases hf : fit d p l with
      | error s =>
        refine .inl ⟨s, fun u labels hu hls => ?_⟩
        unfold validate
        rw [hpu u hu.symm, hlu labels hls.symm]
        simp only [bind, Except.bind, hf]
      | ok f => exact .inr ⟨p, l, f.down, rfl, rfl, fun u labels hu hls => validate_of_fit f.down hu hls⟩

theorem validate_float_cases {q : Precision} (t : Tensor (F q)) (labels : TypedTensor F) :
    (∃ s, ∀ u : Tensor (F q), u.shape = t.shape → validate d (.float q u) labels = .error s) ∨
    (∃ p l, ∃ f : Fit d p l, ∃ hl : l.toList = (labels.toFloat q).shape, p.toList = t.shape ∧
      ∀ (u : Tensor (F q)) (hu : p.toList = u.shape), validate d (.float q u) labels =
        .ok ⟨q, p.form, imagesOf f u (labels.toFloat q) hu hl⟩) := by
  obtain ⟨s, h⟩ | ⟨p, l, f, hp, hl, h⟩ := validate_shape_cases (d := d) q t.shape labels.shape
  · exact .inl ⟨s, fun u hu => h u labels hu rfl⟩
  · exact .inr ⟨p, l, f, hl.trans (labels.shape_toFloat q).symm, hp, fun u hu => h u labels hu _⟩

theorem validate_eq_ok {predictions labels : TypedTensor F} {batch : Batch F d.numAnchors d.classes}
    (h : validate d predictions labels = .ok batch) :
    ∃ q, ∃ t : Tensor (F q), predictions = .float q t := by
  simp only [validate, bind, Except.bind] at h
  split at h
  · cases h
  · split at h
    · cases h
    · cases predictions with
      | float q t => exact ⟨q, t, rfl⟩
      | int64 t => cases h
      | int32 t => cases h
      | bool t => cases h

def headsOf {α : Type} {b n k : Nat} (t : Tensor α) (h : volume t.shape = b * n * (10 + (k + 1))) :
    List (Vector (Heads α k) n) :=
  (t.images b n (10 + (k + 1)) h).map (·.map Heads.ofVector)

theorem element?_headsOf {α : Type} {b n k : Nat} (t : Tensor α)
    (h : volume t.shape = b * n * (10 + (k + 1))) {i : Nat} {heads : Vector (Heads α k) n}
    (hi : (headsOf t h)[i]? = some heads) (a : Fin n) (c : Fin (10 + (k + 1))) :
    t.element? n (10 + (k + 1)) i a c = some ((heads.get a).channel c) := by
  rw [headsOf, List.getElem?_map, Option.map_eq_some_iff] at hi
  obtain ⟨rows, hr, rfl⟩ := hi
  obtain ⟨hlt, rfl⟩ := List.getElem?_eq_some_iff.mp hr
  rw [Tensor.element?_images t b n _ h i hlt a c, Vector.get_map, Heads.channel_ofVector]

omit [Arithmetic F] in
theorem length_imagesOf {α : Type} {p l : BatchShape} (f : Fit d p l) {t labels : Tensor α}
    (ht : p.toList = t.shape) (hl : l.toList = labels.shape) :
    (imagesOf f t labels ht hl).length = p.images := by
  rw [imagesOf, List.length_zipWith, Tensor.length_images, Tensor.length_images, f.images,
    Nat.min_self]

omit [Arithmetic F] in
theorem volume_of_fit {α : Type} {p l : BatchShape} (f : Fit d p l) {t : Tensor α}
    (ht : p.toList = t.shape) : volume t.shape = p.images * d.numAnchors * d.predictionWidth := by
  rw [← ht, p.volume_toList, f.anchors, f.predictionWidth]

omit [Arithmetic F] in
theorem heads_imagesOf {α : Type} {p l : BatchShape} (f : Fit d p l) {t labels : Tensor α}
    (ht : p.toList = t.shape) (hl : l.toList = labels.shape) :
    (imagesOf f t labels ht hl).map Image.heads = headsOf t (volume_of_fit f ht) := by
  refine List.ext_getElem ?_ fun i hi hi' => ?_
  · rw [List.length_map, length_imagesOf, headsOf, List.length_map, Tensor.length_images]
  · simp only [imagesOf, List.getElem_map, List.getElem_zipWith, headsOf]
    rfl

omit [Arithmetic F] in
/-- Tensors of predictions of one shape that agree in the confidences of the refinement head. -/
theorem imagesOf_forall₂ {α : Type} {p l : BatchShape} (f : Fit d p l) {t u labels : Tensor α}
    (ht : p.toList = t.shape) (hu : p.toList = u.shape) (hl : l.toList = labels.shape)
    (h : ∀ b (a : Fin d.numAnchors) c, 4 ≤ c → c < 6 →
      t.element? d.numAnchors d.predictionWidth b a c =
        u.element? d.numAnchors d.predictionWidth b a c) :
    List.Forall₂ (fun i i' => i'.rows = i.rows ∧
      i'.heads.map Heads.armLogits = i.heads.map Heads.armLogits)
      (imagesOf f t labels ht hl) (imagesOf f u labels hu hl) := by
  refine List.forall₂_iff_get.mpr ⟨by rw [length_imagesOf, length_imagesOf], fun i hi hi' => ?_⟩
  refine ⟨by simp only [imagesOf, List.get_eq_getElem, List.getElem_zipWith, imageOf], ?_⟩
  have hti : (headsOf t (volume_of_fit f ht))[i]? = some (imagesOf f t labels ht hl)[i].heads := by
    rw [← heads_imagesOf f ht hl, List.getElem?_map, List.getElem?_eq_getElem hi, Option.map_some]
  have hui : (headsOf u (volume_of_fit f hu))[i]? = some (imagesOf f u labels hu hl)[i].heads := by
    rw [← heads_imagesOf f hu hl, List.getElem?_map, List.getElem?_eq_getElem hi', Option.map_some]
  ext1 a ha
  refine Heads.get_map_block Heads.channel_armLogits fun j => ?_
  have hc := h i ⟨a, ha⟩ (4 + j) (by omega) (by omega)
  have het := element?_headsOf t _ hti ⟨a, ha⟩ (Channel.armLogit j)
  have heu := element?_headsOf u _ hui ⟨a, ha⟩ (Channel.armLogit j)
  exact Option.some.inj (heu.symm.trans (hc.symm.trans het))

/-- What the images of a pass keep of the predictions that they were recorded for. -/
structure Recorded {q : Precision} (d : Detector (Wide F)) (t : Tensor (F q)) (form : Form)
    (images : List (PassImage F q d.numAnchors d.classes)) : Prop where
  nonempty : images.length ≠ 0
  shape : t.shape = form.shape images.length d.numAnchors d.predictionWidth
  element? : ∀ b (hb : b < images.length) (a : Fin d.numAnchors) (c : Fin d.predictionWidth),
    t.element? d.numAnchors d.predictionWidth b a c = some ((images[b].heads.get a).channel c)
  numPositives : ∀ i ∈ images, i.item.numPositives = countTrue i.item.positive
  terms : ∀ i ∈ images, i.withHeads d i.heads = i

theorem recorded_of_heads {q : Precision} {p l : BatchShape} (f : Fit d p l) {t labels : Tensor (F q)}
    (ht : p.toList = t.shape) (hl : l.toList = labels.shape)
    {images : List (PassImage F q d.numAnchors d.classes)}
    (hh : images.map PassImage.heads = (imagesOf f t labels ht hl).map Image.heads)
    (hi : ∀ i ∈ images, i.item.numPositives = countTrue i.item.positive ∧
      i.withHeads d i.heads = i) : Recorded d t p.form images := by
  have hlen : images.length = p.images := by
    rw [← length_imagesOf f ht hl, ← List.length_map PassImage.heads, hh, List.length_map]
  refine ⟨hlen ▸ f.nonempty, ?_, fun b hb a c => ?_, fun i hm => (hi i hm).1, fun i hm => (hi i hm).2⟩
  · rw [← ht, BatchShape.toList, hlen, f.anchors, f.predictionWidth]
  · apply element?_headsOf t (volume_of_fit f ht)
    rw [← heads_imagesOf f ht hl, ← hh, List.getElem?_map, List.getElem?_eq_getElem hb, Option.map_some]

theorem zipWith_withHeads {q : Precision} {n k : Nat} {is : List (PassImage F q n k)}
    {heads : List (Vector (Heads (F q) k) n)} (h : is.length = heads.length) :
    List.Forall₂ (fun i j => j = i.withHeads d j.heads) is (is.zipWith (PassImage.withHeads d) heads) ∧
      (is.zipWith (PassImage.withHeads d) heads).map PassImage.heads = heads := by
  induction is generalizing heads with
  | nil =>
    obtain rfl := List.length_eq_zero_iff.mp h.symm
    exact ⟨.nil, rfl⟩
  | cons i is ih =>
    cases heads with
    | nil => simp at h
    | cons head heads =>
      obtain ⟨hf, hm⟩ := ih (by simpa using h)
      exact ⟨.cons rfl hf, congrArg (head :: ·) hm⟩

theorem mem_of_withHeads {q : Precision} {n k : Nat} {is js : List (PassImage F q n k)}
    (h : List.Forall₂ (fun i j => j = i.withHeads d j.heads) is js) {j : PassImage F q n k}
    (hj : j ∈ js) : ∃ i ∈ is, j = i.withHeads d j.heads := by
  induction h with
  | nil => cases hj
  | cons hi hs ih =>
    obtain rfl | hj := List.mem_cons.mp hj
    · exact ⟨_, List.mem_cons_self, hi⟩
    · obtain ⟨i, hm, he⟩ := ih hj
      exact ⟨i, List.mem_cons_of_mem _ hm, he⟩

theorem forward_withHeads {q : Precision} {t u : Tensor (F q)} (hs : u.shape = t.shape)
    (h : ∀ b (a : Fin d.numAnchors) c, 4 ≤ c → c < 6 →
      t.element? d.numAnchors d.predictionWidth b a c =
        u.element? d.numAnchors d.predictionWidth b a c) (labels : TypedTensor F) :
    (∃ x, record d (.float q t) labels = .error x ∧ record d (.float q u) labels = .error x ∧
      ∀ e : Engine F d, e.forward (.float q t) labels = e.forward (.float q u) labels) ∨
    (∃ form is js, record d (.float q t) labels = .ok ⟨q, form, is⟩ ∧
      record d (.float q u) labels = .ok ⟨q, form, js⟩ ∧ Recorded d t form is ∧
      Recorded d u form js ∧ List.Forall₂ (fun i j => j = i.withHeads d j.heads) is js) := by
  obtain ⟨s, hv⟩ | ⟨p, l, f, hl, hp, hv⟩ := validate_float_cases (d := d) t labels
  · refine .inl ⟨.shape s, ?_, ?_, fun e => ?_⟩
    · rw [record, hv t rfl]
    · rw [record, hv u hs]
    · rw [forward, forward, hv t rfl, hv u hs]
  · have hpu : p.toList = u.shape := hp.trans hs.symm
    obtain ⟨x, ht, hu⟩ | ⟨is, ht, hu, hh, hi⟩ :=
      passOf_withHeads (d := d) p.form (imagesOf_forall₂ f hp hpu hl h)
    · refine .inl ⟨x, ?_, ?_, fun e => ?_⟩
      · rw [record, hv t hp]
        exact ht
      · rw [record, hv u hpu]
        exact hu
      · rw [forward, forward, hv t hp, hv u hpu]
        simp only [ht, hu]
    · have hlen : is.length = ((imagesOf f u (labels.toFloat q) hpu hl).map Image.heads).length := by
        rw [← List.length_map PassImage.heads, hh, List.length_map, List.length_map,
          length_imagesOf, length_imagesOf]
      obtain ⟨hr, hhu⟩ := zipWith_withHeads hlen
      refine .inr ⟨p.form, is, _, ?_, ?_, recorded_of_heads f hp hl hh hi,
        recorded_of_heads f hpu hl hhu fun j hj => ?_, hr⟩
      · rw [record, hv t hp]
        exact ht
      · rw [record, hv u hpu]
        exact hu
      · obtain ⟨i, hm, he⟩ := mem_of_withHeads hr hj
        rw [he]
        exact ⟨(hi i hm).1, rfl⟩

theorem exists_batch {predictions labels : TypedTensor F} {pass : Pass F d.numAnchors d.classes}
    (h : record d predictions labels = .ok pass) :
    ∃ batch, validate d predictions labels = .ok batch ∧ passOf batch = .ok pass := by
  unfold record at h
  cases hv : validate d predictions labels with
  | error s => rw [hv] at h; cases h
  | ok batch =>
    rw [hv] at h
    exact ⟨batch, rfl, h⟩

theorem record_eq_ok {predictions labels : TypedTensor F} {pass : Pass F d.numAnchors d.classes}
    (h : record d predictions labels = .ok pass) :
    ∃ t : Tensor (F pass.precision), predictions = .float pass.precision t ∧
      Recorded d t pass.form pass.images := by
  obtain ⟨batch, hv, -⟩ := exists_batch h
  obtain ⟨q, t, rfl⟩ := validate_eq_ok hv
  obtain ⟨x, hx, -⟩ | ⟨form, is, js, ht, -, hr, -⟩ :=
    forward_withHeads (d := d) (t := t) rfl (fun _ _ _ _ _ => rfl) labels
  · cases hx.symm.trans h
  · obtain rfl := Except.ok.inj (ht.symm.trans h)
    exact ⟨t, rfl, hr⟩

theorem validate_of_record {predictions labels : TypedTensor F} {pass : Pass F d.numAnchors d.classes}
    (h : record d predictions labels = .ok pass) :
    ∃ (anchors : Vector (Box (F .single)) d.numAnchors)
      (images : List (Image (F pass.precision) d.numAnchors d.classes)),
      Grid.anchors d.grid = .ok anchors ∧
      validate d predictions labels = .ok ⟨pass.precision, pass.form, images⟩ ∧
      List.Forall₂ (fun image i => recordImage d (anchors.map (·.map convert)) image = .ok i) images
        pass.images := by
  obtain ⟨⟨q, form, images⟩, hv, h⟩ := exists_batch h
  obtain ⟨anchors, is, hg, rfl, hi⟩ := images_of_passOf h
  exact ⟨anchors, images, hg, hv, hi⟩

end Engine

end AnchorLoss
