import Mathlib
import AnchorLoss.Proofs.Binary.Total
import AnchorLoss.Proofs.Exact.Basic
import AnchorLoss.Proofs.Synthetic.Batch

namespace AnchorLoss

/-- Draws lie within the bounds that they are asked for with. -/
class LawfulSource (σ : Type) {K : outParam Type} [LinearOrder K] [RandomSource σ K] : Prop where
  uniform {low high : K} (h : low ≤ high) (s : σ) :
    low ≤ ((RandomSource.uniform low high).run s).1 ∧ ((RandomSource.uniform low high).run s).1 ≤ high
  natural {low high : Nat} (h : low < high) (s : σ) :
    low ≤ ((RandomSource.natural (α := K) low high).run s).1 ∧
      ((RandomSource.natural (α := K) low high).run s).1 < high

theorem LawfulSource.uniform_of_eq {σ K : Type} [LinearOrder K] [RandomSource σ K] [LawfulSource σ]
    {low high a b : K} (ha : low = a) (hb : high = b) (h : a ≤ b) (s : σ) :
    a ≤ ((RandomSource.uniform low high).run s).1 ∧ ((RandomSource.uniform low high).run s).1 ≤ b := by
  subst ha hb
  exact uniform h s

section Spans

variable {K : Type} [Field K] [LinearOrder K]

/-- Along one axis of an image, what is read of a box is the length that was drawn, around the point that is
half of it from the place that was drawn, and it lies inside of the image. -/
structure Spans (side length place center size : K) : Prop where
  size_eq : size = length
  center_eq : center = place * (side - length) + length / 2
  positive : 0 < size
  low : 0 ≤ center - size / 2
  high : center + size / 2 ≤ side

/-- What a box is drawn with along one axis: a tenth to a half of the image, and a share of what that leaves
in it. -/
structure Bounded (side length place : K) : Prop where
  length : 1 / 10 * side ≤ length ∧ length ≤ 1 / 2 * side
  place : 0 ≤ place ∧ place ≤ 1

theorem Bounded.spans [IsStrictOrderedRing K] {side length place : K} (hside : 0 < side)
    (h : Bounded side length place) : Spans side length place
      ((place * (side - length) + (place * (side - length) + length)) / 2)
      (place * (side - length) + length - place * (side - length)) := by
  have hlength : 0 < length := lt_of_lt_of_le (by positivity) h.length.1
  have hroom : 0 ≤ side - length := by
    have := h.length.2
    linarith
  have hlow : 0 ≤ place * (side - length) := mul_nonneg h.place.1 hroom
  have hhigh : place * (side - length) ≤ side - length := mul_le_of_le_one_left hroom h.place.2
  rw [add_sub_cancel_left]
  exact ⟨rfl, by ring, hlength, by linarith, by linarith⟩

/-- A box that is read is the one that was drawn, and its class is not the background. -/
structure Decodes {k : Nat} (side : K) (numClasses : Int) (b : BoxDraw K) (t : Truth K k) : Prop where
  y : Spans side b.size.y b.place.y t.box.center.y t.box.size.y
  x : Spans side b.size.x b.place.x t.box.center.x t.box.size.x
  label : t.label.val = b.label
  object : 1 ≤ (b.label : Int) ∧ b.label < numClasses

end Spans

namespace Exact

variable {K : Type} [Field K] [LinearOrder K] [IsStrictOrderedRing K] [FloorRing K] {T : Functions K}

variable {d : Detector (Wide (Exact T))}

omit [IsStrictOrderedRing K] in
theorem minSize_eq : Synthetic.minSize (F := Exact T) d = (1 / 10 * (Synthetic.extent d : K) : K) := by
  have h₁ : ((1 : Int) : K) = 1 := Int.cast_one
  have h₁₀ : ((10 : Int) : K) = 10 := Int.cast_ofNat 10
  change ((1 : Int) : K) / ((10 : Int) : K) * (Synthetic.extent d : K) = _
  rw [h₁, h₁₀]

omit [IsStrictOrderedRing K] in
theorem maxSize_eq : Synthetic.maxSize (F := Exact T) d = (1 / 2 * (Synthetic.extent d : K) : K) := by
  have h : Synthetic.maxSize (F := Exact T) d =
    (Scalar.half : Exact T .double) * (Synthetic.extent d : K) := rfl
  rw [h, half_eq]

structure InBounds (side : K) (classes : Nat) (b : BoxDraw K) : Prop where
  y : Bounded side b.size.y b.place.y
  x : Bounded side b.size.x b.place.x
  label : 1 ≤ b.label ∧ b.label < classes + 1

theorem inBounds_drawBox {σ : Type} [RandomSource σ K] [LawfulSource σ] (hd : 0 < Synthetic.extent d)
    (hk : 0 < d.classes) (s : σ) :
    InBounds (Synthetic.extent d : K) d.classes ((Synthetic.drawBox (F := Exact T) d).run s).1 := by
  have hside : (0 : K) < Synthetic.extent d := Int.cast_pos.mpr hd
  have hsize : (1 / 10 * (Synthetic.extent d : K) : K) ≤ 1 / 2 * (Synthetic.extent d : K) := by
    linarith
  have hlength (s : σ) := LawfulSource.uniform_of_eq (minSize_eq (d := d)) maxSize_eq hsize s
  have hplace (s : σ) := LawfulSource.uniform_of_eq (zero_eq (T := T) (p := .single)) one_eq zero_le_one s
  exact ⟨⟨hlength _, hplace _⟩, ⟨hlength _, hplace _⟩, LawfulSource.natural (by omega) _⟩

omit [IsStrictOrderedRing K] in
theorem argmax_oneHot {n : Nat} {j : Nat} (hj : j < n + 1) :
    Scalar.argmax (Vector.ofFn fun i : Fin (n + 1) =>
      if i.val = j then (Scalar.one : Exact T .single) else Scalar.zero) = ⟨j, hj⟩ := by
  refine Scalar.argmax_of_lt (fun i => by simp) fun i hi => ?_
  have hne : i.val ≠ j := fun he => hi (Fin.ext he)
  rw [Vector.get_ofFn, Vector.get_ofFn, if_neg hne, if_pos rfl, lt_eq, zero_eq, one_eq]
  simp

theorem decodes_rowOf {numClasses : Int} {b : BoxDraw K} (hd : 0 < Synthetic.extent d)
    (hk : (d.classes : Int) + 1 = numClasses) (h : InBounds (Synthetic.extent d : K) d.classes b) :
    Decodes (Synthetic.extent d : K) numClasses b (Synthetic.rowOf (F := Exact T) d b).truth := by
  have hside : (0 : K) < Synthetic.extent d := Int.cast_pos.mpr hd
  have htwo : ((2 : Int) : K) = 2 := Int.cast_ofNat 2
  have hy := h.y.spans hside
  have hx := h.x.spans hside
  rw [← htwo] at hy hx
  have hlabel := h.label
  exact ⟨hy, hx, congrArg Fin.val (argmax_oneHot hlabel.2), by omega⟩

/-- The label rows of an image hold as many boxes as asked for and as there is room for, those that were
drawn. -/
structure Restores {ρ : Type} {k : Nat} (T : Functions K) (c : LossConfig Int ρ) (side : K) (wanted : Int)
    (bs : List (BoxDraw K)) (rows : List (LabelRow (Exact T .single) k)) : Prop where
  count : ((Truth.ofRows (α := Exact T .single) rows).length : Int) = max 0 (min wanted c.maxTruths)
  boxes : List.Forall₂ (Decodes side c.numClasses) bs (Truth.ofRows (α := Exact T .single) rows)

theorem restores_rowsOf {c : LossConfig Int (Wide (Exact T))} (h : c.HasLayout) {wanted : Int}
    (hd : 0 < Synthetic.extent c.detector) {bs : List (BoxDraw K)}
    (hlen : bs.length = Synthetic.truthCount c.detector wanted)
    (hbs : ∀ b ∈ bs, InBounds (Synthetic.extent c.detector : K) c.detector.classes b) :
    Restores T c (Synthetic.extent c.detector : K) wanted bs
      (Synthetic.rowsOf (F := Exact T) c.detector bs).toList := by
  have htruths := h.maxTruths_eq
  have hcount : (bs.length : Int) = max 0 (min wanted c.maxTruths) := by
    rw [hlen, Synthetic.truthCount, htruths]
    omega
  have hroom : bs.length ≤ c.detector.maxTruths := by
    have := h.maxTruths
    omega
  have hrows := Synthetic.ofRows_rowsOf c.detector (by simp [Scalar.eq]) (by simp [Scalar.eq]) hroom
  refine ⟨?_, ?_⟩
  · rw [hrows, List.length_map, hcount]
  · rw [hrows, List.forall₂_map_right_iff, List.forall₂_same]
    exact fun b hb => decodes_rowOf hd h.classes_eq (hbs b hb)

theorem restores_batch {c : LossConfig Int (Wide (Exact T))} (h : c.HasLayout) {σ : Type}
    [RandomSource σ K] [LawfulSource σ] {images : Int} (hi : 1 ≤ images) (wanted : Int) (s : σ) :
    ∃ p l is s', (Synthetic.batch (F := Exact T) c.detector images.toNat wanted).run s = ((p, l), s') ∧
      Synthetic.Sized c images p l ∧ validate c.detector p l = .ok ⟨.single, .channel, is⟩ ∧
      (is.length : Int) = images ∧
      List.Forall₂ (Restores T c (Synthetic.extent c.detector : K) wanted)
        ((Synthetic.draws (F := Exact T) c.detector images.toNat wanted).run s).1.2
        (is.map Image.rows) := by
  have hd : 0 < Synthetic.extent c.detector := by
    obtain ⟨n, t, hn, ht, hpos⟩ := h.side
    rwa [Synthetic.extent_detector h hn ht]
  have hk : 0 < c.detector.classes := by
    have hclasses := h.numClasses
    have heq := h.classes_eq
    omega
  obtain ⟨hlength, hall⟩ := Synthetic.forall_draws (F := Exact T) c.detector
    (inBounds_drawBox (σ := σ) hd hk) images.toNat wanted s
  obtain ⟨p, l, is, s', hrun, hsized, hv, hrows⟩ := Synthetic.sized_batch h hi wanted s
  refine ⟨p, l, is, s', hrun, hsized, hv, ?_, ?_⟩
  · rw [← List.length_map (f := Image.rows), hrows, List.length_map, hlength]
    omega
  · rw [hrows, List.forall₂_map_right_iff, List.forall₂_same]
    exact fun bs hbs => restores_rowsOf h hd (hall bs hbs).1 (hall bs hbs).2

end Exact

namespace Synthetic

/-- A batch that is drawn for settings that were read is in order unless its image is too large for binary
arithmetic, and over exact arithmetic the boxes that were drawn are read back from it. -/
theorem batch_decodes {document : Value} {c : LossConfig Int Float} (hread : Config.read document = .ok c) :
    ∃ n t : Int, c.mapSizes.head? = some n ∧ c.strides.head? = some t ∧
    (∃ d : Detector (Wide Binary), Detector.ofConfig c = .ok d ∧ extent d = n * t ∧
      ∀ {σ : Type} [RandomSource σ (Binary .single)] (s : σ) (images wanted : Int), 1 ≤ images →
        (InRange (F := Binary) d wanted →
          ∃ p l s' b, batch? (F := Binary) d images wanted s = .ok ((p, l), s') ∧
            Sized c images p l ∧ validate d p l = .ok b) ∧
        (¬ InRange (F := Binary) d wanted → ∃ e, batch? (F := Binary) d images wanted s = .error e)) ∧
    ∀ {K : Type} [Field K] [LinearOrder K] [IsStrictOrderedRing K] [FloorRing K] (T : Functions K)
      (f : Float → K), ∃ d : Detector (Wide (Exact T)), Detector.ofConfig (c.map id f) = .ok d ∧
      ∀ {σ : Type} [RandomSource σ K] [LawfulSource σ] (s : σ) (images wanted : Int), 1 ≤ images →
        ∃ p l is s', (batch (F := Exact T) d images.toNat wanted).run s = ((p, l), s') ∧
          Sized c images p l ∧ validate d p l = .ok ⟨.single, .channel, is⟩ ∧
          (is.length : Int) = images ∧
          List.Forall₂ (Exact.Restores T c ((n * t : Int) : K) wanted)
            ((draws (F := Exact T) d images.toNat wanted).run s).1.2 (is.map Image.rows) := by
  have h := Config.hasLayout_of_read hread
  obtain ⟨n, t, hn, ht, -⟩ := h.side
  refine ⟨n, t, hn, ht, ?binary, ?exact⟩
  case binary =>
    exact ⟨c.detector, h.ofConfig, extent_detector h hn ht, fun s _ wanted hi =>
      sized_batch? (F := Binary) h hi wanted s⟩
  case exact =>
    -- the layout is that of the whole numbers among the settings, so that any reading of the others will do
    intro K _ _ _ _ T f
    have hmap := h.map f
    have hside : extent (c.map id f).detector = n * t :=
      extent_detector hmap (by simpa [LossConfig.map] using hn) (by simpa [LossConfig.map] using ht)
    refine ⟨(c.map id f).detector, hmap.ofConfig, fun s images wanted hi => ?_⟩
    obtain ⟨p, l, is, s', hrun, hsized, hv, hlen, hrows⟩ := Exact.restores_batch hmap hi wanted s
    rw [hside] at hrows
    exact ⟨p, l, is, s', hrun, hsized.of_map, hv, hlen, hrows.imp fun bs rows hr => ⟨hr.count, hr.boxes⟩⟩

section Tiny

open Tiny

structure Lowest (α : Type) where

instance {α : Type} [Inhabited α] : RandomSource (Lowest α) α where
  uniform low _ := pure low
  normals n := pure (Vector.replicate n default)
  natural low _ := pure low

instance {K : Type} [LinearOrder K] [Inhabited K] : LawfulSource (Lowest K) where
  uniform h _ := ⟨le_rfl, h⟩
  natural h _ := ⟨le_rfl, h⟩

theorem batch_decodes_tiny : Config.read config.toMap = .ok config ∧
    InRange (F := Binary) detector 1 ∧
    (∃ p l s' b, batch? (F := Binary) detector 1 1 (Lowest.mk : Lowest Float32) = .ok ((p, l), s') ∧
      Sized config 1 p l ∧ validate detector p l = .ok b) ∧
    ∃ (d : Detector (Wide (Exact (⟨id, id, id⟩ : Functions Rat)))) (p l : TypedTensor _)
      (image : Image Rat d.numAnchors d.classes) (bs : List (BoxDraw Rat)),
      ((batch d 1 1).run (Lowest.mk : Lowest Rat)).1 = (p, l) ∧
        validate d p l = .ok ⟨.single, .channel, [image]⟩ ∧
        Exact.Restores ⟨id, id, id⟩ config 8 1 bs image.rows := by
  have hrange : InRange (F := Binary) detector 1 := by
    unfold InRange
    decide +kernel
  obtain ⟨n, t, hn, ht, ⟨d, hd, -, hbinary⟩, hexact⟩ := batch_decodes Binary.read_config
  obtain rfl : 1 = n := Option.some.inj hn
  obtain rfl : 8 = t := Option.some.inj ht
  obtain rfl := Except.ok.inj (hd.symm.trans ofConfig_config)
  refine ⟨Binary.read_config, hrange, (hbinary _ 1 1 le_rfl).1 hrange, ?_⟩
  obtain ⟨d, -, hrun⟩ := hexact (⟨id, id, id⟩ : Functions Rat) fun _ => 0
  obtain ⟨p, l, is, s', hrun, -, hv, hlen, hrows⟩ := hrun (Lowest.mk : Lowest Rat) 1 1 le_rfl
  obtain ⟨image, rfl⟩ := List.length_eq_one_iff.mp (by omega : is.length = 1)
  obtain ⟨bs, bss, hbs, -⟩ := List.forall₂_cons_right_iff.mp hrows
  exact ⟨d, p, l, image, bs, congrArg Prod.fst hrun, hv, by simpa using hbs⟩

def distant (stride : Int) : LossConfig Int Float := { config with strides := [stride] }

theorem read_distant {stride : Int} (h : (distant stride).check = .ok ()) :
    Config.read (distant stride).toMap = .ok (distant stride) := by
  have hs : Config.sectionEntries (distant stride).toMap =
    .ok ((distant stride).toEntries .int .float) := rfl
  have hu : Config.rejectUnknown ((distant stride).toEntries .int .float) = .ok () := rfl
  have ho : Config.ofEntries ((distant stride).toEntries .int .float) = .ok (distant stride) := rfl
  simp only [Config.read, hs, hu, ho, bind, Except.bind, LossConfig.checked, h]
  rfl

/-- Such settings are read, but no batch is drawn for them. -/
theorem not_batch_distant :
    (Config.read (distant (Nat.pow 10 309)).toMap = .ok (distant (Nat.pow 10 309)) ∧
      ∀ {σ : Type} [RandomSource σ (Binary .single)] (s : σ),
        batch? (F := Binary) (distant (Nat.pow 10 309)).detector 1 0 s = .error .imageRange) ∧
    Config.read (distant (Nat.pow 10 39)).toMap = .ok (distant (Nat.pow 10 39)) ∧
      ∀ {σ : Type} [RandomSource σ (Binary .single)] (s : σ),
        batch? (F := Binary) (distant (Nat.pow 10 39)).detector 1 1 s = .error .sizeRange := by
  have himage : error? (F := Binary) (distant (Nat.pow 10 309)).detector 1 0 = some .imageRange := by
    decide +kernel
  have hsize : error? (F := Binary) (distant (Nat.pow 10 39)).detector 1 1 = some .sizeRange := by
    decide +kernel
  exact ⟨⟨read_distant (by decide +kernel), fun s => by rw [batch?, himage]⟩,
    read_distant (by decide +kernel), fun s => by rw [batch?, hsize]⟩

end Tiny

end Synthetic

end AnchorLoss
