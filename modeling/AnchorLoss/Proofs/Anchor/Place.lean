import Mathlib
import AnchorLoss.Anchor.Grid
import AnchorLoss.Proofs.Binary.Total
import AnchorLoss.Proofs.Tensor.Element

namespace AnchorLoss

namespace Grid

open Scalar

section Place

variable {F : Precision → Type} [Arithmetic F]

structure Placed (g : Grid (Wide F)) (anchors : List (Box (F .single))) : Prop where
  length_eq : anchors.length = g.numAnchors
  exists_index : ∀ (s row col k : Nat) (scale : Scale (Wide F)) (ratio : Wide F),
    g.scales[s]? = some scale → (row : Int) < scale.size → (col : Int) < scale.size →
    g.ratios[k]? = some ratio → ∃ i, g.indexOf s row col k = .ok i ∧
      anchors[i]? = some
        ⟨⟨(ofNat row + half) * ofInt scale.stride, (ofNat col + half) * ofInt scale.stride⟩,
          ⟨convert (scale.anchorSize * sqrt ratio), convert (scale.anchorSize / sqrt ratio)⟩⟩

/-- Within a scale, anchors are numbered by row, then by column, then by ratio. -/
theorem getElem?_boxesOf {s : Scale (Wide F)} {ratios : List (Wide F)} {row col k : Nat}
    (hrow : row < s.size.natAbs) (hcol : col < s.size.natAbs) {ratio : Wide F}
    (hratio : ratios[k]? = some ratio) :
    (boxesOf s ratios)[(row * s.size.natAbs + col) * ratios.length + k]? =
      some ⟨⟨cellCenter s.stride row, cellCenter s.stride col⟩, anchorExtent s.anchorSize ratio⟩ := by
  have hk : k < ratios.length := (List.getElem?_eq_some_iff.mp hratio).1
  have hcell : ∀ row col, (boxesAt s ratios row col).length = ratios.length := fun row col => by
    simp [boxesAt]
  have hline : ∀ row, ((List.range s.size.natAbs).flatMap (boxesAt s ratios row)).length =
      s.size.natAbs * ratios.length := fun row => by
    simp [List.length_flatMap, hcell]
  have hindex : (row * s.size.natAbs + col) * ratios.length + k =
      row * (s.size.natAbs * ratios.length) + (col * ratios.length + k) := by ring
  rw [boxesOf, hindex, Tensor.getElem?_flatMap_block _ _ hline _ _ _ (Tensor.flat_lt hcol hk),
    List.getElem?_range hrow, Option.bind_some,
    Tensor.getElem?_flatMap_block _ _ (hcell row) _ _ _ hk, List.getElem?_range hcol, Option.bind_some,
    boxesAt, List.getElem?_map, hratio, Option.map_some]

theorem boxes_eq_append {g : Grid (Wide F)} {s : Nat} {scale : Scale (Wide F)}
    (h : g.scales[s]? = some scale) : g.boxes =
      (⟨g.scales.take s, g.ratios⟩ : Grid (Wide F)).boxes ++
        (boxesOf scale g.ratios ++ (⟨g.scales.drop (s + 1), g.ratios⟩ : Grid (Wide F)).boxes) := by
  obtain ⟨hs, rfl⟩ := List.getElem?_eq_some_iff.mp h
  have hsplit : g.scales = g.scales.take s ++ g.scales[s] :: g.scales.drop (s + 1) := by
    rw [← List.drop_eq_getElem_cons hs, List.take_append_drop]
  simp only [boxes]
  conv_lhs => rw [hsplit, List.flatMap_append, List.flatMap_cons]

theorem indexOf_eq_ok {ρ : Type} {g : Grid ρ} {s row col k : Nat} {scale : Scale ρ} {ratio : ρ}
    (hs : g.scales[s]? = some scale) (hrow : (row : Int) < scale.size) (hcol : (col : Int) < scale.size)
    (hratio : g.ratios[k]? = some ratio) : g.indexOf s row col k =
      .ok (cellCount (g.scales.take s) * g.ratios.length +
        ((row * scale.size.natAbs + col) * g.ratios.length + k)) := by
  have hk : (k : Int) < g.ratios.length := Int.ofNat_lt.mpr (List.getElem?_eq_some_iff.mp hratio).1
  have hnat : scale.size.toNat = scale.size.natAbs := by omega
  unfold indexOf
  rw [if_neg (not_lt.mpr (Int.natCast_nonneg s)), Int.toNat_natCast, hs]
  dsimp only
  rw [if_pos ⟨Int.natCast_nonneg row, hrow, Int.natCast_nonneg col, hcol, Int.natCast_nonneg k, hk⟩,
    hnat, Int.toNat_natCast, Int.toNat_natCast, Int.toNat_natCast, Nat.add_assoc]

theorem placed_boxes (g : Grid (Wide F)) : Placed g g.boxes := by
  refine ⟨g.length_boxes, fun s row col k scale ratio hs hrow hcol hratio => ?_⟩
  refine ⟨_, indexOf_eq_ok hs hrow hcol hratio, ?_⟩
  have hlength : (⟨g.scales.take s, g.ratios⟩ : Grid (Wide F)).boxes.length =
      cellCount (g.scales.take s) * g.ratios.length := length_boxes _
  have hbox : (boxesOf scale g.ratios)[(row * scale.size.natAbs + col) * g.ratios.length + k]? = some _ :=
    getElem?_boxesOf (by omega) (by omega) hratio
  have hwithin := (List.getElem?_eq_some_iff.mp hbox).1
  rw [boxes_eq_append hs, ← hlength, List.getElem?_append_right (Nat.le_add_right _ _),
    Nat.add_sub_cancel_left, List.getElem?_append_left hwithin, hbox]
  rfl

theorem placed_of_anchors {g : Grid (Wide F)} {v : Vector (Box (F .single)) g.numAnchors}
    (h : g.anchors = .ok v) : Placed g v.toList := by
  unfold anchors at h
  split at h
  · cases h
  · obtain rfl := Except.ok.inj h
    exact placed_boxes g

end Place

section Config

/-- Anchors that are generated are where they are numbered. Those of settings that are read are as many as
the settings say. -/
theorem anchors_placed :
    (∀ (g : Grid (Wide Binary)) (v : Vector (Box (Binary .single)) g.numAnchors), g.anchors = .ok v →
      Placed g v.toList) ∧
    ∀ (document : Value) (c : LossConfig Int Float), Config.read document = .ok c →
      ∃ g : Grid (Wide Binary), ofConfig c = .ok g ∧ (g.numAnchors : Int) = c.numAnchors ∧
        ∀ v, g.anchors = .ok v → (v.toList.length : Int) = c.numAnchors := by
  refine ⟨fun g v h => placed_of_anchors h, fun document c hread => ?_⟩
  have hlayout := Config.hasLayout_of_read hread
  have hcount : (c.detector.grid.numAnchors : Int) = c.numAnchors := hlayout.numAnchors_eq
  refine ⟨c.detector.grid, hlayout.grid_ofConfig, hcount, fun v h => ?_⟩
  rw [(placed_of_anchors h).length_eq, hcount]

def gapGrid : Grid (Wide Binary) := ⟨[⟨2, 8, 10⟩, ⟨0, 16, 20⟩, ⟨1, 32, 40⟩], [1, 4]⟩

theorem anchors_placed_gap : gapGrid.indexOf 2 0 0 1 = .ok 9 ∧ (∃ v, gapGrid.anchors = .ok v ∧
      Placed gapGrid v.toList ∧ v.toList[9]? = some ⟨⟨16, 16⟩, ⟨80, 20⟩⟩) ∧
    Config.read Tiny.config.toMap = .ok Tiny.config ∧
    ∃ g : Grid (Wide Binary), ofConfig Tiny.config = .ok g ∧ g.numAnchors = 2 := by
  obtain ⟨v, hv⟩ := exists_anchors (show error? (F := Binary) gapGrid = none by decide +kernel)
  have hplaced := anchors_placed.1 gapGrid v hv
  have hindex : gapGrid.indexOf 2 0 0 1 = .ok 9 := by decide +kernel
  obtain ⟨i, hi, hrow⟩ := hplaced.exists_index 2 0 0 1 ⟨1, 32, 40⟩ 4 rfl (by decide) (by decide) rfl
  obtain rfl := Except.ok.inj (hindex.symm.trans hi)
  have hcenter : (ofNat 0 + half : Float32) * ofInt 32 = 16 := by decide +kernel
  have hheight : convert (F := Binary) (p := .double) (q := .single) (40 * sqrt (4 : Float)) =
      (80 : Float32) := by decide +kernel
  have hwidth : convert (F := Binary) (p := .double) (q := .single) (40 / sqrt (4 : Float)) =
      (20 : Float32) := by decide +kernel
  obtain ⟨g, hg, hcount, -⟩ := anchors_placed.2 Tiny.config.toMap Tiny.config Binary.read_config
  refine ⟨hindex, ⟨v, hv, hplaced, hrow.trans ?_⟩, Binary.read_config, g, hg, ?_⟩
  · rw [Option.some_inj, Box.mk.injEq, Axes.mk.injEq, Axes.mk.injEq]
    exact ⟨⟨hcenter, hcenter⟩, hheight, hwidth⟩
  · exact Int.ofNat.inj (hcount.trans (by decide +kernel))

end Config

end Grid

end AnchorLoss
