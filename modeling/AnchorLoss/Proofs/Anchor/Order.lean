import Mathlib
import AnchorLoss.Proofs.Anchor.Place
import AnchorLoss.Proofs.Tensor.Table

namespace AnchorLoss

@[ext]
structure Position where
  scale : Int
  row : Int
  col : Int
  ratio : Int
deriving Repr

namespace Position

def key (p : Position) : Int ×ₗ Int ×ₗ Int ×ₗ Int :=
  toLex (p.scale, toLex (p.row, toLex (p.col, p.ratio)))

theorem key_injective : Function.Injective key := by
  intro p q h
  simp only [key, EmbeddingLike.apply_eq_iff_eq, Prod.mk.injEq] at h
  exact Position.ext h.1 h.2.1 h.2.2.1 h.2.2.2

instance : LinearOrder Position := LinearOrder.lift' key key_injective

theorem lt_iff_lex {p q : Position} : p < q ↔ p.scale < q.scale ∨ p.scale = q.scale ∧
    (p.row < q.row ∨ p.row = q.row ∧ (p.col < q.col ∨ p.col = q.col ∧ p.ratio < q.ratio)) := by
  change key p < key q ↔ _
  simp only [key, Prod.Lex.toLex_lt_toLex]

end Position

namespace Grid

variable {ρ : Type} {g : Grid ρ} {p q : Position} {i j : Nat}

section Cells

variable {scales : List (Scale ρ)} {scale : Scale ρ} {s t c : Nat}

theorem cellCount_append (front rest : List (Scale ρ)) :
    cellCount (front ++ rest) = cellCount front + cellCount rest := by
  induction front with
  | nil => simp [cellCount]
  | cons scale front ih => simp only [List.cons_append, cellCount, ih, Nat.add_assoc]

theorem cellCount_take_add_lt (hs : scales[s]? = some scale) (hc : c < cells scale) (hst : s < t) :
    cellCount (scales.take s) + c < cellCount (scales.take t) := by
  have hnext : scales.take (s + 1) = scales.take s ++ [scale] := by
    rw [List.take_add_one, hs, Option.toList_some]
  obtain ⟨rest, hrest⟩ : scales.take (s + 1) <+: scales.take t := List.take_prefix_take_left hst
  rw [← hrest, hnext, cellCount_append, cellCount_append, cellCount, cellCount]
  omega

/-- Every cell is one of some scale. -/
theorem exists_scale_of_lt (hc : c < cellCount scales) : ∃ (s : Nat) (scale : Scale ρ) (d : Nat),
    scales[s]? = some scale ∧ d < cells scale ∧ c = cellCount (scales.take s) + d := by
  induction scales generalizing c with
  | nil => exact absurd hc (Nat.not_lt_zero c)
  | cons first rest ih =>
    rw [cellCount] at hc
    by_cases hfirst : c < cells first
    · exact ⟨0, first, c, rfl, hfirst, by simp [cellCount]⟩
    · have hrest : c - cells first < cellCount rest := by omega
      obtain ⟨s, scale, d, hs, hd, hcount⟩ := ih hrest
      refine ⟨s + 1, scale, d, by simpa using hs, hd, ?_⟩
      rw [List.take_succ_cons, cellCount]
      omega

end Cells

def indexAt (g : Grid ρ) (p : Position) : Except PositionError Nat :=
  g.indexOf p.scale p.row p.col p.ratio

/-- The grid has the scale and the ratio, and the map of the scale has the cell. -/
def InRange (g : Grid ρ) (p : Position) : Prop :=
  0 ≤ p.scale ∧ (0 ≤ p.ratio ∧ p.ratio < g.ratios.length) ∧
    ∃ scale ∈ g.scales[p.scale.toNat]?,
      (0 ≤ p.row ∧ p.row < scale.size) ∧ 0 ≤ p.col ∧ p.col < scale.size

instance (g : Grid ρ) (p : Position) : Decidable (g.InRange p) :=
  inferInstanceAs (Decidable (_ ∧ _ ∧ _))

def refusal (g : Grid ρ) (p : Position) : PositionError :=
  if 0 ≤ p.scale ∧ p.scale < g.scales.length then .cell p.row p.col p.ratio p.scale else .scale p.scale

theorem indexAt_of_not_inRange (h : ¬ g.InRange p) : g.indexAt p = .error (g.refusal p) := by
  rw [indexAt, indexOf, refusal]
  by_cases hscale : 0 ≤ p.scale ∧ p.scale < g.scales.length
  · have hs : g.scales[p.scale.toNat]? = some g.scales[p.scale.toNat] :=
      List.getElem?_eq_getElem (by omega)
    rw [if_pos hscale, if_neg (not_lt.mpr hscale.1), hs]
    refine if_neg fun ⟨hrow, hrowlt, hcol, hcollt, hratio⟩ => h ?_
    exact ⟨hscale.1, hratio, _, hs, ⟨hrow, hrowlt⟩, hcol, hcollt⟩
  · have hs : (if p.scale < 0 then none else g.scales[p.scale.toNat]?) = none := by
      split
      · rfl
      · exact List.getElem?_eq_none (by omega)
    rw [if_neg hscale, hs]

/-- A position in range and its number: cells are counted over all scales, and each has one anchor a ratio. -/
inductive Numbered (g : Grid ρ) : Position → Nat → Prop where
  | mk {s row col k : Nat} {scale : Scale ρ} (hs : g.scales[s]? = some scale)
      (hrow : (row : Int) < scale.size) (hcol : (col : Int) < scale.size) (hk : k < g.ratios.length) :
      Numbered g ⟨s, row, col, k⟩
        ((cellCount (g.scales.take s) + (row * scale.size.natAbs + col)) * g.ratios.length + k)

theorem cell_lt {scale : Scale ρ} {row col : Nat} (hrow : (row : Int) < scale.size)
    (hcol : (col : Int) < scale.size) : row * scale.size.natAbs + col < cells scale :=
  Tensor.flat_lt (by omega) (by omega)

/-- Every number is that of a position: the ratio and the column are remainders, the row a quotient. -/
theorem exists_position (hsize : ∀ s ∈ g.scales, 0 ≤ s.size) (hi : i < g.numAnchors) :
    ∃ p, Numbered g p i := by
  have hratios : 0 < g.ratios.length := Nat.pos_of_lt_mul_left hi
  obtain ⟨s, scale, c, hs, hc, hcount⟩ := exists_scale_of_lt (Nat.div_lt_of_lt_mul (by rwa [mul_comm]))
  have hnonneg := hsize scale (List.mem_of_getElem? hs)
  have hrow : c / scale.size.natAbs < scale.size.natAbs := Nat.div_lt_of_lt_mul hc
  have hcol : c % scale.size.natAbs < scale.size.natAbs := Nat.mod_lt _ (Nat.zero_lt_of_lt hrow)
  have hnumber : (cellCount (g.scales.take s) +
      (c / scale.size.natAbs * scale.size.natAbs + c % scale.size.natAbs)) * g.ratios.length +
        i % g.ratios.length = i := by
    rw [Nat.div_add_mod', ← hcount, Nat.div_add_mod']
  rw [← hnumber]
  exact ⟨_, .mk hs (by omega) (by omega) (Nat.mod_lt _ hratios)⟩

namespace Numbered

theorem inRange (h : Numbered g p i) : g.InRange p := by
  obtain ⟨hs, hrow, hcol, hk⟩ := h
  exact ⟨Int.natCast_nonneg _, ⟨Int.natCast_nonneg _, Int.ofNat_lt.mpr hk⟩, _, hs,
    ⟨Int.natCast_nonneg _, hrow⟩, Int.natCast_nonneg _, hcol⟩

theorem indexAt_eq (h : Numbered g p i) : g.indexAt p = .ok i := by
  obtain ⟨hs, hrow, hcol, hk⟩ := h
  rw [indexAt, indexOf_eq_ok hs hrow hcol (List.getElem?_eq_getElem hk), ← Nat.add_assoc, ← Nat.add_mul]

theorem lt_numAnchors (h : Numbered g p i) : i < g.numAnchors := by
  obtain ⟨hs, hrow, hcol, hk⟩ := h
  have hcount := cellCount_take_add_lt hs (cell_lt hrow hcol) (List.getElem?_eq_some_iff.mp hs).1
  rw [List.take_length] at hcount
  exact Tensor.flat_lt hcount hk

theorem number_eq (hi : Numbered g p i) (hj : Numbered g p j) : i = j :=
  Except.ok.inj (hi.indexAt_eq.symm.trans hj.indexAt_eq)

theorem lt_of_lt (hp : Numbered g p i) (hq : Numbered g q j) (hlt : p < q) : i < j := by
  cases hp with | @mk s row col k scale hs hrow hcol hk
  cases hq with | @mk t row' col' k' scale' ht hrow' hcol' hk'
  simp only [Position.lt_iff_lex, Int.ofNat_lt, Int.ofNat_inj] at hlt
  refine Tensor.flat_lt_flat hk ?_
  obtain hst | ⟨rfl, hcell⟩ := hlt
  · left
    calc cellCount (g.scales.take s) + (row * scale.size.natAbs + col)
      _ < cellCount (g.scales.take t) := cellCount_take_add_lt hs (cell_lt hrow hcol) hst
      _ ≤ _ := Nat.le_add_right _ _
  · -- in one scale, cells compare by row and column, and within a cell the ratio decides
    obtain rfl := Option.some.inj (hs.symm.trans ht)
    have hwidth : col < scale.size.natAbs := by omega
    obtain hlt | ⟨rfl, hlt | ⟨rfl, hlt⟩⟩ := hcell
    · exact .inl (Nat.add_lt_add_left (Tensor.flat_lt_flat hwidth (.inl hlt)) _)
    · exact .inl (Nat.add_lt_add_left (Tensor.flat_lt_flat hwidth (.inr ⟨rfl, hlt⟩)) _)
    · exact .inr ⟨rfl, hlt⟩

theorem position_eq (hp : Numbered g p i) (hq : Numbered g q i) : p = q := by
  refine le_antisymm (not_lt.mp fun h => ?_) (not_lt.mp fun h => ?_)
  · exact (hq.lt_of_lt hp h).false
  · exact (hp.lt_of_lt hq h).false

end Numbered

theorem exists_number (h : g.InRange p) : ∃ i : Fin g.numAnchors, Numbered g p i := by
  obtain ⟨s, row, col, k⟩ := p
  obtain ⟨hscale, ⟨hk, hklt⟩, scale, hs, ⟨hrow, hrowlt⟩, hcol, hcollt⟩ := h
  lift s to Nat using hscale
  lift row to Nat using hrow
  lift col to Nat using hcol
  lift k to Nat using hk
  have hnumber := Numbered.mk hs hrowlt hcollt (Int.ofNat_lt.mp hklt)
  exact ⟨⟨_, hnumber.lt_numAnchors⟩, hnumber⟩

theorem numbered_of_indexAt (h : g.indexAt p = .ok i) : Numbered g p i := by
  by_cases hp : g.InRange p
  · obtain ⟨j, hj⟩ := exists_number hp
    obtain rfl := Except.ok.inj (hj.indexAt_eq.symm.trans h)
    exact hj
  · rw [indexAt_of_not_inRange hp] at h
    cases h

/-- Positions in range, in their order, are the numbers of the anchors in theirs; all other positions are
refused, and no number is given twice. -/
theorem indexAt_orderIso (g : Grid ρ) (hsize : ∀ s ∈ g.scales, 0 ≤ s.size) :
    (∃ e : {p // g.InRange p} ≃o Fin g.numAnchors, ∀ p, g.indexAt p.1 = .ok (e p).1) ∧
    (∀ p, g.indexAt p = .error (g.refusal p) ↔ ¬ g.InRange p) ∧
    ∀ p q i, g.indexAt p = .ok i → g.indexAt q = .ok i → p = q := by
  choose number hnumber using fun p : {p // g.InRange p} => exists_number p.2
  have hmono : StrictMono number := fun p q hpq => (hnumber p).lt_of_lt (hnumber q) hpq
  have hsurj : Function.Surjective number := by
    intro i
    obtain ⟨p, hp⟩ := exists_position hsize i.2
    exact ⟨⟨p, hp.inRange⟩, Fin.ext ((hnumber _).number_eq hp)⟩
  refine ⟨⟨hmono.orderIsoOfSurjective number hsurj, fun p => (hnumber p).indexAt_eq⟩, ?_, ?_⟩
  · refine fun p => ⟨fun hrefused hp => ?_, indexAt_of_not_inRange⟩
    obtain ⟨i, hi⟩ := exists_number hp
    cases hrefused.symm.trans hi.indexAt_eq
  · intro p q i hp hq
    exact (numbered_of_indexAt hp).position_eq (numbered_of_indexAt hq)

theorem indexAt_orderIso_gap : (∀ s ∈ gapGrid.scales, 0 ≤ s.size) ∧
    (∃ e : {p // gapGrid.InRange p} ≃o Fin gapGrid.numAnchors,
      (e ⟨⟨0, 1, 1, 1⟩, by decide⟩).1 = 7 ∧ (e ⟨⟨2, 0, 0, 0⟩, by decide⟩).1 = 8) ∧
    gapGrid.indexAt ⟨1, 0, 0, 0⟩ = .error (.cell 0 0 0 1) ∧
    gapGrid.indexAt ⟨-1, 0, 0, 0⟩ = .error (.scale (-1)) := by
  have hsize : ∀ s ∈ gapGrid.scales, 0 ≤ s.size := by decide
  obtain ⟨⟨e, he⟩, hrefused, -⟩ := indexAt_orderIso gapGrid hsize
  refine ⟨hsize, ⟨e, ?_, ?_⟩, (hrefused _).mpr (by decide), (hrefused _).mpr (by decide)⟩
  · exact Except.ok.inj ((he _).symm.trans (by decide))
  · exact Except.ok.inj ((he _).symm.trans (by decide))

end Grid

end AnchorLoss
