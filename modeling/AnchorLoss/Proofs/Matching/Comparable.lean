import Mathlib
import AnchorLoss.Proofs.Binary.Number
import AnchorLoss.Proofs.Matching.Kept
import AnchorLoss.Proofs.Tensor.Overlap
import AnchorLoss.Tensor.Select

namespace AnchorLoss

open Scalar

instance : LawfulLe Float :=
  have h : ∀ p, LawfulLe (Binary p) := inferInstance
  h .double

theorem Scalar.argmax?_eq_some_iff {α : Type} [Scalar α] [LawfulLe α] {n : Nat} {v : Vector α n} {i : Fin n} :
    argmax? v = some i ↔ IsArgmax v.get i := by
  have hv : Vector.ofFn v.get = v := Vector.ext fun j hj => by simp [Vector.get_eq_getElem]
  rw [← argmax?_ofFn_eq_some_iff, hv]

namespace Match

variable {α : Type} [Scalar α] {n g : Nat}

/-- Matches that come from overlaps which can all be compared. -/
structure Comparable (overlap : Fin n → Fin g → α) (ms : Vector (Match α g) n) : Prop where
  claims_iff : ∀ a b, Claims overlap b a ↔ IsFirstMax (overlap · b) a
  claimed : ∀ b, 0 < n → ∃ a, IsFirstMax (overlap · b) a ∧ (ms.get a).positive
  isNumber : ∀ a, ¬ isNaN (ms.get a).overlap

section Table

variable [LawfulLe α] {overlap : Fin n → Fin g → α} (hn : ∀ a b, ¬ isNaN (overlap a b))

include hn

theorem comparable_assign (threshold : α) : Comparable overlap (assign threshold overlap) where
  claims_iff _ b := claims_iff_isFirstMax (hn · b)
  claimed b h0 := by
    obtain ⟨a, ha⟩ := exists_isFirstMax (fun a => hn a b) ⟨0, h0⟩
    exact ⟨a, ha, ((Standing.assign threshold overlap a).positive_iff hn).mpr ⟨b, .inl ha⟩⟩
  isNumber a := (Standing.assign threshold overlap a).greatest.isNumber

end Table

end Match

namespace Tensor

open Match

theorem select_float_eq_ok {p : Precision} {axis i : Nat} {t : Tensor (Binary p)} {r : TypedTensor Binary}
    (h : (TypedTensor.float p t).select axis i = .ok r) :
    ∃ u, t.select? axis i = some u ∧ r = .float p u := by
  unfold TypedTensor.select at h
  split at h
  · cases h
  · split at h
    · obtain ⟨u, hu, rfl⟩ := Option.map_eq_some_iff.mp (eq_ok_of_orMismatch h)
      exact ⟨u, hu, rfl⟩
    · cases h

theorem isNumber_column {t : FloatTensor Binary} (ht : t.All fun x => ¬ isNaN x) {n b : Nat}
    {v : Vector Float n} (h : column n b t.typed = .ok v) (a : Fin n) : ¬ isNaN (v.get a) := by
  obtain ⟨r, hr, h⟩ := exists_of_bind_eq_ok h
  obtain ⟨u, hu, rfl⟩ := select_float_eq_ok hr
  have hall : ∀ x ∈ (doubles (.float t.precision u)).data, ¬ isNaN x := by
    intro x hx
    obtain ⟨y, hy, rfl⟩ := Array.mem_map.mp hx
    exact Binary.not_isNaN_convert (ht y (mem_select? hu hy))
  have hmem : v.get a ∈ v.toArray := Array.getElem_mem _
  dsimp only at h
  split at h
  · split at h
    · obtain rfl := Except.ok.inj h
      exact hall _ hmem
    · obtain ⟨-, -, h⟩ := exists_of_bind_eq_ok h
      cases h
  · obtain ⟨-, -, h⟩ := exists_of_bind_eq_ok h
    cases h

def stored (type : ElementType) (x : Float) : Float :=
  ((doubles ((TypedTensor.float .double (ofScalar x) : TypedTensor Binary).cast type)).data[0]?).getD 0

theorem isNumber_stored (type : ElementType) {x : Binary .double} (hx : ¬ isNaN x) : ¬ isNaN (stored type x) := by
  cases type with
  | float p =>
    have hstored : stored (.float p) x = convert (p := p) (q := .double) (convert x) := by
      simp [stored, doubles, TypedTensor.cast, TypedTensor.toFloat, Tensor.map, ofScalar]
    rw [hstored]
    exact Binary.not_isNaN_convert (q := .double) (Binary.not_isNaN_convert (q := p) hx)
  | int64 | int32 | bool =>
    simp only [stored, doubles, TypedTensor.cast, TypedTensor.toFloat, TypedTensor.toInts,
      TypedTensor.toBools, Tensor.map, ofScalar, Array.map_singleton, List.getElem?_toArray,
      List.getElem?_cons_zero, Option.getD_some]
    exact Binary.not_isNaN_ofInt _

section Meet

variable {n g : Nat} {threshold : Float} {type : ElementType} {table : TypedTensor Binary} {truths : Truths}

theorem meet_eq_ok {state state' : Vector (Match Float g) n × List (Box Float)} {b : Fin g}
    (h : meet threshold type table truths state b = .ok state') :
    0 < n ∧ ∃ v, column n b table = .ok v ∧
      state'.1 = (meetAll threshold b v state.1).map fun m => { m with overlap := stored type m.overlap } := by
  obtain ⟨v, hv, h⟩ := exists_of_bind_eq_ok h
  dsimp only at h
  split at h
  · cases h
  obtain ⟨box, -, h⟩ := exists_of_bind_eq_ok h
  split at h
  · cases h
  rename_i h0
  obtain rfl := Except.ok.inj h
  exact ⟨Nat.pos_of_ne_zero h0, v, hv, rfl⟩

variable {t : FloatTensor Binary} (ht : t.All fun x => ¬ isNaN x)

include ht

/-- After it has met some boxes, every anchor still has a number, positive anchors have stayed so, and each of
the boxes has made an anchor positive that it overlaps most. -/
theorem foldlM_meet {bs : List (Fin g)} {state state' : Vector (Match Float g) n × List (Box Float)}
    (h : bs.foldlM (meet threshold type t.typed truths) state = .ok state')
    (hs : ∀ a, ¬ isNaN (state.1.get a).overlap) :
    (∀ a, ¬ isNaN (state'.1.get a).overlap) ∧ (∀ a, (state.1.get a).positive → (state'.1.get a).positive) ∧
      ∀ b ∈ bs, ∃ v, column n b t.typed = .ok v ∧ ∃ a, IsFirstMax v.get a ∧ (state'.1.get a).positive := by
  induction bs generalizing state with
  | nil =>
    obtain rfl := Except.ok.inj h
    exact ⟨hs, fun _ ha => ha, fun _ hb => nomatch hb⟩
  | cons b bs ih =>
    rw [List.foldlM_cons] at h
    obtain ⟨next, hnext, h⟩ := exists_of_bind_eq_ok h
    obtain ⟨h0, v, hv, heq⟩ := meet_eq_ok hnext
    have hcolumn := isNumber_column ht hv
    have hget : ∀ a, next.1.get a = { (state.1.get a).meet threshold b (v.get a) (argmax? v == some a) with
        overlap := stored type ((state.1.get a).meet threshold b (v.get a) (argmax? v == some a)).overlap } := by
      intro a
      rw [heq, Vector.get_map, meetAll, Vector.get_ofFn]
    have hnumber : ∀ a, ¬ isNaN (next.1.get a).overlap := by
      intro a
      rw [hget]
      refine isNumber_stored _ ?_
      rw [overlap_meet, overlap_improve]
      split
      · exact hcolumn a
      · exact hs a
    have hkept : ∀ a, (state.1.get a).positive → (next.1.get a).positive := by
      intro a ha
      rw [hget]
      simp [positive_meet, ha]
    obtain ⟨hall, hpositive, hclaimed⟩ := ih h hnumber
    refine ⟨hall, fun a ha => hpositive a (hkept a ha), fun c hc => ?_⟩
    obtain rfl | hc := List.mem_cons.mp hc
    · obtain ⟨a, ha⟩ := exists_isFirstMax hcolumn ⟨0, h0⟩
      have hargmax : argmax? v = some a :=
        argmax?_eq_some_iff.mpr ((isArgmax_iff_isFirstMax hcolumn).mpr ha)
      refine ⟨v, hv, a, ha, hpositive a ?_⟩
      rw [hget, hargmax]
      simp [positive_meet]
    · exact hclaimed c hc

end Meet

theorem assign_comparable {threshold : Float} {centers sizes : TypedTensor Binary}
    {truths : Except TensorError Truths} {s : Assignment} (h : assign threshold centers sizes truths = .ok s) :
    ∃ boxes, truths = .ok boxes ∧ (∀ a, ¬ isNaN (s.matched.get a).overlap) ∧ (s.truths ≠ 0 →
      ∃ t, pairwiseOverlap centers sizes (boxes.centers.cast centers.elementType)
          (boxes.sizes.cast centers.elementType) = .ok t ∧
        ∀ b < s.truths, ∃ v : Vector Float s.anchors, column s.anchors b t.typed = .ok v ∧
          ∃ a, IsFirstMax v.get a ∧ (s.matched.get a).positive) := by
  unfold assign at h
  dsimp only at h
  split at h
  · cases h
  obtain ⟨boxes, hboxes, h⟩ := exists_of_bind_eq_ok h
  obtain ⟨n, -, h⟩ := exists_of_bind_eq_ok h
  obtain ⟨g, -, h⟩ := exists_of_bind_eq_ok h
  refine ⟨boxes, eq_ok_of_mapError hboxes, ?_⟩
  split at h
  · obtain rfl := Except.ok.inj h
    refine ⟨fun a => ?_, fun h0 => absurd rfl h0⟩
    rw [Vector.get_replicate]
    exact LawfulLe.not_isNaN_zero
  obtain ⟨t, ht, h⟩ := exists_of_bind_eq_ok h
  obtain ⟨⟨ms, targets⟩, hms, h⟩ := exists_of_bind_eq_ok h
  obtain ⟨classes, -, h⟩ := exists_of_bind_eq_ok h
  obtain rfl := Except.ok.inj h
  have ht' := eq_ok_of_mapError ht
  have hnumber : t.All fun x => ¬ isNaN x := fun x hx =>
    Binary.not_isNaN_of_nonneg (nonneg_pairwiseOverlap ht' x hx)
  have hunmatched : ∀ a : Fin n, ¬ isNaN ((Vector.replicate n (unmatched : Match Float g)).get a).overlap := by
    intro a
    rw [Vector.get_replicate]
    exact LawfulLe.not_isNaN_zero
  obtain ⟨hall, -, hclaimed⟩ := foldlM_meet hnumber (eq_ok_of_mapError hms) hunmatched
  exact ⟨hall, fun _ => ⟨t, ht', fun b hb => hclaimed ⟨b, hb⟩ (List.mem_finRange _)⟩⟩

end Tensor

namespace Match

open Tensor

/-- Whatever the coordinates of the boxes are, numbers or not, no overlap is negative or not a number: this holds
of every table that comes out, and tables with a row for every box do come out. So the anchor that a box claims
is always one that it overlaps most, and the overlap that an anchor is left with is a number. -/
theorem overlaps_comparable :
    (∀ {centersA sizesA centersB sizesB : TypedTensor Binary} {t : FloatTensor Binary},
      pairwiseOverlap centersA sizesA centersB sizesB = .ok t →
        ∀ x ∈ t.tensor.data, ¬ isNaN x ∧ le zero x) ∧
    (∀ {p : Precision} {n m : Nat} (as : Vector (Box (Binary p)) n) (bs : Vector (Box (Binary p)) m),
      pairwiseOverlap (.float p (centersOf as)) (.float p (sizesOf as)) (.float p (centersOf bs))
          (.float p (sizesOf bs)) =
        .ok ⟨p, ofRows (Vector.ofFn fun a => Vector.ofFn fun b => (as.get a).overlap (bs.get b))⟩) ∧
    (∀ {p : Precision} {n g : Nat} (threshold : Binary p) (anchors : Vector (Box (Binary p)) n)
      (boxes : Vector (Box (Binary p)) g),
      Comparable (fun a b => (anchors.get a).overlap (boxes.get b)) (ofBoxes threshold anchors boxes)) ∧
    ∀ {threshold : Float} {centers sizes : TypedTensor Binary} {truths : Except TensorError Truths}
      {s : Assignment}, Tensor.assign threshold centers sizes truths = .ok s →
      ∃ boxes, truths = .ok boxes ∧ (∀ a, ¬ isNaN (s.matched.get a).overlap) ∧ (s.truths ≠ 0 →
        ∃ t, pairwiseOverlap centers sizes (boxes.centers.cast centers.elementType)
            (boxes.sizes.cast centers.elementType) = .ok t ∧
          ∀ b < s.truths, ∃ v : Vector Float s.anchors, column s.anchors b t.typed = .ok v ∧
            ∃ a, IsFirstMax v.get a ∧ (s.matched.get a).positive) := by
  have hle : ∀ p, LawfulLe (Binary p) := inferInstance
  refine ⟨fun h x hx => ?_, pairwiseOverlap_boxes, fun {p} _ _ threshold anchors boxes => ?_, assign_comparable⟩
  · have hx := nonneg_pairwiseOverlap h x hx
    exact ⟨Binary.not_isNaN_of_nonneg hx, Binary.le_zero_of_nonneg hx⟩
  · have := hle p
    exact comparable_assign (fun a b => Binary.not_isNaN_overlap _ _) threshold

def strangeBoxes : Vector (Box (Binary .single)) 2 := #v[⟨⟨0 / 0, 4⟩, ⟨8, 8⟩⟩, ⟨⟨4, 4⟩, ⟨1 / 0, -8⟩⟩]

def strangeTruths : Truths :=
  ⟨.float .single (centersOf strangeBoxes), .float .single (sizesOf strangeBoxes), .int64 (ofVector #v[1, 1])⟩

theorem overlaps_comparable_strange :
    (∃ t, pairwiseOverlap (.float .single (centersOf adjacentAnchors)) (.float .single (sizesOf adjacentAnchors))
      (.float .single (centersOf strangeBoxes)) (.float .single (sizesOf strangeBoxes)) = .ok t ∧
      t.shape = [2, 2] ∧ ∀ x ∈ t.tensor.data, ¬ isNaN x ∧ le zero x) ∧
    (∃ s, Tensor.assign 0.5 (.float .single (centersOf adjacentAnchors)) (.float .single (sizesOf adjacentAnchors))
        (.ok strangeTruths) = .ok s ∧
      s.anchors = 2 ∧ s.truths = 2 ∧ (∀ a, ¬ isNaN (s.matched.get a).overlap) ∧ ∃ a, (s.matched.get a).positive) ∧
    isNaN (strangeBoxes.get ⟨0, by decide⟩).center.y := by
  obtain ⟨htables, hrows, -, hassign⟩ := overlaps_comparable
  have hrows' := hrows adjacentAnchors strangeBoxes
  refine ⟨⟨_, hrows', rfl, htables hrows'⟩, ?_, by decide +kernel⟩
  have h : ((Tensor.assign 0.5 (.float .single (centersOf adjacentAnchors))
      (.float .single (sizesOf adjacentAnchors)) (.ok strangeTruths)).toOption.map
        fun s => (s.anchors, s.truths)) = some (2, 2) := by
    decide +kernel
  obtain ⟨s, hs, hsizes⟩ := Option.map_eq_some_iff.mp h
  have hs := eq_ok_of_toOption hs
  obtain ⟨hn, hg⟩ := Prod.mk.inj hsizes
  obtain ⟨boxes, -, hall, hclaimed⟩ := hassign hs
  obtain ⟨t, -, hcolumns⟩ := hclaimed (by rw [hg]; decide)
  obtain ⟨v, -, a, -, ha⟩ := hcolumns 0 (by rw [hg]; decide)
  exact ⟨s, hs, hn, hg, hall, a, ha⟩

end Match

end AnchorLoss
