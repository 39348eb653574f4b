import Mathlib
import AnchorLoss.Proofs.Binary.Number
import AnchorLoss.Proofs.Binary.Order
import AnchorLoss.Proofs.Engine.Form
import AnchorLoss.Proofs.Exact.Basic
import AnchorLoss.Proofs.Mining.Confidence
import AnchorLoss.Proofs.Tensor.Rows

namespace AnchorLoss

open Scalar

theorem takeWhile_take {α : Type} {p : α → Bool} {l : List α} {c : Nat} (h : ∀ x, l[c]? = some x → ¬ p x) :
    (l.take c).takeWhile p = l.takeWhile p := by
  induction l generalizing c with
  | nil => rw [List.take_nil]
  | cons x l ih =>
    cases c with
    | zero => rw [List.take_zero, List.takeWhile_nil, List.takeWhile_cons_of_neg (h x rfl)]
    | succ c => rw [List.take_succ_cons, List.takeWhile_cons, List.takeWhile_cons, ih h]

/-- A number stays zero in the other precision. -/
class LawfulZero (F : Precision → Type) [Arithmetic F] : Prop where
  zero_eq_zero {p : Precision} : eq (zero : F p) zero
  convert_eq_zero {p q : Precision} {x : F p} : eq x zero → eq (convert x : F q) zero

instance : LawfulZero Binary where
  zero_eq_zero := Binary.eq_zero_iff.mpr (Binary.isZero_zero _)
  convert_eq_zero h := Binary.eq_zero_iff.mpr (Binary.isZero_convert (Binary.eq_zero_iff.mp h))

instance {K : Type} [Field K] [LinearOrder K] [FloorRing K] (T : Functions K) : LawfulZero (Exact T) where
  zero_eq_zero := by simp [eq]
  convert_eq_zero h := h

namespace Tensor

variable {α β : Type} {m w : Nat}

/-- Batches of `m` rows of `w` entries that hold the same in every image up to a row whose flag is zero in both, or
else in all rows. -/
def SameFront (isZero : α → Bool) (m w : Nat) (t u : Tensor α) : Prop :=
  ∀ b, ∃ c ≤ m, (∀ r < c, ∀ j < w, u.element? m w b r j = t.element? m w b r j) ∧
    (c < m → (t.element? m w b c 0).any isZero ∧ (u.element? m w b c 0).any isZero)

theorem SameFront.map {isZero : α → Bool} {isZero' : β → Bool} {f : α → β}
    (hf : ∀ x, isZero x → isZero' (f x)) {t u : Tensor α} (h : t.SameFront isZero m w u) :
    (t.map f).SameFront isZero' m w (u.map f) := by
  intro b
  obtain ⟨c, hc, hrows, hflag⟩ := h b
  have hany {o : Option α} (ho : o.any isZero) : (o.map f).any isZero' := by
    cases o with
    | none => cases ho
    | some x => exact hf x ho
  refine ⟨c, hc, fun r hr j hj => ?_, fun hcm => ?_⟩
  · rw [element?_map, element?_map, hrows r hr j hj]
  · rw [element?_map, element?_map]
    exact ⟨hany (hflag hcm).1, hany (hflag hcm).2⟩

theorem SameFront.takeWhile_isPresent [Scalar α] {k : Nat} {t u : Tensor α}
    (h : t.SameFront (eq · zero) m (5 + (k + 1)) u) {n n' : Nat} (ht : volume t.shape = n * m * (5 + (k + 1)))
    (hu : volume u.shape = n' * m * (5 + (k + 1))) (b : Nat) (hb : b < (t.images n m _ ht).length)
    (hb' : b < (u.images n' m _ hu).length) :
    ((u.images n' m _ hu)[b].map LabelRow.ofVector).toList.takeWhile LabelRow.isPresent =
      ((t.images n m _ ht)[b].map LabelRow.ofVector).toList.takeWhile LabelRow.isPresent := by
  obtain ⟨c, hc, hrows, hflag⟩ := h b
  have hstop {v : Tensor α} {n : Nat} (hv : volume v.shape = n * m * (5 + (k + 1)))
      (hbv : b < (v.images n m _ hv).length)
      (hz : c < m → (v.element? m (5 + (k + 1)) b c 0).any (eq · zero)) (row : LabelRow α k)
      (hrow : ((v.images n m _ hv)[b].map LabelRow.ofVector).toList[c]? = some row) : ¬ row.isPresent := by
    obtain ⟨hcm, rfl⟩ := List.getElem?_eq_some_iff.mp hrow
    have hcm' : c < m := by simpa using hcm
    have he := element?_images v n m _ hv b hbv ⟨c, hcm'⟩ ⟨0, by omega⟩
    have hzero := hz hcm'
    rw [he, Option.any_some] at hzero
    have hpresence : (((v.images n m _ hv)[b].map (LabelRow.ofVector (k := k))).toList[c]).presence =
        ((v.images n m _ hv)[b].get ⟨c, hcm'⟩).get ⟨0, by omega⟩ := by
      simp [LabelRow.ofVector, Vector.get_eq_getElem]
    rw [LabelRow.isPresent, hpresence, hzero]
    decide
  rw [← takeWhile_take (hstop ht hb fun hcm => (hflag hcm).1),
    ← takeWhile_take (hstop hu hb' fun hcm => (hflag hcm).2)]
  refine congrArg _ (List.ext_getElem (by simp) fun r hr hr' => ?_)
  have hrc : r < c := by
    rw [List.length_take] at hr
    exact lt_of_lt_of_le hr (min_le_left _ _)
  have hrow : (u.images n' m _ hu)[b].get ⟨r, hrc.trans_le hc⟩ = (t.images n m _ ht)[b].get ⟨r, hrc.trans_le hc⟩ := by
    ext j hj
    have he := hrows r hrc j hj
    rw [element?_images t n m _ ht b hb ⟨r, hrc.trans_le hc⟩ ⟨j, hj⟩,
      element?_images u n' m _ hu b hb' ⟨r, hrc.trans_le hc⟩ ⟨j, hj⟩] at he
    exact Option.some.inj he
  simpa [Vector.get_eq_getElem] using congrArg (LabelRow.ofVector (k := k)) hrow

end Tensor

inductive TypedTensor.SameFront {F : Precision → Type} [Arithmetic F] (m w : Nat) :
    TypedTensor F → TypedTensor F → Prop where
  | float {q : Precision} {t u : Tensor (F q)} (h : t.SameFront (eq · zero) m w u) :
    SameFront m w (.float q t) (.float q u)
  | int64 {t u : Tensor Int} (h : t.SameFront (· == 0) m w u) : SameFront m w (.int64 t) (.int64 u)
  | int32 {t u : Tensor Int} (h : t.SameFront (· == 0) m w u) : SameFront m w (.int32 t) (.int32 u)
  | bool {t u : Tensor Bool} (h : t.SameFront (!·) m w u) : SameFront m w (.bool t) (.bool u)

variable {F : Precision → Type} [Arithmetic F]

theorem TypedTensor.SameFront.toFloat [LawfulZero F] {m w : Nat} {labels labels' : TypedTensor F}
    (h : labels.SameFront m w labels') (q : Precision) :
    (labels.toFloat q).SameFront (eq · zero) m w (labels'.toFloat q) := by
  have hint (n : Int) (hn : n == 0) : eq (ofInt n : F q) zero := by
    obtain rfl := eq_of_beq hn
    exact LawfulZero.zero_eq_zero
  have hbool (b : Bool) (hb : !b) : eq (ofInt b.toInt : F q) zero := by
    cases b with
    | false => exact LawfulZero.zero_eq_zero
    | true => cases hb
  cases h with
  | float h => exact h.map fun _ => LawfulZero.convert_eq_zero
  | int64 h => exact h.map hint
  | int32 h => exact h.map hint
  | bool h => exact h.map hbool

namespace Engine

variable {d : Detector (Wide F)}

theorem recordImage_congr {q : Precision} {anchors : Vector (Box (F q)) d.numAnchors}
    {i i' : Image (F q) d.numAnchors d.classes} (hh : i'.heads = i.heads)
    (hr : i'.rows.takeWhile LabelRow.isPresent = i.rows.takeWhile LabelRow.isPresent) :
    recordImage d anchors i' = recordImage d anchors i := by
  rw [recordImage, recordImage, hh, Truth.ofRows, Truth.ofRows, hr]

/-- What is recorded of accepted tensors depends only on the rows of the labels that are read. -/
theorem record_sameFront {q : Precision} {t : Tensor (F q)} {labels labels' : TypedTensor F}
    (h : ∃ batch, validate d (.float q t) labels = .ok batch)
    (h' : ∃ batch, validate d (.float q t) labels' = .ok batch)
    (hs : (labels.toFloat q).SameFront (eq · zero) d.maxTruths d.labelWidth (labels'.toFloat q)) :
    record d (.float q t) labels' = record d (.float q t) labels := by
  obtain ⟨batch, h⟩ := h
  obtain ⟨batch', h'⟩ := h'
  obtain ⟨s, hv⟩ | ⟨p, l, f, hp, hl, -⟩ := validate_shape_cases (d := d) q t.shape labels.shape
  · cases h.symm.trans (hv t labels rfl rfl)
  obtain ⟨s, hv⟩ | ⟨p', l', f', hp', hl', -⟩ := validate_shape_cases (d := d) q t.shape labels'.shape
  · cases h'.symm.trans (hv t labels' rfl rfl)
  obtain rfl : p = p' := congrArg Subtype.val (Except.ok.inj
    ((batchShape_of_toList .prediction hp).symm.trans (batchShape_of_toList .prediction hp')))
  have hlt := hl.trans (labels.shape_toFloat q).symm
  have hlt' := hl'.trans (labels'.shape_toFloat q).symm
  rw [record_of_fit f hp hlt, record_of_fit f' hp' hlt']
  refine passOf_eq p.form fun anchors _ => List.forall₂_iff_get.mpr ⟨?_, fun b hb hb' => ?_⟩
  · rw [length_imagesOf, length_imagesOf]
  · refine recordImage_congr ?_ ?_
    · simp only [List.get_eq_getElem, imagesOf, List.getElem_zipWith, imageOf]
    · simp only [List.get_eq_getElem, imagesOf, List.getElem_zipWith, imageOf]
      exact hs.takeWhile_isPresent _ _ b _ _

end Engine

namespace Exact

variable {K : Type} [Field K] [LinearOrder K] [FloorRing K] {T : Functions K} {p : Precision}

theorem corners_ofCorners (c : Corners (Exact T p)) : (Box.ofCorners c).corners = c := by
  have htwo : (ofInt 2 : Exact T p) = (2 : K) := Int.cast_ofNat 2
  have hlow (a b : Exact T p) : (a + b) / ofInt 2 - half * (b - a) = a := by
    rw [half_eq, htwo]
    change ((a : K) + b) / 2 - 1 / 2 * (b - a) = a
    ring
  have hhigh (a b : Exact T p) : (a + b) / ofInt 2 + half * (b - a) = b := by
    rw [half_eq, htwo]
    change ((a : K) + b) / 2 + 1 / 2 * (b - a) = b
    ring
  simp only [Box.ofCorners, Box.corners, Axes.zipWith, hlow, hhigh]

theorem isPresent_eq {k : Nat} (row : LabelRow (Exact T p) k) :
    row.isPresent = decide ((row.presence : K) ≠ 0) := by
  have hzero : eq row.presence zero = decide ((row.presence : K) = 0) := by
    rw [eq, le_eq, le_eq, zero_eq, ← Bool.decide_and]
    exact decide_eq_decide.mpr le_antisymm_iff.symm
  rw [LabelRow.isPresent, hzero, decide_not]

theorem forall₂_ofRows {k : Nat} (rows : List (LabelRow (Exact T p) k)) :
    List.Forall₂ (fun row truth => truth.box.corners = row.corners ∧ IsFirstMax row.classes.get truth.label)
      (rows.takeWhile fun row => (row.presence : K) ≠ 0) (Truth.ofRows rows) := by
  have hpresent : (fun row : LabelRow (Exact T p) k => decide ((row.presence : K) ≠ 0)) = LabelRow.isPresent :=
    funext fun row => (isPresent_eq row).symm
  rw [hpresent, Truth.ofRows, List.forall₂_map_right_iff, List.forall₂_same]
  intro row _
  refine ⟨corners_ofCorners row.corners, ?_⟩
  exact (isArgmax_iff_isFirstMax fun _ => by simp).mp (isArgmax_iff_leads.mpr (leads_argmax row.classes))

end Exact

namespace Engine

open Tensor

/-- Labels are read up to the first row whose flag is zero.

From a matrix of numbers of any type come the boxes of these rows, in their order, each with half the sum of its
corners for its centre and their difference for its size, and with the number of the first greatest class column.
A floating-point flag is zero only if it is one of the two zeros; all others, those that are not numbers among them,
say that there is a box. The corners of the boxes that come out are taken box by box, and the loss reads the rows of
its images alike; in exact arithmetic these corners are those of the row.

Two labels that are accepted with the same predictions, and that hold the same in every image up to a row whose flag
is zero in both, give the same loss and the same machine after it, with all that it has saved for backward
passes. -/
theorem front_packed :
    (∀ (N : Numbers) {m k : Nat} (rows : Vector (Vector N.Entry (5 + (k + 1))) m),
      groundTruth (N.typed (ofRows rows)) = .ok (.ofTruths ((N.front (N.labelRows rows)).map N.truth)) ∧
        ∀ row ∈ N.front (N.labelRows rows), IsFirstGreatest N.le row.classes.get (N.truth row).label) ∧
    (∀ {p : Precision} (x : Binary p), (Numbers.float p).isZero x ↔ Binary.IsZero x) ∧
    (∀ {p : Precision} {n : Nat} (boxes : Vector (Box (Binary p)) n),
      centerToCorners (.float p (centersOf boxes)) (.float p (sizesOf boxes)) =
        .ok (⟨p, lowsOf boxes⟩, ⟨p, highsOf boxes⟩)) ∧
    (∀ {p : Precision} {k : Nat} (rows : List (LabelRow (Binary p) k)),
      ((Numbers.float p).front rows).map (Numbers.float p).truth = Truth.ofRows rows) ∧
    (∀ {K : Type} [Field K] [LinearOrder K] [FloorRing K] {T : Functions K} {p : Precision} {k : Nat}
      (rows : List (LabelRow (Exact T p) k)),
      List.Forall₂ (fun row truth => truth.box.corners = row.corners ∧ IsFirstMax row.classes.get truth.label)
        (rows.takeWhile fun row => (row.presence : K) ≠ 0) (Truth.ofRows rows)) ∧
    ∀ {F : Precision → Type} [Arithmetic F] [LawfulZero F] {d : Detector (Wide F)} {q : Precision}
      {predictions : Tensor (F q)} {labels labels' : TypedTensor F},
      (∃ batch, validate d (.float q predictions) labels = .ok batch) →
      (∃ batch, validate d (.float q predictions) labels' = .ok batch) →
      (labels.SameFront d.maxTruths d.labelWidth labels' ∨
        (labels.toFloat q).SameFront (eq · zero) d.maxTruths d.labelWidth (labels'.toFloat q)) →
      ∀ e : Engine F d, e.forward (.float q predictions) labels' = e.forward (.float q predictions) labels := by
  refine ⟨fun N _ _ rows => ⟨groundTruth_rows N rows, fun row _ => ?_⟩, fun x => Binary.eq_zero_iff,
    centerToCorners_boxes, fun _ => rfl, Exact.forall₂_ofRows, fun {F} _ _ d q _ _ _ h h' hs e => ?_⟩
  · exact N.isFirstGreatest_greatest row.classes
  · rw [forward_eq_finish, forward_eq_finish, record_sameFront h h' (hs.elim (·.toFloat q) id)]

section Tiny

open Tiny

def oddRows : Vector (Vector (Binary .single) 7) 4 :=
  #v[#v[-1 / 2, 0, 0, 8, 8, 0, 1], #v[0 / 0, -4, 2, 12, 6, 1, 1], #v[0, 9, 9, 9, 9, 9, 9], #v[1, 0, 0, 4, 4, 1, 0]]

def wholeRows : Vector (Vector Int 7) 3 :=
  #v[#v[-3, 0, 0, 8, 8, 5, 5], #v[0, 0, 0, 8, 8, 0, 1], #v[1, 0, 0, 8, 8, 0, 1]]

def triple : Detector (Wide Binary) := { detector with maxTruths := 3 }

def oneThenOther : TypedTensor Binary :=
  .float .single ⟨[1, 3, 7], #[1, 0, 0, 8, 8, 0, 1, 0, 0, 0, 0, 0, 0, 0, 1, -4, 2, 12, 6, 0, 1], rfl⟩

def oneThenNothing : TypedTensor Binary :=
  .float .single ⟨[1, 1, 3, 7],
    #[1, 0, 0, 8, 8, 0, 1, 0, 0 / 0, 0 / 0, 0, 0, 0, 0, 0 / 0, 0, 0, 0, 0, 0, 0 / 0], rfl⟩

theorem sameFront_triple : oneThenOther.SameFront triple.maxTruths triple.labelWidth oneThenNothing := by
  refine .float fun b => ?_
  by_cases hb : b = 0
  · subst hb
    exact ⟨1, by decide, by decide +kernel, fun _ => by decide +kernel⟩
  · refine ⟨3, le_rfl, fun r hr j hj => ?_, fun h => absurd h (lt_irrefl 3)⟩
    have hi : 21 ≤ (b * 3 + r) * 7 + j := by omega
    unfold Tensor.element?
    rw [Array.getElem?_eq_none hi, Array.getElem?_eq_none hi]

theorem front_packed_triple :
    (∃ truths : List (Truth (Binary .single) 1), truths.length = 2 ∧
      groundTruth (.float .single (ofRows oddRows)) = .ok (.ofTruths truths)) ∧
    (∃ truths : List (Truth (Binary .single) 1), truths.length = 1 ∧
      groundTruth (.int64 (ofRows wholeRows)) = .ok (.ofTruths truths)) ∧
    (∃ truths : List (Truth (Binary .single) 1), truths.length = 1 ∧
      groundTruth (.int32 (ofRows wholeRows)) = .ok (.ofTruths truths)) ∧
    (∃ batch, validate triple (.float .single (predictions zeros zeros)) oneThenOther = .ok batch) ∧
    (initial triple).forward (.float .single (predictions zeros zeros)) oneThenNothing =
      (initial triple).forward (.float .single (predictions zeros zeros)) oneThenOther := by
  obtain ⟨hparse, -, -, -, -, hforward⟩ := front_packed
  have hread (N : Numbers) {m count : Nat} (rows : Vector (Vector N.Entry 7) m)
      (h : (N.front (N.labelRows (k := 1) rows)).length = count) :
      ∃ truths : List (Truth (Binary N.precision) 1), truths.length = count ∧
        groundTruth (N.typed (ofRows rows)) = .ok (.ofTruths truths) :=
    ⟨_, (List.length_map _).trans h, (hparse (k := 1) N rows).1⟩
  have haccepted : ∃ batch, validate triple (.float .single (predictions zeros zeros)) oneThenOther = .ok batch :=
    validate_isOk_iff.mpr ⟨.single, 1, .plain, .plain, rfl, by decide, rfl, rfl⟩
  have haccepted' : ∃ batch, validate triple (.float .single (predictions zeros zeros)) oneThenNothing = .ok batch :=
    validate_isOk_iff.mpr ⟨.single, 1, .plain, .channel, rfl, by decide, rfl, rfl⟩
  refine ⟨hread (.float .single) oddRows (by decide +kernel), hread (.int .int64) wholeRows (by decide +kernel),
    hread (.int .int32) wholeRows (by decide +kernel), haccepted, ?_⟩
  exact hforward haccepted haccepted' (.inl sameFront_triple) (initial triple)

end Tiny

end Engine

end AnchorLoss
