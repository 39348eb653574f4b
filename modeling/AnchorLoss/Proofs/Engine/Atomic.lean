import Mathlib
import AnchorLoss.Proofs.Binary.Tiny
import AnchorLoss.Proofs.Engine.Step
import AnchorLoss.Proofs.Tensor.Align

namespace AnchorLoss

open Tensor (broadcastShape)

variable {F : Precision → Type} [Arithmetic F]

namespace Factor

omit [Arithmetic F] in
def shape : Factor F → List Nat
  | number _ => []
  | tensor t => t.shape

omit [Arithmetic F] in
theorem broadcastShape_nil (ns : List Nat) : broadcastShape ns [] = some ns := by
  rw [broadcastShape, List.reverse_nil]
  cases h : ns.reverse with
  | nil => rw [List.reverse_eq_nil_iff.mp h]; rfl
  | cons m ms =>
    have hns : (m :: ms).reverse = ns := by rw [← h, List.reverse_reverse]
    have hrev : Tensor.broadcastReversed (m :: ms) [] = some (m :: ms) := rfl
    rw [hrev, Option.map_some, hns]

theorem scale?_cases (u : Factor F) (g : FloatTensor F) :
    (broadcastShape g.tensor.shape u.shape = none ∧ u.scale? g = none) ∨
    ∃ r, broadcastShape g.tensor.shape u.shape = some r.tensor.shape ∧ u.scale? g = some r := by
  cases u with
  | number x =>
    exact .inr ⟨⟨g.precision, g.tensor.map (· * convert x)⟩, broadcastShape_nil _, rfl⟩
  | tensor t =>
    -- the precision of the product does not matter for its shape
    have hproduct (p : Precision) :
        (broadcastShape g.tensor.shape t.shape = none ∧
          (Tensor.zipWith? (· * ·) (g.tensor.map convert) (t.toFloat p)).map (FloatTensor.mk p) = none) ∨
        ∃ r : FloatTensor F, broadcastShape g.tensor.shape t.shape = some r.tensor.shape ∧
          (Tensor.zipWith? (· * ·) (g.tensor.map convert) (t.toFloat p)).map (FloatTensor.mk p) =
            some r := by
      have hshapes : broadcastShape (g.tensor.map (convert (q := p))).shape (t.toFloat p).shape =
          broadcastShape g.tensor.shape t.shape := by
        rw [t.shape_toFloat]
        rfl
      cases hb : broadcastShape g.tensor.shape t.shape with
      | none => exact .inl ⟨rfl, by rw [Tensor.zipWith?_eq_none (hshapes.trans hb), Option.map_none]⟩
      | some out =>
        obtain ⟨r, hr, rfl⟩ := Tensor.zipWith?_of_broadcastShape (· * ·) (hshapes.trans hb)
        exact .inr ⟨⟨p, r⟩, rfl, by rw [hr, Option.map_some]⟩
    exact hproduct _

end Factor

/-- The product of the gradient of a pass with a factor has more, or fewer, entries than the gradient. -/
def Pass.Overruns {n k : Nat} (pass : Pass F n k) (factor : Factor F) : Prop :=
  ∃ out, broadcastShape [pass.images.length, n, 10 + (k + 1)] factor.shape = some out ∧
    volume out ≠ volume pass.shape

namespace Engine

variable {d : Detector (Wide F)}

/-- The pass with this number is used up and is not the current one any more, and all else is the same. -/
structure UsesUp (e : Engine F d) (id : Nat) (e' : Engine F d) : Prop where
  used : e'.saved[id]? = e.saved[id]?.map fun s => { s with consumed := true }
  others : ∀ j, j ≠ id → e'.saved[j]? = e.saved[j]?
  current : e'.current = if e.current = some id then none else e.current
  lastBreakdown : e'.lastBreakdown = e.lastBreakdown

omit [Arithmetic F] in
theorem usesUp_consume (e : Engine F d) (id : Nat) : e.UsesUp id (e.consume id) where
  used := by simp [getElem?_saved_consume]
  others j hj := by simp [getElem?_saved_consume, hj.symm]
  current := rfl
  lastBreakdown := rfl

/-- A backward pass answers in the shape of the predictions of an unused pass and uses it up, or fails and
leaves the machine as it was. -/
inductive Atomic (e : Engine F d) (which : Option Nat) :
    Except BackwardError (FloatTensor F) × Engine F d → Prop where
  | answered {id : Nat} {s : SavedPass F d.numAnchors d.classes} {g : FloatTensor F} {e' : Engine F d}
    (target : e.target which = some id) (saved : e.saved[id]? = some s) (unused : s.consumed = false)
    (shape : g.tensor.shape = s.pass.shape) (usesUp : e.UsesUp id e') : Atomic e which (.ok g, e')
  | failed (err : BackwardError) : Atomic e which (.error err, e)

section Unused

variable {e : Engine F d} {which : Option Nat} {id : Nat} {s : SavedPass F d.numAnchors d.classes}
  (ht : e.target which = some id) (hs : e.saved[id]? = some s) (hc : s.consumed = false)
  {factor : Factor F}

include ht hs hc

theorem backward_of_overruns (h : s.pass.Overruns factor) :
    e.backward which factor = (.error .gradientShape, e.consume id) := by
  obtain ⟨out, hout, hv⟩ := h
  obtain ⟨hnone, -⟩ | ⟨r, hr, hscale⟩ := factor.scale?_cases (s.pass.gradient d)
  · rw [Pass.gradient_eq, Pass.shape_slopes, hout] at hnone
    cases hnone
  · rw [Pass.gradient_eq, Pass.shape_slopes, hout, Option.some.injEq] at hr
    have hshape : r.tensor.reshape? s.pass.shape = none := by
      rw [Tensor.reshape?, Tensor.ofArray?, dif_neg]
      rw [r.tensor.size_data, ← hr]
      exact hv
    unfold target at ht
    simp only [backward, ht, hs, hc, hscale, hshape, Bool.false_eq_true, if_false]

theorem atomic_of_not_overruns (h : ¬ s.pass.Overruns factor) :
    Atomic e which (e.backward which factor) := by
  have hsaved := ht
  unfold target at hsaved
  obtain ⟨-, hnone⟩ | ⟨r, hr, hscale⟩ := factor.scale?_cases (s.pass.gradient d)
  · have hb : e.backward which factor = (.error .factorShape, e) := by
      simp only [backward, hsaved, hs, hc, hnone, Bool.false_eq_true, if_false]
    rw [hb]
    exact .failed _
  · rw [Pass.gradient_eq, Pass.shape_slopes] at hr
    have hv : volume r.tensor.shape = volume s.pass.shape := by
      by_contra hv
      exact h ⟨_, hr, hv⟩
    have hb : e.backward which factor = (.ok ⟨r.precision, s.pass.shape, r.tensor.data,
        r.tensor.size_data.trans hv⟩, e.consume id) := by
      simp only [backward, hsaved, hs, hc, hscale, Tensor.reshape?_of_volume _ _ hv, Bool.false_eq_true,
        if_false]
    rw [hb]
    exact .answered ht hs hc rfl (e.usesUp_consume id)

end Unused

theorem atomic_of_no_pass {e : Engine F d} {which : Option Nat} (factor : Factor F)
    (h : ∀ id s, e.target which = some id → e.saved[id]? = some s → s.consumed = true) :
    Atomic e which (e.backward which factor) := by
  cases ht : e.target which with
  | none =>
    rw [backward_of_target_none factor ht]
    exact .failed _
  | some id =>
    cases hs : e.saved[id]? with
    | none =>
      have hb : e.backward which factor = (.error .noForward, e) := by
        unfold target at ht
        simp only [backward, ht, hs]
      rw [hb]
      exact .failed _
    | some s =>
      rw [backward_of_consumed factor ht hs (h id s ht hs)]
      exact .failed _

omit [Arithmetic F] in
theorem consume_ne {e : Engine F d} {id : Nat} {s : SavedPass F d.numAnchors d.classes}
    (hs : e.saved[id]? = some s) (hc : s.consumed = false) : e.consume id ≠ e := by
  intro h
  have hused := (e.usesUp_consume id).used
  rw [h, hs, Option.map_some, Option.some.injEq] at hused
  rw [hused] at hc
  cases hc

theorem not_atomic_of_overruns {e : Engine F d} {which : Option Nat} {id : Nat}
    {s : SavedPass F d.numAnchors d.classes} (ht : e.target which = some id)
    (hs : e.saved[id]? = some s) (hc : s.consumed = false) {factor : Factor F}
    (h : s.pass.Overruns factor) : ¬ Atomic e which (e.backward which factor) := by
  rw [backward_of_overruns ht hs hc h]
  generalize he : e.consume id = e'
  rintro ⟨⟩
  exact consume_ne hs hc he

omit [Arithmetic F] in
theorem not_overruns_number {n k : Nat} (pass : Pass F n k) (x : Wide F) :
    ¬ pass.Overruns (.number x) := by
  rintro ⟨out, hout, hv⟩
  obtain rfl := Option.some.inj ((Factor.broadcastShape_nil _).symm.trans hout)
  rw [Pass.volume_shape] at hv
  simp [Nat.mul_assoc] at hv

/-- A backward pass answers and uses its pass up, or fails and changes nothing, unless the product of the
gradient with the factor has another number of entries than the predictions. Then it fails and uses the pass
up all the same. With a number that does not happen. -/
theorem backward_atomic_iff (e : Engine F d) (which : Option Nat) (factor : Factor F) :
    (Atomic e which (e.backward which factor) ↔ ∀ id s, e.target which = some id →
      e.saved[id]? = some s → s.consumed = false → ¬ s.pass.Overruns factor) ∧
    (∀ id s, e.target which = some id → e.saved[id]? = some s → s.consumed = false →
      s.pass.Overruns factor →
        ∃ e', e.backward which factor = (.error .gradientShape, e') ∧ e.UsesUp id e') ∧
    ∀ x : Wide F, Atomic e which (e.backward which (.number x)) := by
  have hatomic (factor : Factor F) (h : ∀ id s, e.target which = some id → e.saved[id]? = some s →
      s.consumed = false → ¬ s.pass.Overruns factor) : Atomic e which (e.backward which factor) := by
    by_cases hused : ∀ id s, e.target which = some id → e.saved[id]? = some s → s.consumed = true
    · exact atomic_of_no_pass factor hused
    · simp only [not_forall, Bool.not_eq_true] at hused
      obtain ⟨id, s, ht, hs, hc⟩ := hused
      exact atomic_of_not_overruns ht hs hc (h id s ht hs hc)
  refine ⟨⟨fun ha id s ht hs hc ho => not_atomic_of_overruns ht hs hc ho ha, hatomic factor⟩,
    fun id s ht hs hc ho => ⟨_, backward_of_overruns ht hs hc ho, e.usesUp_consume id⟩,
    fun x => hatomic _ fun _ s _ _ _ => not_overruns_number s.pass x⟩

section Tiny

open Tiny

def pending : Engine Binary detector :=
  ((initial detector).forward (.float .single (predictions zeros zeros)) labels).2

def twice : Factor Binary := .tensor (.float .single ⟨[2, 1, 1, 1], #[1, 1], rfl⟩)

theorem saved_pending : ∃ s, pending.saved[0]? = some s ∧ s.consumed = false ∧
    s.pass.images.length = 1 := by
  have h : (pending.saved[0]?.map fun s => (s.consumed, s.pass.images.length)) = some (false, 1) := by
    decide +kernel
  obtain ⟨s, hs, heq⟩ := Option.map_eq_some_iff.mp h
  exact ⟨s, hs, (Prod.mk.inj heq).1, (Prod.mk.inj heq).2⟩

theorem current_pending : pending.current = some 0 := by
  decide +kernel

theorem overruns_twice {pass : Pass Binary detector.numAnchors detector.classes}
    (h : pass.images.length = 1) : pass.Overruns twice := by
  refine ⟨[2, 1, 2, 12], by rw [h]; decide, ?_⟩
  rw [Pass.volume_shape, h]
  decide

theorem not_atomic_twice : ¬ Atomic pending none (pending.backward none twice) := by
  obtain ⟨s, hs, hc, hlen⟩ := saved_pending
  have ht : pending.target none = some 0 := current_pending
  exact not_atomic_of_overruns ht hs hc (overruns_twice hlen)

end Tiny

end Engine

end AnchorLoss
