import Mathlib
import AnchorLoss.Engine
import AnchorLoss.Proofs.Tensor.Broadcast
import AnchorLoss.Proofs.Tensor.Element

namespace AnchorLoss

variable {F : Precision → Type} [Arithmetic F]

/-- Converting a number to the precision it has already leaves it alone. -/
class LawfulConvert (F : Precision → Type) [Arithmetic F] : Prop where
  convert_self {p : Precision} (x : F p) : (convert x : F p) = x

namespace Pass

variable {n k : Nat}

omit [Arithmetic F] in
theorem volume_shape (pass : Pass F n k) :
    volume pass.shape = pass.images.length * n * (10 + (k + 1)) :=
  BatchShape.volume_toList ⟨pass.form, pass.images.length, n, 10 + (k + 1)⟩

def slopes (d : Detector (Wide F)) (pass : Pass F n k) : Tensor (F pass.precision) :=
  (Tensor.ofImages (pass.images.map fun i => i.item.gradient d i.heads)).map
    (· / Scalar.ofNat pass.images.length)

theorem gradient_eq (d : Detector (Wide F)) (pass : Pass F n k) :
    pass.gradient d = ⟨pass.precision, pass.slopes d⟩ := rfl

theorem shape_slopes (d : Detector (Wide F)) (pass : Pass F n k) :
    (pass.slopes d).shape = [pass.images.length, n, 10 + (k + 1)] := by
  simp [slopes, Tensor.map, Tensor.ofImages]

theorem volume_slopes (d : Detector (Wide F)) (pass : Pass F n k) :
    volume (pass.slopes d).shape = volume pass.shape := by
  rw [shape_slopes, volume_shape]
  simp [Nat.mul_assoc]

def scaled (d : Detector (Wide F)) (pass : Pass F n k) (x : F pass.precision) :
    Tensor (F pass.precision) where
  shape := pass.shape
  data := ((pass.slopes d).map (· * x)).data
  size_data := ((pass.slopes d).map (· * x)).size_data.trans (pass.volume_slopes d)

def answer (d : Detector (Wide F)) (pass : Pass F n k) (x : F pass.precision) : FloatTensor F :=
  ⟨pass.precision, pass.scaled d x⟩

theorem element?_slopes (d : Detector (Wide F)) (pass : Pass F n k) (b : Nat)
    (hb : b < pass.images.length) (a : Fin n) (c : Fin (10 + (k + 1))) :
    (pass.slopes d).element? n (10 + (k + 1)) b a c =
      some (((pass.images[b].item.gradient d pass.images[b].heads).get a).get c /
        Scalar.ofNat pass.images.length) := by
  have hb' : b < (pass.images.map fun i => i.item.gradient d i.heads).length := by simpa using hb
  rw [slopes, Tensor.element?_map, Tensor.element?_ofImages _ b hb' a c]
  simp

theorem element?_scaled (d : Detector (Wide F)) (pass : Pass F n k) (x : F pass.precision) (b : Nat)
    (hb : b < pass.images.length) (a : Fin n) (c : Fin (10 + (k + 1))) :
    (pass.scaled d x).element? n (10 + (k + 1)) b a c =
      some (((pass.images[b].item.gradient d pass.images[b].heads).get a).get c /
        Scalar.ofNat pass.images.length * x) := by
  have hd : (pass.scaled d x).data = ((pass.slopes d).map (· * x)).data := rfl
  rw [Tensor.element?_of_data hd, Tensor.element?_map, element?_slopes d pass b hb a c, Option.map_some]

end Pass

namespace Factor

theorem scale?_number (x : Wide F) (g : FloatTensor F) :
    (Factor.number x).scale? g = some ⟨g.precision, g.tensor.map (· * convert x)⟩ := rfl

theorem toFloat_ofScalar {q : Precision} (x : F q) (p : Precision) :
    TypedTensor.toFloat p (.float q (.ofScalar x)) = .ofScalar (convert x) := by
  simp [TypedTensor.toFloat, Tensor.map, Tensor.ofScalar]

theorem scale?_scalar [LawfulConvert F] {q : Precision} (x : F q) (g : FloatTensor F)
    (hg : g.tensor.shape ≠ []) :
    (Factor.tensor (.float q (.ofScalar x))).scale? g =
      some ⟨g.precision, g.tensor.map (· * convert x)⟩ := by
  have hl : g.tensor.shape.length ≠ 0 := by simpa using hg
  have hp : Precision.common g.precision g.tensor.shape.length q 0 = g.precision := by
    simp [Precision.common, hl]
  -- the precision occurs in the types of the operands, so it is replaced in all of them at once
  have hz : ∀ p, p = g.precision →
      (Tensor.zipWith? (· * ·) (g.tensor.map convert)
        (TypedTensor.toFloat p (.float q (.ofScalar x)))).map (FloatTensor.mk p) =
        some ⟨g.precision, g.tensor.map (· * convert x)⟩ := by
    rintro _ rfl
    rw [toFloat_ofScalar, Tensor.zipWith?_ofScalar, Tensor.map_eq_self LawfulConvert.convert_self]
    rfl
  exact hz _ hp

end Factor

namespace Engine

variable {d : Detector (Wide F)}

/-- The pass of tensors that are handed to a machine; it does not depend on the machine's state. -/
def record (d : Detector (Wide F)) (predictions labels : TypedTensor F) :
    Except ForwardError (Pass F d.numAnchors d.classes) :=
  match validate d predictions labels with
  | .error s => .error (.shape s)
  | .ok batch => passOf batch

theorem forward_cases (e : Engine F d) (predictions labels : TypedTensor F) :
    (∃ pass, record d predictions labels = .ok pass ∧
      e.forward predictions labels = (.ok pass.loss, e.save pass)) ∨
    (∃ x e', record d predictions labels = .error x ∧
      e.forward predictions labels = (.error x, e') ∧ e'.saved = e.saved ∧
      e'.lastBreakdown = e.lastBreakdown ∧ (e'.current = e.current ∨ e'.current = none)) := by
  unfold forward record
  cases validate d predictions labels with
  | error s => exact .inr ⟨_, e, rfl, rfl, rfl, rfl, .inl rfl⟩
  | ok batch =>
    dsimp only
    cases passOf batch with
    | error x => exact .inr ⟨x, { e with current := none }, rfl, rfl, rfl, rfl, .inr rfl⟩
    | ok pass => exact .inl ⟨pass, rfl, rfl⟩

theorem forward_of_record {predictions labels : TypedTensor F}
    {pass : Pass F d.numAnchors d.classes} (h : record d predictions labels = .ok pass)
    (e : Engine F d) : e.forward predictions labels = (.ok pass.loss, e.save pass) := by
  obtain ⟨pass', h', hf⟩ | ⟨x, e', h', -⟩ := e.forward_cases predictions labels
  · obtain rfl := Except.ok.inj (h.symm.trans h')
    exact hf
  · cases h.symm.trans h'

theorem record_of_forward {e : Engine F d} {predictions labels : TypedTensor F}
    {loss : FloatScalar F} (h : (e.forward predictions labels).1 = .ok loss) :
    ∃ pass, record d predictions labels = .ok pass ∧ loss = pass.loss := by
  obtain ⟨pass, h', hf⟩ | ⟨x, e', -, hf, -⟩ := e.forward_cases predictions labels
  · rw [hf] at h
    exact ⟨pass, h', (Except.ok.inj h).symm⟩
  · rw [hf] at h
    cases h

def target (e : Engine F d) (which : Option Nat) : Option Nat := which.orElse fun _ => e.current

theorem backward_of_target_none {e : Engine F d} {which : Option Nat} (factor : Factor F)
    (h : e.target which = none) : e.backward which factor = (.error .noForward, e) := by
  unfold target at h
  simp only [backward, h]

theorem backward_of_consumed {e : Engine F d} {which : Option Nat} {id : Nat}
    {s : SavedPass F d.numAnchors d.classes} (factor : Factor F) (h : e.target which = some id)
    (hs : e.saved[id]? = some s) (hc : s.consumed = true) :
    e.backward which factor = (.error .consumed, e) := by
  unfold target at h
  simp only [backward, h, hs, hc, if_true]

theorem backward_of_scale {e : Engine F d} {which : Option Nat} {id : Nat}
    {s : SavedPass F d.numAnchors d.classes} {factor : Factor F} {x : F s.pass.precision}
    (h : e.target which = some id) (hs : e.saved[id]? = some s) (hc : s.consumed = false)
    (hx : factor.scale? (s.pass.gradient d) =
      some ⟨s.pass.precision, (s.pass.slopes d).map (· * x)⟩) :
    e.backward which factor = (.ok (s.pass.answer d x), e.consume id) := by
  have hv : volume ((s.pass.slopes d).map (· * x)).shape = volume s.pass.shape :=
    s.pass.volume_slopes d
  unfold target at h
  simp only [backward, h, hs, hc, hx, Bool.false_eq_true, if_false]
  rw [Tensor.reshape?_of_volume _ _ hv]
  rfl

/-- A backward pass with a number as its factor succeeds on every saved pass that is not used up. -/
theorem backward_number {e : Engine F d} {which : Option Nat} {id : Nat}
    {s : SavedPass F d.numAnchors d.classes} (h : e.target which = some id)
    (hs : e.saved[id]? = some s) (hc : s.consumed = false) (x : Wide F) :
    e.backward which (.number x) = (.ok (s.pass.answer d (convert x)), e.consume id) :=
  backward_of_scale h hs hc (Factor.scale?_number x _)

theorem backward_scalar [LawfulConvert F] {e : Engine F d} {which : Option Nat} {id : Nat}
    {s : SavedPass F d.numAnchors d.classes} (h : e.target which = some id)
    (hs : e.saved[id]? = some s) (hc : s.consumed = false) {q : Precision} (x : F q) :
    e.backward which (.tensor (.float q (.ofScalar x))) =
      (.ok (s.pass.answer d (convert x)), e.consume id) :=
  backward_of_scale h hs hc (Factor.scale?_scalar x _ (by simp [Pass.gradient_eq, Pass.shape_slopes]))

omit [Arithmetic F] in
theorem getElem?_saved_consume (e : Engine F d) (k j : Nat) : (e.consume k).saved[j]? =
    e.saved[j]?.map fun s => if k = j then { s with consumed := true } else s := by
  rw [consume, List.getElem?_modify]
  rfl

theorem saved_save (e : Engine F d) (pass : Pass F d.numAnchors d.classes) :
    (e.save pass).saved[e.saved.length]? = some ⟨pass, false⟩ := by
  simp [save]

theorem backward_save (e : Engine F d) (pass : Pass F d.numAnchors d.classes) (x : Wide F) :
    (e.save pass).backward none (.number x) =
      (.ok (pass.answer d (convert x)), (e.save pass).consume e.saved.length) :=
  backward_number rfl (e.saved_save pass) rfl x

end Engine

end AnchorLoss
