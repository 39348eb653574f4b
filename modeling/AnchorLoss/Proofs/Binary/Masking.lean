import Mathlib
import AnchorLoss.Proofs.Binary.Tiny
import AnchorLoss.Proofs.Binary.Zero
import AnchorLoss.Proofs.Config.Admissible
import AnchorLoss.Proofs.Engine.Masking

namespace AnchorLoss

open Binary

namespace Factor

def meeting (g : FloatTensor Binary) : TypedTensor Binary → Precision
  | .float q s => Precision.common g.precision g.tensor.shape.length q s.shape.length
  | _ => g.precision

theorem scale?_tensor (t : TypedTensor Binary) (g : FloatTensor Binary) :
    (Factor.tensor t).scale? g =
      (Tensor.zipWith? (· * ·) (g.tensor.map convert) (t.toFloat (meeting g t))).map
        (FloatTensor.mk (meeting g t)) := by
  cases t <;> rfl

/-- All entries of the factor are finite in the precision in which they meet a gradient. -/
def Finite (g : FloatTensor Binary) : Factor Binary → Prop
  | .number x => IsFinite (convert x : Binary g.precision)
  | .tensor t => ∀ y ∈ (t.toFloat (meeting g t)).data, IsFinite y

theorem isZero_scale? {u : Factor Binary} {g r : FloatTensor Binary} (hu : u.Finite g)
    (h : u.scale? g = some r) (hv : volume r.tensor.shape = volume g.tensor.shape) {i : Nat}
    {x : Binary g.precision} (hx : g.tensor.data[i]? = some x) (hz : IsZero x) :
    ∃ y, r.tensor.data[i]? = some y ∧ IsZero y := by
  cases u with
  | number y =>
    rw [scale?_number] at h
    obtain rfl := Option.some.inj h
    exact ⟨x * convert y, by simp [Tensor.map, hx], isZero_mul hz hu⟩
  | tensor t =>
    rw [scale?_tensor] at h
    obtain ⟨s, hs, rfl⟩ := Option.map_eq_some_iff.mp h
    have hc : (g.tensor.map (convert (F := Binary) (q := meeting g t))).data[i]? =
        some (convert x) := by
      simp [Tensor.map, hx]
    obtain ⟨y, hy, hr⟩ := Tensor.getElem?_zipWith? hs hv i _ hc
    exact ⟨_, hr, isZero_mul (isZero_convert hz) (hu y hy)⟩

end Factor

namespace Engine

variable {d : Detector (Wide Binary)}

theorem backward_eq_ok {e : Engine Binary d} {which : Option Nat} {factor : Factor Binary}
    {g : FloatTensor Binary} {id : Nat} {s : SavedPass Binary d.numAnchors d.classes}
    (ht : e.target which = some id) (hs : e.saved[id]? = some s)
    (h : (e.backward which factor).1 = .ok g) : ∃ r, factor.scale? (s.pass.gradient d) = some r ∧
      g.precision = r.precision ∧ volume r.tensor.shape = volume s.pass.shape ∧
      ∃ t, g = ⟨r.precision, t⟩ ∧ t.data = r.tensor.data := by
  unfold target at ht
  simp only [backward, ht, hs] at h
  by_cases hc : s.consumed = true
  · rw [if_pos hc] at h
    cases h
  · rw [if_neg hc] at h
    cases hr : factor.scale? (s.pass.gradient d) with
    | none => rw [hr] at h; cases h
    | some r =>
      rw [hr] at h
      dsimp only at h
      cases hd : r.tensor.reshape? s.pass.shape with
      | none => rw [hd] at h; cases h
      | some t =>
        rw [hd] at h
        obtain rfl := Except.ok.inj h
        obtain ⟨hshape, hdata⟩ := Tensor.ofArray?_eq_some hd
        refine ⟨r, rfl, rfl, ?_, t, rfl, hdata⟩
        rw [← r.tensor.size_data, ← hdata, t.size_data, hshape]

theorem isZero_slopes {q : Precision} (form : Form)
    {is : List (PassImage Binary q d.numAnchors d.classes)} {b : Nat} (hb : b < is.length)
    {a : Fin d.numAnchors} {c : Fin d.predictionWidth} (hc : is[b].item.reads a c = false) :
    ∃ x, (Pass.slopes d ⟨q, form, is⟩).element? d.numAnchors d.predictionWidth b a c = some x ∧
      IsZero x := by
  refine ⟨_, Pass.element?_slopes d ⟨q, form, is⟩ b hb a c, ?_⟩
  refine isZero_div_ofNat ?_ (Nat.zero_lt_of_lt hb)
  obtain hz | ⟨hn, hz⟩ := is[b].item.gradient_unread d is[b].heads hc
  · rw [hz]
    exact isZero_zero q
  · rw [hz]
    exact isZero_div_ofNat (isZero_zero q) (Nat.pos_of_ne_zero hn)

theorem eq_zero_of_slope {e : Engine Binary d} {which : Option Nat} {factor : Factor Binary}
    {g : FloatTensor Binary} {id : Nat} {s : SavedPass Binary d.numAnchors d.classes}
    (ht : e.target which = some id) (hs : e.saved[id]? = some s)
    (hf : factor.Finite (s.pass.gradient d)) (h : (e.backward which factor).1 = .ok g) {b a c : Nat}
    {x : Binary s.pass.precision}
    (hx : (s.pass.slopes d).element? d.numAnchors d.predictionWidth b a c = some x) (hz : IsZero x) :
    ∃ y, g.tensor.element? d.numAnchors d.predictionWidth b a c = some y ∧
      Scalar.eq y Scalar.zero = true := by
  obtain ⟨r, hr, -, hv, t, rfl, hd⟩ := backward_eq_ok ht hs h
  have hvr : volume r.tensor.shape = volume (s.pass.gradient d).tensor.shape :=
    hv.trans (s.pass.volume_slopes d).symm
  obtain ⟨y, hy, hyz⟩ := Factor.isZero_scale? hf hr hvr hx hz
  exact ⟨y, (Tensor.element?_of_data hd _ _ _ _ _).trans hy, eq_zero_of_isZero hyz⟩

theorem eq_zero_of_unread {e : Engine Binary d} {which : Option Nat} {factor : Factor Binary}
    {g : FloatTensor Binary} {id : Nat} {q : Precision} {form : Form}
    {is : List (PassImage Binary q d.numAnchors d.classes)} {consumed : Bool}
    (ht : e.target which = some id) (hs : e.saved[id]? = some ⟨⟨q, form, is⟩, consumed⟩)
    (hf : factor.Finite (Pass.gradient d ⟨q, form, is⟩)) (h : (e.backward which factor).1 = .ok g)
    {b : Nat} (hb : b < is.length) {a : Fin d.numAnchors} {c : Fin d.predictionWidth}
    (hc : is[b].item.reads a c = false) :
    ∃ y, g.tensor.element? d.numAnchors d.predictionWidth b a c = some y ∧
      Scalar.eq y Scalar.zero = true := by
  obtain ⟨x, hx, hz⟩ := isZero_slopes form hb hc
  exact eq_zero_of_slope ht hs hf h hx hz

/-- Predictions that agree in the channels that are read have the same loss, the same terms, the same
records and the same gradients later on, and the gradient is zero at all other channels as long as the
factor is finite where it is multiplied. -/
theorem forward_unread {labels : TypedTensor Binary} {q : Precision} {t u : Tensor (Binary q)}
    (h : Agree d labels t u) (e : Engine Binary d) :
    (e.forward (.float q t) labels).1 = (e.forward (.float q u) labels).1 ∧
      Alike (e.forward (.float q t) labels).2 (e.forward (.float q u) labels).2 ∧
      (∀ calls, ((e.forward (.float q t) labels).2.backwards calls).1 =
        ((e.forward (.float q u) labels).2.backwards calls).1) ∧
      ∀ form is, record d (.float q t) labels = .ok ⟨q, form, is⟩ → ∀ which,
        (e.forward (.float q t) labels).2.target which = some e.saved.length →
        (∀ x, ∃ g, ((e.forward (.float q t) labels).2.backward which (.number x)).1 = .ok g) ∧
        ∀ factor g, factor.Finite (Pass.gradient d ⟨q, form, is⟩) →
          ((e.forward (.float q t) labels).2.backward which factor).1 = .ok g →
          ∀ b (hb : b < is.length) (a : Fin d.numAnchors) (c : Fin d.predictionWidth),
            is[b].item.reads a c = false →
            ∃ y, g.tensor.element? d.numAnchors d.predictionWidth b a c = some y ∧
              Scalar.eq y Scalar.zero = true := by
  obtain ⟨hl, ha⟩ := forward_alike h e
  refine ⟨hl, ha, fun calls => (ha.backwards calls).1, fun form is hr which ht => ?_⟩
  rw [forward_of_record hr] at ht ⊢
  have hs := e.saved_save ⟨q, form, is⟩
  refine ⟨fun x => ⟨_, by rw [backward_number ht hs rfl x]⟩, fun factor g hf hg b hb a c hc => ?_⟩
  exact eq_zero_of_unread ht hs hf hg hb hc

section Tiny

open Tiny

theorem element?_noOffsets (b a c : Nat) (ha : a < 2) (hc : c < 12)
    (h : a = 0 ∨ (4 ≤ c ∧ c < 6) ∨ 10 ≤ c) :
    (predictions zeros zeros).element? 2 12 b a c =
      (predictions zeros noOffsets).element? 2 12 b a c := by
  have hd : ∀ i : Fin 24, (i.val < 12 ∨ (16 ≤ i.val ∧ i.val < 18) ∨ 22 ≤ i.val) →
      (predictions zeros zeros).data[i.val]? = (predictions zeros noOffsets).data[i.val]? := by
    decide +kernel
  unfold Tensor.element?
  by_cases hb : b = 0
  · subst hb
    exact hd ⟨(0 * 2 + a) * 12 + c, by omega⟩ (by dsimp only; omega)
  · have hi : 24 ≤ (b * 2 + a) * 12 + c := by omega
    rw [Array.getElem?_eq_none (by rw [Tensor.size_data]; exact hi),
      Array.getElem?_eq_none (by rw [Tensor.size_data]; exact hi)]

theorem positives_zeros :
    (record detector (.float .single (predictions zeros zeros)) labels).toOption.map
      (fun pass => pass.images.map fun i => i.item.positive.get tall) = some [false] := by
  decide +kernel

theorem record_zeros : ∃ form is,
    record detector (.float .single (predictions zeros zeros)) labels = .ok ⟨.single, form, is⟩ := by
  obtain ⟨⟨q, form, is⟩, hp, -⟩ := Option.map_eq_some_iff.mp positives_zeros
  have hr := eq_ok_of_toOption hp
  obtain ⟨t, ht, -⟩ := record_eq_ok hr
  cases ht
  exact ⟨form, is, hr⟩

theorem tall_not_positive {form : Form}
    {is : List (PassImage Binary .single detector.numAnchors detector.classes)}
    (hr : record detector (.float .single (predictions zeros zeros)) labels =
      .ok ⟨.single, form, is⟩) :
    is.length = 1 ∧ ∀ b (hb : b < is.length), is[b].item.positive.get tall = false := by
  have hp := positives_zeros
  rw [hr] at hp
  have hp : is.map (fun i => i.item.positive.get tall) = [false] := Option.some.inj hp
  refine ⟨by simpa using congrArg List.length hp, fun b hb => ?_⟩
  have hm := List.mem_map_of_mem (f := fun i : PassImage Binary .single detector.numAnchors
    detector.classes => i.item.positive.get tall) (List.getElem_mem hb)
  rw [hp] at hm
  exact List.mem_singleton.mp hm

theorem agree_noOffsets :
    Agree detector labels (predictions zeros zeros) (predictions zeros noOffsets) := by
  refine ⟨rfl, fun b a c h₄ h₆ => element?_noOffsets b a c a.isLt (by omega) (by omega), ?_⟩
  intro form is hr b hb a c hc
  apply element?_noOffsets b a c a.isLt c.isLt
  have ha2 : a.val < 2 := a.isLt
  obtain ha | ha : a.val = 0 ∨ a.val = 1 := by omega
  · exact .inl ha
  · obtain rfl : a = tall := Fin.ext ha
    unfold Item.reads at hc
    rw [(tall_not_positive hr).2 b hb] at hc
    by_cases h₄ : c.val < 4
    · simp [h₄] at hc
    · by_cases h₆ : c.val < 6
      · omega
      · by_cases h₁₀ : c.val < 10
        · simp [h₄, h₆, h₁₀] at hc
        · omega

theorem forward_unread_noOffsets :
    Agree detector labels (predictions zeros zeros) (predictions zeros noOffsets) ∧
      ((Engine.initial detector).forward (.float .single (predictions zeros zeros)) labels).1 =
        ((Engine.initial detector).forward (.float .single (predictions zeros noOffsets)) labels).1 ∧
      ∃ g y, (((Engine.initial detector).forward (.float .single (predictions zeros zeros))
          labels).2.backward none (.number 1)).1 = .ok g ∧
        g.tensor.element? 2 12 0 tall 0 = some y ∧ Scalar.eq y Scalar.zero = true := by
  refine ⟨agree_noOffsets, ?_⟩
  obtain ⟨hl, -, -, h⟩ := forward_unread agree_noOffsets (Engine.initial detector)
  refine ⟨hl, ?_⟩
  obtain ⟨form, is, hr⟩ := record_zeros
  obtain ⟨hlen, htall⟩ := tall_not_positive hr
  have hb : 0 < is.length := by omega
  obtain ⟨hx, hz⟩ := h form is hr none (by rw [forward_of_record hr]; rfl)
  obtain ⟨g, hg⟩ := hx 1
  have hf : (Factor.number 1).Finite (Pass.gradient detector ⟨.single, form, is⟩) := by
    have hone : (value (convert (F := Binary) (p := .double) (q := .single) 1)).isFinite = true := by
      decide +kernel
    exact hone
  have hread : is[0].item.reads tall (⟨0, by decide⟩ : Fin detector.predictionWidth).val = false :=
    (is[0].item.reads_armOffsets tall 0).trans (htall 0 hb)
  obtain ⟨y, hy, hyz⟩ := hz (.number 1) g hf hg 0 hb tall ⟨0, by decide⟩ hread
  exact ⟨g, y, hg, hy, hyz⟩

/-- A factor that is finite as a double but not as a single makes the product with zero no number. -/
theorem overflow_unread :
    IsFinite (p := .double) 1e300 ∧
      ∃ pass, record detector (.float .single (predictions zeros zeros)) noLabels = .ok pass ∧
        (pass.images.map fun i => i.item.reads tall 0) = [false] ∧
        ∃ g y, (((Engine.initial detector).forward (.float .single (predictions zeros zeros))
            noLabels).2.backward none (.number 1e300)).1 = .ok g ∧
          g.tensor.element? 2 12 0 tall 0 = some y ∧ Scalar.isNaN y = true := by
  refine ⟨by unfold IsFinite; decide +kernel, ?_⟩
  have hr : (record detector (.float .single (predictions zeros zeros)) noLabels).toOption.map
      (fun pass => pass.images.map fun i => i.item.reads tall 0) = some [false] := by
    decide +kernel
  have hg : (((Engine.initial detector).forward (.float .single (predictions zeros zeros))
      noLabels).2.backward none (.number 1e300)).1.toOption.map
      (fun g => (g.tensor.element? 2 12 0 tall 0).map Scalar.isNaN) = some (some true) := by
    decide +kernel
  obtain ⟨pass, hp, hreads⟩ := Option.map_eq_some_iff.mp hr
  obtain ⟨g, hb, hy⟩ := Option.map_eq_some_iff.mp hg
  obtain ⟨y, hy, hn⟩ := Option.map_eq_some_iff.mp hy
  exact ⟨pass, eq_ok_of_toOption hp, hreads, g, y, eq_ok_of_toOption hb, hy, hn⟩

end Tiny

end Engine

end AnchorLoss
