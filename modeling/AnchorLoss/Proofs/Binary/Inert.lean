import Mathlib
import AnchorLoss.Proofs.Binary.Count
import AnchorLoss.Proofs.Binary.Masking
import AnchorLoss.Proofs.Engine.Concat
import AnchorLoss.Proofs.Engine.Positive
import AnchorLoss.Proofs.Item.Consistent

namespace AnchorLoss

open Binary

section Truths

variable {α : Type} [Scalar α] {k : Nat}

theorem Match.positives_assign_zero {n : Nat} (threshold : α) (overlap : Fin n → Fin 0 → α) (a : Fin n) :
    (positives (assign threshold overlap)).get a = false := by
  have hassign : assign threshold overlap = Vector.replicate n unmatched := rfl
  rw [hassign, positives, Vector.get_map, Vector.get_replicate, unmatched]

end Truths

namespace Item

variable {F : Precision → Type} [Arithmetic F] {p : Precision} {n k : Nat} {d : Detector (Wide F)}

/-- No anchor of the image takes part in any term, and all terms are zero. -/
structure Inert (item : Item F p n k) : Prop where
  numPositives : item.numPositives = 0
  positive : ∀ a, item.positive.get a = false
  used : ∀ a, item.used.get a = false
  terms : item.terms = .empty

theorem inert_of_forward {anchors : Vector (Box (F p)) n} {heads : Vector (Heads (F p) k) n}
    {item : Item F p n k} (hl : ∀ limit, Mining.limit F d.negativeRatio 0 = .ok limit → limit = 0)
    (h : forward d anchors heads [] = .ok item) : item.Inert := by
  have hpos : ∀ a, (Match.positives (assign (k := k) d anchors [])).get a = false := fun a =>
    Match.positives_assign_zero (convert d.iouThreshold)
      (fun a b => (anchors.get a).overlap ((boxesOf (k := k) []).get b)) a
  have hcount := countTrue_eq_zero.mpr hpos
  obtain ⟨mining, hm, rfl⟩ := exists_of_map_eq_ok h
  obtain ⟨-, hkept, limit, hlimit, hle⟩ := mine_eq_ok hm
  rw [hcount] at hlimit
  obtain rfl := hl limit hlimit
  have hnone : countTrue mining.negative = 0 := by
    have := hle le_rfl
    omega
  refine ⟨hcount, hpos, fun a => ?_, ?_⟩
  · have hneg := countTrue_eq_zero.mp hnone a
    have hposa := hpos a
    simp only [Vector.get_eq_getElem] at hneg hposa ⊢
    simp [hneg, hposa]
  · exact if_pos hcount

end Item

namespace Binary

open Float.Model (UnpackedFloat)
open Float.Model.UnpackedFloat

theorem limit_zero {ratio : Wide Binary} {limit : Int} (h : Mining.limit Binary ratio 0 = .ok limit) :
    limit = 0 := by
  have hvalue : value (p := .double) (ratio * (Scalar.ofNat 0 : Binary .double)) =
      unpack (format .double) (pack (format .double)
        (mul (format .double) (value (p := .double) ratio) (.zero .positive))) := by
    rw [value_mul]
    rfl
  have hfloor : floor (value (p := .double) (ratio * (Scalar.ofNat 0 : Binary .double))) = .ok limit := h
  rw [hvalue] at hfloor
  -- a number times zero is zero, and everything else is no number, which has no floor
  generalize value (p := .double) ratio = u at hfloor
  cases u with
  | notANumber | infinity s =>
    rw [mul, value_pack_notANumber] at hfloor
    cases hfloor
  | zero s | finite s m e hm =>
    rw [mul, value_pack_zero] at hfloor
    cases hfloor
    rfl

@[simp] theorem convert_zero (p q : Precision) :
    (convert (Scalar.zero : Binary p) : Binary q) = Scalar.zero := by
  cases p <;> cases q <;> rfl

theorem total_empty (p : Precision) : (Breakdown.empty : Breakdown (Binary p)).total = Scalar.zero := by
  cases p <;> rfl

end Binary

namespace Engine

variable {d : Detector (Wide Binary)}

theorem eq_zero_of_no_positives {e : Engine Binary d} {which : Option Nat} {factor : Factor Binary}
    {g : FloatTensor Binary} {id : Nat} {s : SavedPass Binary d.numAnchors d.classes}
    (ht : e.target which = some id) (hs : e.saved[id]? = some s)
    (hf : factor.Finite (s.pass.gradient d)) (h : (e.backward which factor).1 = .ok g) {b : Nat}
    (hb : b < s.pass.images.length) (h0 : s.pass.images[b].item.numPositives = 0) (a : Fin d.numAnchors)
    (c : Fin d.predictionWidth) :
    ∃ y, g.tensor.element? d.numAnchors d.predictionWidth b a c = some y ∧
      Scalar.eq y Scalar.zero = true := by
  refine eq_zero_of_slope ht hs hf h (s.pass.element?_slopes d b hb a c) ?_
  rw [Item.gradient_of_no_positives d _ h0]
  exact isZero_div_ofNat (isZero_zero _) (Nat.zero_lt_of_lt hb)

/-- An image of a pass adds nothing: it is inert, so are its reported terms and what it adds to the loss,
and every later gradient is zero at its predictions, as long as the factor is finite where it is
multiplied. -/
structure AddsNothing (d : Detector (Wide Binary)) (pass : Pass Binary d.numAnchors d.classes) (b : Nat)
    (item : Item Binary pass.precision d.numAnchors d.classes) : Prop where
  inert : item.Inert
  breakdown : item.breakdown = .empty
  total : item.terms.total = Scalar.zero
  gradient : ∀ (e : Engine Binary d) (which : Option Nat) (id : Nat) (consumed : Bool),
    e.target which = some id → e.saved[id]? = some ⟨pass, consumed⟩ →
    ∀ (factor : Factor Binary) (g : FloatTensor Binary), factor.Finite (pass.gradient d) →
      (e.backward which factor).1 = .ok g → ∀ (a : Fin d.numAnchors) (c : Fin d.predictionWidth),
        ∃ y, g.tensor.element? d.numAnchors d.predictionWidth b a c = some y ∧
          Scalar.eq y Scalar.zero = true

theorem addsNothing_of_inert {pass : Pass Binary d.numAnchors d.classes} {b : Nat}
    (hb : b < pass.images.length) (h : pass.images[b].item.Inert) :
    AddsNothing d pass b pass.images[b].item where
  inert := h
  breakdown := by simp [Item.breakdown, h.terms, Breakdown.map, Breakdown.empty]
  total := by rw [h.terms, total_empty]
  gradient _ _ _ _ ht hs _ _ hf hg a c := eq_zero_of_no_positives ht hs hf hg hb h.numPositives a c

/-- In every pass that is recorded, exactly the images whose first label row is absent are without
positives, and they add nothing. -/
theorem forward_inert {c : LossConfig Int Float} (hc : c.check = .ok ())
    (hd : Detector.ofConfig c = .ok d) (e : Engine Binary d) {predictions labels : TypedTensor Binary}
    {loss : FloatScalar Binary} (h : (e.forward predictions labels).1 = .ok loss) :
    ∃ pass, (e.forward predictions labels).2.state = some ⟨pass, false⟩ ∧ loss = pass.loss ∧
      predictions.shape = pass.shape ∧
      (∀ x, ∃ g, ((e.forward predictions labels).2.backward none (.number x)).1 = .ok g) ∧
      ∀ b (hb : b < pass.images.length), ∃ flag,
        (labels.toFloat pass.precision).element? d.maxTruths d.labelWidth b 0 0 = some flag ∧
        (pass.images[b].item.numPositives = 0 ↔ Scalar.eq flag Scalar.zero = true) ∧
        (Scalar.eq flag Scalar.zero = false → ∃ a, pass.images[b].item.positive.get a = true) ∧
        (Scalar.eq flag Scalar.zero = true → AddsNothing d pass b pass.images[b].item) := by
  have hadm := LossConfig.admissible_of_check hc
  obtain rfl := Except.ok.inj (hd.symm.trans hadm.ofConfig)
  have htruths : 0 < c.detector.maxTruths := by
    have hpos := (LossConfig.counts_of_check hc).2
    simp only [LossConfig.detector]
    omega
  obtain ⟨pass, hr, rfl⟩ := record_of_forward h
  have hshape := shape_of_record hr
  obtain ⟨t, rfl, hrec⟩ := record_eq_ok hr
  rw [forward_of_record hr]
  refine ⟨pass, state_save e pass, rfl, hshape,
    fun x => ⟨_, congrArg Prod.fst (e.backward_save pass x)⟩, fun b hb => ?_⟩
  obtain ⟨flag, anchors, rows, hflag, hrow, hf⟩ := forward_of_record_images hr htruths hb
  refine ⟨flag, hflag, ?_⟩
  have hcount := hrec.numPositives _ (List.getElem_mem hb)
  cases h0 : Scalar.eq flag Scalar.zero with
  | false =>
    have hne := numPositives_ne_zero hr hadm.numAnchors_pos htruths hb hflag h0
    refine ⟨by simpa using hne, fun _ => ?_, by simp⟩
    rw [hcount, Ne, countTrue_eq_zero] at hne
    simpa using hne
  | true =>
    rw [(Truth.ofRows_eq_nil_iff hrow).mpr h0] at hf
    have hinert := Item.inert_of_forward (fun _ => limit_zero) hf
    exact ⟨iff_of_true hinert.numPositives rfl, by simp, fun _ => addsNothing_of_inert hb hinert⟩

section Tiny

open Tiny

theorem numPositives_noLabels :
    (record detector (.float .single (predictions zeros noOffsets)) noLabels).toOption.map
      (fun pass => pass.images.map fun i => i.item.numPositives) = some [0] := by
  decide +kernel

theorem forward_inert_tiny : config.check = .ok () ∧ Detector.ofConfig config = .ok detector ∧
    ∃ loss pass, ((Engine.initial detector).forward (.float .single (predictions zeros noOffsets))
        noLabels).1 = .ok loss ∧
      ((Engine.initial detector).forward (.float .single (predictions zeros noOffsets)) noLabels).2.state =
        some ⟨pass, false⟩ ∧
      ∃ i, pass.images = [i] ∧ AddsNothing detector pass 0 i.item := by
  refine ⟨check_config, ofConfig_config, ?_⟩
  obtain ⟨pass, hp, hcount⟩ := Option.map_eq_some_iff.mp numPositives_noLabels
  have hf := forward_of_record (eq_ok_of_toOption hp) (Engine.initial detector)
  obtain ⟨pass', hs, -, -, -, hi⟩ :=
    forward_inert check_config ofConfig_config (Engine.initial detector) (congrArg Prod.fst hf)
  have hpass : some ⟨pass, false⟩ = some (SavedPass.mk pass' false) := by
    rw [← hs, hf]
    rfl
  cases hpass
  obtain ⟨i, his, h0⟩ := List.map_eq_singleton_iff.mp hcount
  have hb : 0 < pass.images.length := by simp [his]
  have hitem : pass.images[0] = i := by simp [his]
  obtain ⟨flag, -, hiff, -, hadds⟩ := hi 0 hb
  rw [hitem] at hiff hadds
  exact ⟨_, pass, congrArg Prod.fst hf, hs, i, his, hadds (hiff.mp h0)⟩

/-- A factor that is finite as a double but not as a single leaves no number in the block of an image
without positives. -/
theorem overflow_inert : IsFinite (p := .double) 1e39 ∧
    ∃ pass, record detector (.float .single (predictions zeros zeros)) noLabels = .ok pass ∧
      (pass.images.map fun i => i.item.numPositives) = [0] ∧
      ∃ g y, (((Engine.initial detector).forward (.float .single (predictions zeros zeros))
          noLabels).2.backward none (.number 1e39)).1 = .ok g ∧
        g.tensor.element? 2 12 0 tall 6 = some y ∧ Scalar.isNaN y = true := by
  refine ⟨by unfold IsFinite; decide +kernel, ?_⟩
  have hr : (record detector (.float .single (predictions zeros zeros)) noLabels).toOption.map
      (fun pass => pass.images.map fun i => i.item.numPositives) = some [0] := by
    decide +kernel
  have hg : (((Engine.initial detector).forward (.float .single (predictions zeros zeros))
      noLabels).2.backward none (.number 1e39)).1.toOption.map
      (fun g => (g.tensor.element? 2 12 0 tall 6).map Scalar.isNaN) = some (some true) := by
    decide +kernel
  obtain ⟨pass, hp, hcount⟩ := Option.map_eq_some_iff.mp hr
  obtain ⟨g, hb, hy⟩ := Option.map_eq_some_iff.mp hg
  obtain ⟨y, hy, hn⟩ := Option.map_eq_some_iff.mp hy
  exact ⟨pass, eq_ok_of_toOption hp, hcount, g, y, eq_ok_of_toOption hb, hy, hn⟩

end Tiny

end Engine

end AnchorLoss
