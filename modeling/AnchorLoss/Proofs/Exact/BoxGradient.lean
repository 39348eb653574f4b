import Mathlib
import AnchorLoss.Proofs.Engine.Record
import AnchorLoss.Proofs.Exact.Loss
import AnchorLoss.Proofs.Exact.OneAnchor

namespace AnchorLoss

namespace Exact

variable {K : Type} [Field K] [LinearOrder K] [FloorRing K] {T : Functions K} {p : Precision}
  {n k : Nat}

def isOffset (c : Nat) : Bool := c < 4 || (6 ≤ c && c < 10)

theorem isOffset_armOffset (j : Fin 4) :
    isOffset (Channel.armOffset j : Fin (10 + (k + 1))).val = true := by
  simp [isOffset, Channel.armOffset]

theorem isOffset_armLogit (j : Fin 2) :
    isOffset (Channel.armLogit j : Fin (10 + (k + 1))).val = false := by
  have h₄ : ¬ 4 + j.val < 4 := by omega
  have h₆ : ¬ 6 ≤ 4 + j.val := by omega
  simp [isOffset, Channel.armLogit, h₄, h₆]

theorem isOffset_odmOffset (j : Fin 4) :
    isOffset (Channel.odmOffset j : Fin (10 + (k + 1))).val = true := by
  have h : 6 + j.val < 10 := by omega
  simp [isOffset, Channel.odmOffset, h]

theorem isOffset_odmLogit (j : Fin (k + 1)) : isOffset (Channel.odmLogit j).val = false := by
  have h₄ : ¬ 10 + j.val < 4 := by omega
  have h₁₀ : ¬ 10 + j.val < 10 := by omega
  simp [isOffset, Channel.odmLogit, h₄, h₁₀]

theorem logits_of_channels {α : Type} {h h' : Vector (Heads α k) n}
    (hc : ∀ (a : Fin n) (c : Fin (10 + (k + 1))), isOffset c.val = false →
      (h.get a).channel c = (h'.get a).channel c) :
    h'.map Heads.armLogits = h.map Heads.armLogits ∧
      h'.map Heads.odmLogits = h.map Heads.odmLogits := by
  constructor
  · ext1 a ha
    exact Heads.get_map_block Heads.channel_armLogits fun j =>
      (hc ⟨a, ha⟩ (Channel.armLogit j) (isOffset_armLogit j)).symm
  · ext1 a ha
    exact Heads.get_map_block Heads.channel_odmLogits fun j =>
      (hc ⟨a, ha⟩ (Channel.odmLogit j) (isOffset_odmLogit j)).symm

theorem sum_channels {M : Type} [AddCommMonoid M] (f : Fin (10 + (k + 1)) → M) : ∑ c, f c =
    (∑ j, f (Channel.armOffset j)) + (∑ j, f (Channel.armLogit j)) +
      (∑ j, f (Channel.odmOffset j)) + ∑ j, f (Channel.odmLogit j) := by
  have h₁ := Fin.sum_univ_add (a := 4 + 2 + 4) (b := k + 1) f
  have h₂ := Fin.sum_univ_add (a := 4 + 2) (b := 4) fun i => f (Fin.castAdd (k + 1) i)
  have h₃ := Fin.sum_univ_add (a := 4) (b := 2) fun i => f (Fin.castAdd (k + 1) (Fin.castAdd 4 i))
  rw [h₃] at h₂
  rw [h₂] at h₁
  exact h₁

def gap (h h' : Vector (Heads (Exact T p) k) n) (a : Fin n) (c : Fin (10 + (k + 1))) : K :=
  (h'.get a).channel c - (h.get a).channel c

/-- What bounds the loss of one image above its tangent. -/
def curvature (item : Item (Exact T) p n k) (h h' : Vector (Heads (Exact T p) k) n) : K :=
  if item.numPositives = 0 then 0
  else ∑ a, if item.positive.get a then
    ∑ c : Fin (10 + (k + 1)), if isOffset c.val then gap h h' a c ^ 2 / item.numPositives else 0
  else 0

section Gap

variable {h h' : Vector (Heads (Exact T p) k) n} (a : Fin n) {m : Nat}
  {block : Heads (Exact T p) k → Vector (Exact T p) m} {place : Fin m → Fin (10 + (k + 1))}
  (hblock : ∀ (h : Heads (Exact T p) k) (j : Fin m), h.channel (place j) = (block h).get j)

include hblock

theorem gap_block (j : Fin m) : gap h h' a (place j) =
    (((h'.map block).get a).get j - ((h.map block).get a).get j : K) := by
  rw [gap, hblock, hblock, Vector.get_map, Vector.get_map]

theorem gap_eq_zero (hl : h'.map block = h.map block) (j : Fin m) : gap h h' a (place j) = 0 := by
  rw [gap_block a hblock, hl, sub_self]

end Gap

variable (d : Detector (Wide (Exact T)))

theorem total_of_no_positives (item : Item (Exact T) p n k) (h : Vector (Heads (Exact T p) k) n)
    (h0 : item.numPositives = 0) : (item.withTerms d h).terms.total = (0 : K) := by
  simp [Item.withTerms, Item.termsOf, h0, Breakdown.total, Breakdown.empty]

section Positives

variable (item : Item (Exact T) p n k) (h0 : item.numPositives ≠ 0)
  {h h' : Vector (Heads (Exact T p) k) n}
  (hal : h'.map Heads.armLogits = h.map Heads.armLogits)
  (hol : h'.map Heads.odmLogits = h.map Heads.odmLogits)

include h0 hal hol

theorem total_sub_total :
    ((item.withTerms d h').terms.total - (item.withTerms d h).terms.total : K) =
      (smoothError (h'.map Heads.armOffsets) item.targets item.positive /
          (Scalar.ofNat item.numPositives : Exact T p) -
        smoothError (h.map Heads.armOffsets) item.targets item.positive /
          (Scalar.ofNat item.numPositives : Exact T p)) +
      (smoothError (h'.map Heads.odmOffsets) item.targets item.positive /
          (Scalar.ofNat item.numPositives : Exact T p) -
        smoothError (h.map Heads.odmOffsets) item.targets item.positive /
          (Scalar.ofNat item.numPositives : Exact T p)) := by
  simp only [Item.withTerms, Item.termsOf, h0, if_false, Breakdown.total, hal, hol]
  ring

theorem sum_gradient_gap :
    (∑ a, ∑ c, ((item.gradient d h).get a).get c * gap h h' a c : K) =
      (∑ a, ∑ j, ((smoothErrorGradient (Scalar.ofNat item.numPositives) (h.map Heads.armOffsets)
        item.targets item.positive).get a).get j *
          (((h'.map Heads.armOffsets).get a).get j - ((h.map Heads.armOffsets).get a).get j)) +
      ∑ a, ∑ j, ((smoothErrorGradient (Scalar.ofNat item.numPositives) (h.map Heads.odmOffsets)
        item.targets item.positive).get a).get j *
          (((h'.map Heads.odmOffsets).get a).get j - ((h.map Heads.odmOffsets).get a).get j) := by
  rw [← Finset.sum_add_distrib]
  refine Finset.sum_congr rfl fun a _ => ?_
  rw [sum_channels]
  simp only [gap_block a Heads.channel_armOffsets, gap_block a Heads.channel_odmOffsets,
    gap_eq_zero a Heads.channel_armLogits hal, gap_eq_zero a Heads.channel_odmLogits hol, mul_zero,
    Finset.sum_const_zero, add_zero, Item.gradient_armOffsets d h h0,
    Item.gradient_odmOffsets d h h0]

omit hal hol in
theorem curvature_of_positives : curvature item h h' =
    (∑ a, if item.positive.get a then ∑ j, (((h'.map Heads.armOffsets).get a).get j -
        ((h.map Heads.armOffsets).get a).get j : K) ^ 2 /
          (Scalar.ofNat item.numPositives : Exact T p) else 0) +
    ∑ a, if item.positive.get a then ∑ j, (((h'.map Heads.odmOffsets).get a).get j -
        ((h.map Heads.odmOffsets).get a).get j : K) ^ 2 /
          (Scalar.ofNat item.numPositives : Exact T p) else 0 := by
  rw [curvature, if_neg h0, ← Finset.sum_add_distrib]
  refine Finset.sum_congr rfl fun a _ => ?_
  by_cases hp : item.positive.get a = true
  · rw [if_pos hp, if_pos hp, if_pos hp, sum_channels]
    simp only [isOffset_armOffset, isOffset_armLogit, isOffset_odmOffset, isOffset_odmLogit,
      gap_block a Heads.channel_armOffsets, gap_block a Heads.channel_odmOffsets, if_true,
      Bool.false_eq_true, if_false, Finset.sum_const_zero, add_zero, ofNat_eq]
  · rw [if_neg hp, if_neg hp, if_neg hp, add_zero]

end Positives

variable [IsStrictOrderedRing K]

theorem item_tangent (item : Item (Exact T) p n k) {h h' : Vector (Heads (Exact T p) k) n}
    (hal : h'.map Heads.armLogits = h.map Heads.armLogits)
    (hol : h'.map Heads.odmLogits = h.map Heads.odmLogits) :
    (0 : K) ≤ (item.withTerms d h').terms.total - (item.withTerms d h).terms.total -
        ∑ a, ∑ c, ((item.gradient d h).get a).get c * gap h h' a c ∧
      ((item.withTerms d h').terms.total - (item.withTerms d h).terms.total -
        ∑ a, ∑ c, ((item.gradient d h).get a).get c * gap h h' a c : K) ≤
        1 / 2 * curvature item h h' := by
  by_cases h0 : item.numPositives = 0
  · have hg : ∀ a c, ((item.gradient d h).get a).get c = (0 : K) := fun a c => by
      rw [Item.gradient_of_no_positives d h h0, zero_eq]
    simp [total_of_no_positives d item _ h0, hg, curvature, h0]
  · have hP : (0 : K) < item.numPositives := by
      exact_mod_cast Nat.pos_of_ne_zero h0
    have hc : (0 : K) < (Scalar.ofNat item.numPositives : Exact T p) := by
      rw [ofNat_eq]
      exact hP
    have harm := smoothError_tangent hc (h.map Heads.armOffsets) (h'.map Heads.armOffsets)
      item.targets item.positive
    have hodm := smoothError_tangent hc (h.map Heads.odmOffsets) (h'.map Heads.odmOffsets)
      item.targets item.positive
    rw [sum_gradient_gap d item h0 hal hol, total_sub_total d item h0 hal hol,
      curvature_of_positives item h0]
    constructor
    · linarith only [harm.1, hodm.1]
    · linarith only [harm.2, hodm.2]

omit [IsStrictOrderedRing K] in
theorem value_loss (form : Form) (is : List (PassImage (Exact T) p n k)) :
    (Pass.loss ⟨p, form, is⟩).value =
      ((∑ b : Fin is.length, (is[b.val].item.terms.total : Exact T p)) / (is.length : K) : K) := by
  have hs := Fin.sum_univ_fun_getElem is fun i => (i.item.terms.total : Exact T p)
  rw [hs, Pass.loss, sum_eq, ofNat_eq]

def entry {q : Precision} (d : Detector (Wide (Exact T))) (t : Tensor (Exact T q)) (b a c : Nat) : K :=
  (t.element? d.numAnchors d.predictionWidth b a c).getD 0

variable {d} {t u : Tensor (Exact T p)} {form : Form}
  {is js : List (PassImage (Exact T) p d.numAnchors d.classes)}

omit [IsStrictOrderedRing K] in
theorem entry_recorded (ht : Engine.Recorded d t form is) (b : Nat) (hb : b < is.length)
    (a : Fin d.numAnchors) (c : Fin d.predictionWidth) :
    entry d t b a c = (is[b].heads.get a).channel c := by
  rw [entry, ht.element? b hb a c, Option.getD_some]

omit [IsStrictOrderedRing K] in
theorem entry_answer (x : K) (b : Nat) (hb : b < is.length) (a : Fin d.numAnchors)
    (c : Fin d.predictionWidth) : entry d (Pass.answer d ⟨p, form, is⟩ x).tensor b a c =
      (((is[b].item.gradient d is[b].heads).get a).get c / (is.length : K) * x : K) := by
  rw [entry, Pass.answer, Pass.element?_scaled d ⟨p, form, is⟩ _ b hb a c, Option.getD_some, ofNat_eq]

omit [IsStrictOrderedRing K] in
theorem value_sub_value (ht : Engine.Recorded d t form is) (hu : Engine.Recorded d u form js)
    (hij : List.Forall₂ (fun i j => j = i.withHeads d j.heads) is js) :
    ∃ heads : Fin is.length → Vector (Heads (Exact T p) d.classes) d.numAnchors,
      (∀ b (a : Fin d.numAnchors) (c : Fin d.predictionWidth),
        entry d u b.val a c = ((heads b).get a).channel c) ∧
      ((Pass.loss ⟨p, form, js⟩).value - (Pass.loss ⟨p, form, is⟩).value : K) =
        (∑ b : Fin is.length, ((is[b.val].item.withTerms d (heads b)).terms.total -
          (is[b.val].item.withTerms d is[b.val].heads).terms.total : K)) / (is.length : K) := by
  obtain ⟨hlen, hget⟩ := List.forall₂_iff_get.mp hij
  have hlt : ∀ b : Fin is.length, b.val < js.length := fun b => (b.cast hlen).isLt
  refine ⟨fun b => (js.get (b.cast hlen)).heads, fun b a c => entry_recorded hu b (hlt b) a c, ?_⟩
  have hj : ∀ b : Fin is.length, (js.get (b.cast hlen)).item.terms.total =
      (is[b.val].item.withTerms d (js.get (b.cast hlen)).heads).terms.total := fun b =>
    congrArg (fun i => i.item.terms.total) (hget b b.isLt (hlt b))
  have hi : ∀ b : Fin is.length, is[b.val].item.terms.total =
      (is[b.val].item.withTerms d is[b.val].heads).terms.total := fun b =>
    congrArg (fun i => i.item.terms.total) (ht.terms is[b.val] (List.getElem_mem b.isLt)).symm
  have hsum := Fin.sum_congr' (fun b : Fin js.length => (js[b.val].item.terms.total : Exact T p)) hlen
  have hk : (js.length : K) = is.length := by rw [hlen]
  rw [value_loss, value_loss, hk, ← hsum, ← sub_div, ← Finset.sum_sub_distrib]
  refine congrArg (· / (is.length : K)) (Finset.sum_congr rfl fun b _ => ?_)
  rw [hi b]
  exact congrArg (· - _) (hj b)

omit [IsStrictOrderedRing K] in
theorem value_sub_tangent (ht : Engine.Recorded d t form is) (hu : Engine.Recorded d u form js)
    (hij : List.Forall₂ (fun i j => j = i.withHeads d j.heads) is js) :
    ∃ heads : Fin is.length → Vector (Heads (Exact T p) d.classes) d.numAnchors,
      (∀ b (a : Fin d.numAnchors) (c : Fin d.predictionWidth),
        gap is[b.val].heads (heads b) a c = entry d u b a c - entry d t b a c) ∧
      ((Pass.loss ⟨p, form, js⟩).value - (Pass.loss ⟨p, form, is⟩).value -
        ∑ b : Fin is.length, ∑ a : Fin d.numAnchors, ∑ c : Fin d.predictionWidth,
          entry d (Pass.answer d ⟨p, form, is⟩ (1 : K)).tensor b a c *
            (entry d u b a c - entry d t b a c) : K) =
        (∑ b : Fin is.length, ((is[b.val].item.withTerms d (heads b)).terms.total -
          (is[b.val].item.withTerms d is[b.val].heads).terms.total -
          ∑ a, ∑ c, ((is[b.val].item.gradient d is[b.val].heads).get a).get c *
            gap is[b.val].heads (heads b) a c : K)) / (is.length : K) := by
  obtain ⟨heads, hheads, hvalue⟩ := value_sub_value ht hu hij
  have hgap : ∀ (b : Fin is.length) (a : Fin d.numAnchors) (c : Fin d.predictionWidth),
      gap is[b.val].heads (heads b) a c = entry d u b a c - entry d t b a c := fun b a c => by
    rw [gap, hheads, entry_recorded ht b b.isLt]
  have hslope : (∑ b : Fin is.length, ∑ a : Fin d.numAnchors, ∑ c : Fin d.predictionWidth,
      entry d (Pass.answer d ⟨p, form, is⟩ (1 : K)).tensor b a c *
        (entry d u b a c - entry d t b a c) : K) =
      (∑ b : Fin is.length, ∑ a, ∑ c, ((is[b.val].item.gradient d is[b.val].heads).get a).get c *
        gap is[b.val].heads (heads b) a c) / (is.length : K) := by
    simp only [Finset.sum_div]
    refine Finset.sum_congr rfl fun b _ => Finset.sum_congr rfl fun a _ =>
      Finset.sum_congr rfl fun c _ => ?_
    rw [entry_answer 1 b.val b.isLt a c, mul_one, hgap, div_mul_eq_mul_div]
  refine ⟨heads, hgap, ?_⟩
  rw [hslope, hvalue, ← sub_div, ← Finset.sum_sub_distrib]

omit [IsStrictOrderedRing K] in
theorem curvature_div (item : Item (Exact T) p n k) (h h' : Vector (Heads (Exact T p) k) n) (b : K) :
    curvature item h h' / b = if item.numPositives = 0 then 0
      else ∑ a, if item.positive.get a then
        ∑ c : Fin (10 + (k + 1)), if isOffset c.val then
          gap h h' a c ^ 2 / (b * item.numPositives) else 0
      else 0 := by
  unfold curvature
  by_cases h0 : item.numPositives = 0
  · rw [if_pos h0, if_pos h0, zero_div]
  · rw [if_neg h0, if_neg h0, Finset.sum_div]
    refine Finset.sum_congr rfl fun a _ => ?_
    by_cases hp : item.positive.get a = true
    · rw [if_pos hp, if_pos hp, Finset.sum_div]
      refine Finset.sum_congr rfl fun c _ => ?_
      by_cases hc : isOffset c.val = true
      · rw [if_pos hc, if_pos hc, div_div, mul_comm b]
      · rw [if_neg hc, if_neg hc, zero_div]
    · rw [if_neg hp, if_neg hp, zero_div]

/-- The offsets of the gradient are the derivative of the loss: predictions that differ from the first
in offsets only have a loss above the tangent, and at most half the weighted square of the distance
above. -/
theorem forward_tangent {labels : TypedTensor (Exact T)} {loss : FloatScalar (Exact T)}
    (hs : u.shape = t.shape) (hc : ∀ b (a : Fin d.numAnchors) (c : Fin d.predictionWidth),
      isOffset c.val = false → t.element? d.numAnchors d.predictionWidth b a c =
        u.element? d.numAnchors d.predictionWidth b a c) (e : Engine (Exact T) d)
    (hf : (e.forward (.float p t) labels).1 = .ok loss) :
    ∃ (loss' : FloatScalar (Exact T)) (g : FloatTensor (Exact T)) (form : Form)
      (is : List (PassImage (Exact T) p d.numAnchors d.classes)),
      (e.forward (.float p u) labels).1 = .ok loss' ∧
      ((e.forward (.float p t) labels).2.backward none (.number (1 : K))).1 = .ok g ∧
      (e.forward (.float p t) labels).2.state = some ⟨⟨p, form, is⟩, false⟩ ∧
      (0 : K) ≤ loss'.value - loss.value -
        ∑ b : Fin is.length, ∑ a : Fin d.numAnchors, ∑ c : Fin d.predictionWidth,
          entry d g.tensor b a c * (entry d u b a c - entry d t b a c) ∧
      (loss'.value - loss.value -
        ∑ b : Fin is.length, ∑ a : Fin d.numAnchors, ∑ c : Fin d.predictionWidth,
          entry d g.tensor b a c * (entry d u b a c - entry d t b a c) : K) ≤
        1 / 2 * ∑ b : Fin is.length, if is[b.val].item.numPositives = 0 then 0
          else ∑ a, if is[b.val].item.positive.get a then
            ∑ c : Fin d.predictionWidth, if isOffset c.val then
              (entry d u b a c - entry d t b a c) ^ 2 / (is.length * is[b.val].item.numPositives)
            else 0
          else 0 := by
  have hlogits : ∀ b (a : Fin d.numAnchors) c, 4 ≤ c → c < 6 →
      t.element? d.numAnchors d.predictionWidth b a c =
        u.element? d.numAnchors d.predictionWidth b a c := fun b a c h₄ h₆ =>
    hc b a ⟨c, by unfold Detector.predictionWidth; omega⟩ (by simp [isOffset]; omega)
  obtain ⟨x, hx, -⟩ | ⟨form, is, js, hrt, hru, ht, hu, hij⟩ :=
    Engine.forward_withHeads hs hlogits labels
  · obtain ⟨pass, hp, -⟩ := Engine.record_of_forward hf
    cases hx.symm.trans hp
  · rw [Engine.forward_of_record hrt] at hf ⊢
    rw [Engine.forward_of_record hru]
    obtain rfl := Except.ok.inj hf
    obtain ⟨heads, hgap, hdiff⟩ := value_sub_tangent ht hu hij
    have hchannel : ∀ (b : Fin is.length) (a : Fin d.numAnchors) (c : Fin d.predictionWidth),
        isOffset c.val = false → (is[b.val].heads.get a).channel c = ((heads b).get a).channel c := by
      intro b a c hoff
      have hzero : gap is[b.val].heads (heads b) a c = 0 := by
        rw [hgap, entry, entry, hc b a c hoff, sub_self]
      exact (sub_eq_zero.mp hzero).symm
    have hitem := fun b : Fin is.length =>
      item_tangent d is[b.val].item (logits_of_channels (hchannel b)).1
        (logits_of_channels (hchannel b)).2
    have hB : (0 : K) ≤ is.length := Nat.cast_nonneg _
    have hcurve := fun b : Fin is.length =>
      curvature_div is[b.val].item is[b.val].heads (heads b) (is.length : K)
    simp only [hgap] at hcurve
    refine ⟨_, Pass.answer d ⟨p, form, is⟩ (1 : K), form, is, rfl, ?_,
      e.saved_save ⟨p, form, is⟩, ?_, ?_⟩
    · rw [Engine.backward_save]
      rfl
    · rw [hdiff]
      exact div_nonneg (Finset.sum_nonneg fun b _ => (hitem b).1) hB
    · rw [hdiff]
      refine le_trans (div_le_div_of_nonneg_right
        (Finset.sum_le_sum fun b (_ : b ∈ Finset.univ) => (hitem b).2) hB) (le_of_eq ?_)
      rw [← Finset.mul_sum, mul_div_assoc, Finset.sum_div]
      exact congrArg (1 / 2 * ·) (Finset.sum_congr rfl fun b _ => hcurve b)

section OneAnchor

open OneAnchor

theorem element?_row (x y : ℝ) {b a c : Nat} (ha : a < 1) (hc : c ≠ 0) :
    (predictions (row x)).element? 1 12 b a c = (predictions (row y)).element? 1 12 b a c := by
  have hi : 1 ≤ (b * 1 + a) * 12 + c := by omega
  simp only [Tensor.element?, predictions, row, Vector.toArray_append]
  rw [Array.getElem?_append_right hi, Array.getElem?_append_right hi]
  rfl

theorem entry_row_sub (x y : ℝ) (c : Fin 12) :
    entry (detector 1) (predictions (row y)) 0 0 c - entry (detector 1) (predictions (row x)) 0 0 c =
      if c = 0 then y - x else 0 := by
  by_cases hc : c = 0
  · subst hc
    rfl
  · rw [if_neg hc, sub_eq_zero]
    exact congrArg (Option.getD · 0)
      (element?_row y x Nat.one_pos fun h => hc (Fin.ext h))

theorem sum_offsets_row (x y z : ℝ) :
    (∑ c : Fin 12, if isOffset c.val then (entry (detector 1) (predictions (row y)) 0 0 c -
      entry (detector 1) (predictions (row x)) 0 0 c) ^ 2 / z else 0) = (y - x) ^ 2 / z := by
  simp only [entry_row_sub]
  rw [Finset.sum_eq_single 0]
  · simp [isOffset]
  · intro c _ hc
    simp [hc]
  · simp

theorem forward_tangent_row :
    ∃ (loss loss' : FloatScalar (Exact real)) (g : FloatTensor (Exact real)),
      ((Engine.initial (detector 1)).forward (.float .single (predictions (row 0))) labels).1 =
        .ok loss ∧
      ((Engine.initial (detector 1)).forward (.float .single (predictions (row 3))) labels).1 =
        .ok loss' ∧
      (((Engine.initial (detector 1)).forward (.float .single (predictions (row 0)))
        labels).2.backward none (.number (1 : ℝ))).1 = .ok g ∧
      (0 : ℝ) ≤ loss'.value - loss.value - entry (detector 1) g.tensor 0 0 0 * 3 ∧
      (loss'.value - loss.value - entry (detector 1) g.tensor 0 0 0 * 3 : ℝ) ≤ 9 / 2 := by
  obtain ⟨i, hr, h1⟩ := record_predictions 1 (row 0)
  have hf := Engine.forward_of_record hr (Engine.initial (detector 1))
  have hc : ∀ b (a : Fin (detector 1).numAnchors) (c : Fin (detector 1).predictionWidth),
      isOffset c.val = false →
      (predictions (row 0)).element? (detector 1).numAnchors (detector 1).predictionWidth b a c =
        (predictions (row 3)).element? (detector 1).numAnchors (detector 1).predictionWidth b a c := by
    intro b a c hoff
    refine element?_row 0 3 a.isLt fun h0 => ?_
    rw [h0] at hoff
    cases hoff
  obtain ⟨loss', g, form, is, hl, hg, hs, hlow, hhigh⟩ :=
    forward_tangent ((shape_predictions (row 3)).trans (shape_predictions (row 0)).symm) hc
      (Engine.initial (detector 1)) (congrArg Prod.fst hf)
  have his : is = [i] := by
    rw [hf] at hs
    cases hs
    rfl
  subst his
  have hslope : (∑ b : Fin 1, ∑ a : Fin 1, ∑ c : Fin 12, entry (detector 1) g.tensor b a c *
      (entry (detector 1) (predictions (row 3)) b a c -
        entry (detector 1) (predictions (row 0)) b a c) : ℝ) = entry (detector 1) g.tensor 0 0 0 * 3 := by
    simp [entry_row_sub]
  refine ⟨_, loss', g, congrArg Prod.fst hf, hl, hg, ?_, ?_⟩
  · rw [← hslope]
    exact hlow
  · rw [← hslope]
    have hbound : (∑ b : Fin 1, if [i][b.val].item.numPositives = 0 then 0
        else ∑ a : Fin 1, if [i][b.val].item.positive.get a then
          ∑ c : Fin 12, if isOffset c.val then
            (entry (detector 1) (predictions (row 3)) b a c -
              entry (detector 1) (predictions (row 0)) b a c) ^ 2 /
              (([i].length : ℝ) * [i][b.val].item.numPositives)
          else 0
        else 0 : ℝ) ≤ 9 := by
      simp only [Finset.univ_unique, Finset.sum_singleton, Fin.default_eq_zero, Fin.val_zero,
        List.getElem_cons_zero, h1, one_ne_zero, if_false, sum_offsets_row]
      split
      · norm_num
      · norm_num
    refine le_trans hhigh ?_
    rw [show (9 / 2 : ℝ) = 1 / 2 * 9 by norm_num]
    exact mul_le_mul_of_nonneg_left hbound (by norm_num)

end OneAnchor

end Exact

end AnchorLoss
