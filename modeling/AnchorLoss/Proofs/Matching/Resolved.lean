import Mathlib
import AnchorLoss.Proofs.Binary.Rank
import AnchorLoss.Proofs.Item.Consistent
import AnchorLoss.Proofs.Matching.Standing

namespace AnchorLoss

namespace Match

open Scalar

section Resolved

variable {F : Precision → Type} [Arithmetic F] {p : Precision} {n k : Nat}

/-- What an anchor is matched to by the boxes of `truths`, which it overlaps as a row of the table says. -/
structure Resolved (truths : List (Truth (F p) k)) (overlap : Fin n → Fin truths.length → F p) (a : Fin n)
    (m : Match (F p) truths.length) : Prop where
  overlap_attained : m.overlap = zero ∨ ∃ b, ¬ isNaN (overlap a b) ∧ m.overlap = overlap a b
  zero_le_overlap : le zero m.overlap
  le_overlap : ∀ b, ¬ isNaN (overlap a b) → le (overlap a b) m.overlap
  truth_of_overlapped : (∃ b, lt zero (overlap a b)) →
    ∃ b, m.truth = some b ∧ IsLeast {c | eq (overlap a c) m.overlap} b
  /-- An anchor that overlaps none has the first box whose column has its maximum there, if there is one. -/
  truth_eq_some : (∀ b, ¬ lt zero (overlap a b)) →
    ∀ b, m.truth = some b ↔ IsLeast {c | IsArgmax (overlap · c) a} b
  truth_eq_none : (∀ b, ¬ lt zero (overlap a b)) →
    (m.truth = none ↔ ∀ b, ¬ IsArgmax (overlap · b) a)
  target_of_some : ∀ b, m.truth = some b → m.target (Item.boxesOf truths) = (truths.get b).box ∧
    Item.classOf truths m = (truths.get b).label
  target_of_none : m.truth = none →
    m.target (Item.boxesOf truths) = ⟨⟨zero, zero⟩, ⟨zero, zero⟩⟩ ∧ (Item.classOf truths m).val = 0
  replaced : ∀ b c, b < c → ¬ lt zero (overlap a b) → lt zero (overlap a c) → m.truth ≠ some b
  /-- Of two boxes that claim the anchor, the later one does not replace the earlier one unless it overlaps
  the anchor. -/
  kept : ∀ b c, b < c → IsArgmax (overlap · b) a → ¬ lt zero (overlap a c) → m.truth ≠ some c

end Resolved

section Standing

variable {α : Type} [Scalar α] [LawfulLe α] {n g : Nat}

namespace Standing

variable {threshold : α} {overlap : Fin n → Fin g → α} {a : Fin n} {m : Match α g}

theorem exists_isLeast (h : Standing threshold overlap a (List.finRange g) m)
    (hpos : ∃ b, lt zero (overlap a b)) :
    ∃ b, m.truth = some b ∧ IsLeast {c | eq (overlap a c) m.overlap} b := by
  obtain ⟨b, hb⟩ := hpos
  have hlt := h.greatest.lt_zero_iff.mpr ⟨b, List.mem_finRange b, hb⟩
  obtain ⟨c, ht, ⟨-, heq⟩, hmin⟩ := h.exists_first hlt
  exact ⟨c, ht, heq, fun d hd => hmin ⟨List.mem_finRange d, hd⟩⟩

theorem isFirst_claimed (h : Standing threshold overlap a (List.finRange g) m)
    (hnone : ∀ b, ¬ lt zero (overlap a b)) :
    IsFirst (fun b => IsArgmax (overlap · b) a) (List.finRange g) m.truth := by
  have hlt : ¬ lt zero m.overlap := fun hlt => by
    obtain ⟨b, -, hb⟩ := h.greatest.lt_zero_iff.mp hlt
    exact hnone b hb
  have hclaims : (fun b => Claims overlap b a) = fun b => IsArgmax (overlap · b) a :=
    funext fun b => propext claims_iff
  rw [← hclaims]
  exact h.claimed hlt

end Standing

theorem not_truth_of_overlapped {threshold : α} {overlap : Fin n → Fin g → α} {a : Fin n} {m : Match α g}
    (h : Standing threshold overlap a (List.finRange g) m) {b c : Fin g} (hc : lt zero (overlap a c))
    (hb : ¬ lt zero (overlap a b)) : m.truth ≠ some b := by
  intro ht
  obtain ⟨d, hd, heq, -⟩ := h.exists_isLeast ⟨c, hc⟩
  rw [ht] at hd
  obtain rfl := Option.some.inj hd
  have hlt := h.greatest.lt_zero_iff.mpr ⟨c, List.mem_finRange c, hc⟩
  exact hb (lt_of_lt_of_le hlt (eq_iff.mp heq).2)

end Standing

/-- The closed form of the matches, for every table of overlaps. -/
theorem assign_resolved {F : Precision → Type} [Arithmetic F] {p : Precision} [LawfulLe (F p)] {n k : Nat}
    (threshold : F p) (truths : List (Truth (F p) k)) (overlap : Fin n → Fin truths.length → F p)
    (a : Fin n) :
    Resolved truths overlap a ((assign threshold overlap).get a) := by
  have h := Standing.assign threshold overlap a
  generalize (assign threshold overlap).get a = m at h ⊢
  refine {
    overlap_attained := ?_
    zero_le_overlap := h.greatest.zero_le
    le_overlap := fun b => h.greatest.le b (List.mem_finRange b)
    truth_of_overlapped := h.exists_isLeast
    truth_eq_some := fun hnone b => ?_
    truth_eq_none := fun hnone => ?_
    target_of_some := fun b hb => ⟨?_, Item.classOf_of_truth hb⟩
    target_of_none := fun hn => ⟨?_, ?_⟩
    replaced := fun b c _ hb hc => not_truth_of_overlapped h hc hb
    kept := fun b c hbc hb hc ht => ?_ }
  · obtain h0 | ⟨b, -, hb⟩ := h.greatest.attained
    · exact .inl h0
    · exact .inr ⟨b, hb ▸ h.greatest.isNumber, hb⟩
  · have hfirst := h.isFirst_claimed hnone
    constructor
    · intro hb
      rw [hb] at hfirst
      exact ⟨hfirst.1.2, fun c hc => hfirst.2 ⟨List.mem_finRange c, hc⟩⟩
    · intro hb
      cases ht : m.truth with
      | none =>
        rw [ht] at hfirst
        exact absurd hb.1 (hfirst b (List.mem_finRange b))
      | some c =>
        rw [ht] at hfirst
        have hc : IsLeast {c | IsArgmax (overlap · c) a} c :=
          ⟨hfirst.1.2, fun d hd => hfirst.2 ⟨List.mem_finRange d, hd⟩⟩
        rw [hc.unique hb]
  · have hfirst := h.isFirst_claimed hnone
    cases ht : m.truth with
    | none =>
      rw [ht] at hfirst
      exact ⟨fun _ b => hfirst b (List.mem_finRange b), fun _ => rfl⟩
    | some c =>
      rw [ht] at hfirst
      exact ⟨fun hs => (Option.some_ne_none c hs).elim, fun hc => absurd hfirst.1.2 (hc c)⟩
  · rw [target, hb]
    exact Item.boxesOf_get truths b
  · rw [target, hn]
  · rw [Item.classOf_of_none hn]
    rfl
  · by_cases hpos : ∃ d, lt zero (overlap a d)
    · obtain ⟨d, hd⟩ := hpos
      exact not_truth_of_overlapped h hd hc ht
    · have hfirst := h.isFirst_claimed fun d hd => hpos ⟨d, hd⟩
      rw [ht] at hfirst
      exact absurd (hfirst.2 ⟨List.mem_finRange b, hb⟩) (not_le_of_gt hbc)

section Table

def threeTruths : List (Truth (Binary .single) 1) :=
  List.replicate 3 ⟨⟨⟨4, 4⟩, ⟨8, 8⟩⟩, ⟨1, by decide⟩⟩

def mixedTable (a : Fin 2) (b : Fin threeTruths.length) : Binary .single :=
  (#v[#v[0, 0 / 0, 0.5], #v[0, 0.25, 0]].get a).get b

/-- All three boxes claim the first anchor, which has the third one in the end. -/
theorem assign_resolved_mixed :
    Resolved (F := Binary) (p := .single) threeTruths mixedTable ⟨0, by decide⟩
      ((assign (0.5 : Float32) mixedTable).get ⟨0, by decide⟩) ∧
    ((assign (0.5 : Float32) mixedTable).toList.map fun m => m.truth.map Fin.val) = [some 2, some 1] := by
  have hle : ∀ p, LawfulLe (Binary p) := inferInstance
  have := hle .single
  exact ⟨assign_resolved (F := Binary) (p := .single) _ _ _ _, by decide +kernel⟩

end Table

end Match

end AnchorLoss
