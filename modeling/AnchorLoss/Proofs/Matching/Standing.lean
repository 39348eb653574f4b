import Mathlib
import AnchorLoss.Proofs.Matching.Best
import AnchorLoss.Proofs.Matching.Matched
import AnchorLoss.Proofs.Scalar.Order

namespace AnchorLoss

namespace Match

open Scalar

variable {α : Type} [Scalar α] {n g : Nat}

def IsFirst (P : Fin g → Prop) (bs : List (Fin g)) : Option (Fin g) → Prop
  | none => ∀ b ∈ bs, ¬ P b
  | some b => IsLeast {c | c ∈ bs ∧ P c} b

section First

variable {P : Fin g → Prop} {bs : List (Fin g)} {b : Fin g} (hb : ∀ c ∈ bs, c < b)

include hb

theorem IsFirst.keep {c : Fin g} (h : IsFirst P bs (some c)) : IsFirst P (bs ++ [b]) (some c) := by
  obtain ⟨⟨hc, hP⟩, hmin⟩ := h
  refine ⟨⟨List.mem_append_left _ hc, hP⟩, fun d hd => ?_⟩
  obtain ⟨hd, hPd⟩ := hd
  obtain hd | hd := List.mem_append.mp hd
  · exact hmin ⟨hd, hPd⟩
  · rw [List.mem_singleton.mp hd]
    exact (hb c hc).le

theorem IsFirst.concat {o : Option (Fin g)} (h : IsFirst P bs o) {holds : Bool}
    (hh : holds = true ↔ P b) : IsFirst P (bs ++ [b]) (if holds then o.or (some b) else o) := by
  cases o with
  | some c =>
    have ho : (if holds then (some c).or (some b) else some c) = some c := ite_self _
    rw [ho]
    exact h.keep hb
  | none =>
    cases holds with
    | true =>
      refine ⟨⟨List.mem_concat_self, hh.mp rfl⟩, fun d hd => ?_⟩
      obtain ⟨hd, hPd⟩ := hd
      obtain hd | hd := List.mem_append.mp hd
      · exact absurd hPd (h d hd)
      · exact (List.mem_singleton.mp hd).ge
    | false =>
      intro d hd
      obtain hd | hd := List.mem_append.mp hd
      · exact h d hd
      · rw [List.mem_singleton.mp hd]
        exact fun hP => Bool.false_ne_true (hh.mpr hP)

end First

/-- The greatest of zero and those overlaps with the listed boxes that are numbers. -/
structure IsGreatestOverlap (overlap : Fin g → α) (bs : List (Fin g)) (x : α) : Prop where
  attained : x = zero ∨ ∃ b ∈ bs, x = overlap b
  zero_le : le zero x
  le : ∀ b ∈ bs, ¬ isNaN (overlap b) → le (overlap b) x

/-- What an anchor is matched to after it has met the boxes `bs` in their order. -/
structure Standing (threshold : α) (overlap : Fin n → Fin g → α) (a : Fin n) (bs : List (Fin g))
    (m : Match α g) : Prop where
  greatest : IsGreatestOverlap (overlap a) bs m.overlap
  overlapped : lt zero m.overlap → IsFirst (fun b => eq (overlap a b) m.overlap) bs m.truth
  claimed : ¬ lt zero m.overlap → IsFirst (fun b => Claims overlap b a) bs m.truth
  positive : m.positive ↔ ∃ b ∈ bs, Claims overlap b a ∨ lt threshold (overlap a b)

theorem truth_meet_eq (threshold x : α) (b : Fin g) (claimed : Bool) (m : Match α g) :
    (m.meet threshold b x claimed).truth =
      if claimed then (m.improve b x).truth.or (some b) else (m.improve b x).truth := by
  cases claimed with
  | false => rfl
  | true => exact Option.orElse_eq_or

variable [LawfulLe α]

namespace IsGreatestOverlap

variable {overlap : Fin g → α} {bs : List (Fin g)} {x : α}

theorem isNumber (h : IsGreatestOverlap overlap bs x) : ¬ isNaN x :=
  (LawfulLe.not_isNaN_of_le h.zero_le).2

theorem concat (h : IsGreatestOverlap overlap bs x) (b : Fin g) :
    IsGreatestOverlap overlap (bs ++ [b]) (if lt x (overlap b) then overlap b else x) := by
  by_cases hlt : lt x (overlap b) = true
  · rw [if_pos hlt]
    have hle := (lt_iff.mp hlt).1
    refine ⟨.inr ⟨b, List.mem_concat_self, rfl⟩, LawfulLe.le_trans h.zero_le hle, fun c hc hn => ?_⟩
    obtain hc | hc := List.mem_append.mp hc
    · exact LawfulLe.le_trans (h.le c hc hn) hle
    · rw [List.mem_singleton.mp hc]
      exact le_self (LawfulLe.not_isNaN_of_le hle).2
  · rw [if_neg hlt]
    refine ⟨h.attained.imp_right fun ⟨c, hc, hx⟩ => ⟨c, List.mem_append_left _ hc, hx⟩, h.zero_le,
      fun c hc hn => ?_⟩
    obtain hc | hc := List.mem_append.mp hc
    · exact h.le c hc hn
    · rw [List.mem_singleton.mp hc] at hn ⊢
      exact le_of_not_lt h.isNumber hn hlt

theorem exists_eq (h : IsGreatestOverlap overlap bs x) (hx : lt zero x) :
    ∃ b ∈ bs, eq (overlap b) x := by
  obtain rfl | ⟨b, hb, rfl⟩ := h.attained
  · exact absurd hx (not_lt_self zero)
  · exact ⟨b, hb, eq_iff.mpr ⟨le_self h.isNumber, le_self h.isNumber⟩⟩

theorem lt_zero_iff (h : IsGreatestOverlap overlap bs x) :
    lt zero x ↔ ∃ b ∈ bs, lt zero (overlap b) := by
  constructor
  · intro hx
    obtain ⟨b, hb, hbx⟩ := h.exists_eq hx
    exact ⟨b, hb, lt_of_lt_of_le hx (eq_iff.mp hbx).2⟩
  · rintro ⟨b, hb, h0⟩
    exact lt_of_lt_of_le h0 (h.le b hb (LawfulLe.not_isNaN_of_le (lt_iff.mp h0).1).2)

/-- A box that the anchor overlaps more than those before it is the first with its overlap. -/
theorem isFirst_of_lt (h : IsGreatestOverlap overlap bs x) {b : Fin g} (hlt : lt x (overlap b)) :
    IsFirst (fun c => eq (overlap c) (overlap b)) (bs ++ [b]) (some b) := by
  have hn := (LawfulLe.not_isNaN_of_le (lt_iff.mp hlt).1).2
  refine ⟨⟨List.mem_concat_self, eq_iff.mpr ⟨le_self hn, le_self hn⟩⟩, fun c hc => ?_⟩
  obtain ⟨hc, heq⟩ := hc
  obtain hc | hc := List.mem_append.mp hc
  · have hle := (eq_iff.mp heq).2
    have hcx := h.le c hc (LawfulLe.not_isNaN_of_le hle).2
    exact absurd (LawfulLe.le_trans hle hcx) (lt_iff.mp hlt).2
  · exact (List.mem_singleton.mp hc).ge

end IsGreatestOverlap

namespace Standing

variable {threshold : α} {overlap : Fin n → Fin g → α} {a : Fin n}

theorem unmatched : Standing threshold overlap a [] (unmatched : Match α g) where
  greatest := ⟨.inl rfl, le_zero_zero, fun b hb => nomatch hb⟩
  overlapped := fun _ b hb => nomatch hb
  claimed := fun _ b hb => nomatch hb
  positive := by simp [Match.unmatched]

section Step

variable {bs : List (Fin g)} {m : Match α g} (h : Standing threshold overlap a bs m)

include h

theorem exists_first (hpos : lt zero m.overlap) :
    ∃ c, m.truth = some c ∧ IsFirst (fun b => eq (overlap a b) m.overlap) bs (some c) := by
  have hfirst := h.overlapped hpos
  cases ht : m.truth with
  | none =>
    rw [ht] at hfirst
    obtain ⟨c, hc, heq⟩ := h.greatest.exists_eq hpos
    exact absurd heq (hfirst c hc)
  | some c =>
    rw [ht] at hfirst
    exact ⟨c, rfl, hfirst⟩

theorem meet {b : Fin g} (hb : ∀ c ∈ bs, c < b) {claimed : Bool} (hc : claimed = true ↔ Claims overlap b a) :
    Standing threshold overlap a (bs ++ [b]) (m.meet threshold b (overlap a b) claimed) := by
  have hgreatest := h.greatest.concat b
  have hpositive := positive_meet_iff h.positive hc
  have hoverlap : (m.meet threshold b (overlap a b) claimed).overlap =
      if lt m.overlap (overlap a b) then overlap a b else m.overlap := by
    rw [overlap_meet, overlap_improve]
  have htruth := truth_meet_eq threshold (overlap a b) b claimed m
  rw [truth_improve] at htruth
  rw [← hoverlap] at hgreatest
  by_cases hlt : lt m.overlap (overlap a b) = true
  · -- no box before this one overlaps the anchor as much
    rw [if_pos hlt] at hoverlap
    rw [if_pos hlt] at htruth
    have hsome : (m.meet threshold b (overlap a b) claimed).truth = some b := by
      rw [htruth]
      exact ite_self _
    refine ⟨hgreatest, fun _ => ?_, fun hnot => ?_, hpositive⟩
    · rw [hsome, hoverlap]
      exact h.greatest.isFirst_of_lt hlt
    · rw [hoverlap] at hnot
      exact absurd (lt_of_le_of_lt h.greatest.zero_le hlt) hnot
  · rw [if_neg hlt] at hoverlap
    rw [if_neg hlt] at htruth
    refine ⟨hgreatest, fun hpos => ?_, fun hnot => ?_, hpositive⟩
    · -- a claim leaves the box of an anchor that overlaps one in place
      rw [hoverlap] at hpos ⊢
      obtain ⟨c, ht, hfirst⟩ := h.exists_first hpos
      have hkeep : (m.meet threshold b (overlap a b) claimed).truth = some c := by
        rw [htruth, ht]
        exact ite_self _
      rw [hkeep]
      exact hfirst.keep hb
    · rw [hoverlap] at hnot
      rw [htruth]
      exact (h.claimed hnot).concat hb hc

/-- Where a claim takes a positive overlap, the order of the boxes does not matter. -/
theorem isBest (hp : ∀ b ∈ bs, Claims overlap b a → lt zero (overlap a b)) :
    IsBest (overlap a) bs m.truth := by
  by_cases hpos : lt zero m.overlap = true
  · obtain ⟨c, ht, ⟨hc, heq⟩, -⟩ := h.exists_first hpos
    obtain ⟨-, hge⟩ := eq_iff.mp heq
    rw [ht]
    refine ⟨hc, lt_of_lt_of_le hpos hge, fun b hb hlt => ?_⟩
    obtain ⟨hle, hnot⟩ := lt_iff.mp hlt
    have hb := h.greatest.le b hb (LawfulLe.not_isNaN_of_le hle).2
    exact hnot (LawfulLe.le_trans hb hge)
  · have hnone : ∀ b ∈ bs, ¬ lt zero (overlap a b) := fun b hb h0 =>
      hpos (h.greatest.lt_zero_iff.mpr ⟨b, hb, h0⟩)
    have hfirst := h.claimed hpos
    cases ht : m.truth with
    | none => exact hnone
    | some c =>
      rw [ht] at hfirst
      obtain ⟨hc, hclaim⟩ := hfirst.1
      exact absurd (hp c hc hclaim) (hnone c hc)

end Step

theorem assign (threshold : α) (overlap : Fin n → Fin g → α) (a : Fin n) :
    Standing threshold overlap a (List.finRange g) ((assign threshold overlap).get a) :=
  assign_induction unmatched fun hb h => h.meet hb beq_iff_eq

end Standing

end Match

end AnchorLoss
