import Mathlib
import AnchorLoss.Matching

namespace AnchorLoss

namespace Match

open Scalar

variable {α : Type} [Scalar α] {n g : Nat}

section Induction

variable (threshold : α) (overlap : Fin n → Fin g → α)

/-- Each anchor meets the boxes on its own, but for the claims. -/
theorem get_foldl_meetAll (bs : List (Fin g)) (ms : Vector (Match α g) n) (a : Fin n) :
    (bs.foldl (fun ms b => meetAll threshold b (Vector.ofFn (overlap · b)) ms) ms).get a =
      bs.foldl (fun m b => m.meet threshold b (overlap a b)
        (argmax? (Vector.ofFn (overlap · b)) == some a)) (ms.get a) := by
  induction bs generalizing ms with
  | nil => rfl
  | cons b bs ih =>
    rw [List.foldl_cons, ih, meetAll, Vector.get_ofFn, Vector.get_ofFn]
    rfl

variable {threshold overlap}

/-- What holds of an anchor before it has met any box, and is kept with each box that it meets, holds of it
when it has met all of them. -/
theorem assign_induction {a : Fin n} {motive : List (Fin g) → Match α g → Prop}
    (start : motive [] unmatched)
    (step : ∀ {done : List (Fin g)} {b : Fin g} {m : Match α g}, (∀ c ∈ done, c < b) → motive done m →
      motive (done ++ [b])
        (m.meet threshold b (overlap a b) (argmax? (Vector.ofFn (overlap · b)) == some a))) :
    motive (List.finRange g) ((assign threshold overlap).get a) := by
  rw [assign, get_foldl_meetAll, Vector.get_replicate]
  have hasc := List.pairwise_lt_finRange g
  generalize List.finRange g = bs at hasc ⊢
  induction bs using List.reverseRecOn with
  | nil => exact start
  | append_singleton bs b ih =>
    obtain ⟨hbs, -, hlt⟩ := List.pairwise_append.mp hasc
    rw [List.foldl_concat]
    exact step (fun c hc => hlt c hc b (List.mem_singleton_self b)) (ih hbs)

end Induction

/-- An anchor without a box has its first overlap, and is not positive. -/
structure Settled (m : Match α g) : Prop where
  overlap : m.truth = none → m.overlap = Scalar.zero
  truth : m.positive = true → m.truth ≠ none

theorem settled_unmatched : Settled (unmatched : Match α g) :=
  ⟨fun _ => rfl, fun h => absurd h Bool.false_ne_true⟩

theorem settled_improve {m : Match α g} (h : m.Settled) (b : Fin g) (overlap : α) :
    (m.improve b overlap).Settled := by
  unfold improve
  split
  · exact ⟨fun hn => absurd hn (Option.some_ne_none b), fun _ => Option.some_ne_none b⟩
  · exact h

theorem settled_claim {m : Match α g} (b : Fin g) : (m.claim b).Settled := by
  have hsome : (m.claim b).truth ≠ none := by
    unfold claim
    cases m.truth with
    | none => exact Option.some_ne_none b
    | some b' => exact Option.some_ne_none b'
  exact ⟨fun hn => absurd hn hsome, fun _ => hsome⟩

theorem truth_improve_ne_none {m : Match α g} (h : m.Settled) (b : Fin g) {overlap : α}
    (ho : Scalar.lt Scalar.zero overlap = true) : (m.improve b overlap).truth ≠ none := by
  unfold improve
  split
  · exact Option.some_ne_none b
  · rename_i hlt
    intro hn
    rw [h.overlap hn] at hlt
    exact hlt ho

variable {threshold : α} (ht : ∀ x, Scalar.lt threshold x = true → Scalar.lt Scalar.zero x = true)

include ht

theorem settled_meet {m : Match α g} (h : m.Settled) (b : Fin g) (overlap : α) (claimed : Bool) :
    (m.meet threshold b overlap claimed).Settled := by
  have hclaim : (if claimed then (m.improve b overlap).claim b else m.improve b overlap).Settled := by
    split
    · exact settled_claim b
    · exact settled_improve h b overlap
  refine ⟨hclaim.overlap, fun hpos => ?_⟩
  obtain hpos | hpos := Bool.or_eq_true_iff.mp hpos
  · exact hclaim.truth hpos
  · have himproved := truth_improve_ne_none h b (ht overlap hpos)
    unfold meet exceed
    split
    · exact (settled_claim b).truth rfl
    · exact himproved

theorem settled_assign (overlap : Fin n → Fin g → α) (a : Fin n) :
    ((assign threshold overlap).get a).Settled := by
  refine assign_induction (motive := fun _ m => m.Settled) settled_unmatched fun _ h => ?_
  exact settled_meet ht h _ _ _

end Match

end AnchorLoss
