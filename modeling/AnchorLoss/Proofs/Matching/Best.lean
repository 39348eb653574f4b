import Mathlib
import AnchorLoss.Proofs.Matching.Positive
import AnchorLoss.Proofs.Scalar.Order

namespace AnchorLoss

namespace Match

open Scalar

variable {α : Type} [Scalar α] {n g : Nat} {ι : Type}

/-- None of the listed overlaps is positive, or the given one is and is exceeded by none of them. -/
def IsBest (overlap : ι → α) (bs : List ι) : Option ι → Prop
  | none => ∀ b ∈ bs, ¬ lt zero (overlap b)
  | some c => c ∈ bs ∧ lt zero (overlap c) ∧ ∀ b ∈ bs, ¬ lt (overlap c) (overlap b)

theorem IsBest.perm {overlap : ι → α} {bs cs : List ι} {o : Option ι} (h : IsBest overlap bs o)
    (hp : bs.Perm cs) : IsBest overlap cs o := by
  cases o with
  | none => exact fun b hb => h b (hp.mem_iff.mpr hb)
  | some c =>
    obtain ⟨hc, h0, hmax⟩ := h
    exact ⟨hp.mem_iff.mp hc, h0, fun b hb => hmax b (hp.mem_iff.mpr hb)⟩

theorem IsBest.map {κ : Type} {overlap : ι → α} {f : κ → ι} {bs : List κ} {o : Option κ}
    (h : IsBest (fun b => overlap (f b)) bs o) : IsBest overlap (bs.map f) (o.map f) := by
  cases o with
  | none =>
    intro b hb
    obtain ⟨c, hc, rfl⟩ := List.mem_map.mp hb
    exact h c hc
  | some c =>
    obtain ⟨hc, h0, hmax⟩ := h
    refine ⟨List.mem_map_of_mem hc, h0, fun b hb => ?_⟩
    obtain ⟨d, hd, rfl⟩ := List.mem_map.mp hb
    exact hmax d hd

theorem IsBest.unique {overlap : ι → α} {bs : List ι}
    (hu : ∀ b c, IsBest overlap bs (some b) → IsBest overlap bs (some c) → b = c) {o o' : Option ι}
    (h : IsBest overlap bs o) (h' : IsBest overlap bs o') : o = o' := by
  cases o with
  | none =>
    cases o' with
    | none => rfl
    | some c => exact absurd h'.2.1 (h c h'.1)
  | some b =>
    cases o' with
    | none => exact absurd h.2.1 (h' b h.1)
    | some c => rw [hu b c h h']

def Claims (overlap : Fin n → ι → α) (b : ι) (a : Fin n) : Prop :=
  argmax? (Vector.ofFn fun a => overlap a b) = some a

section Claims

variable [LawfulLe α] {overlap : Fin n → ι → α} {a a' : Fin n} {b : ι}

theorem claims_iff : Claims overlap b a ↔ IsArgmax (overlap · b) a :=
  argmax?_ofFn_eq_some_iff

theorem claims_iff_isFirstMax (hn : ∀ a, ¬ isNaN (overlap a b)) :
    Claims overlap b a ↔ IsFirstMax (overlap · b) a :=
  claims_iff.trans (isArgmax_iff_isFirstMax hn)

theorem Claims.positive (h : Claims overlap b a) (hn : ∀ a, ¬ isNaN (overlap a b))
    (hp : lt zero (overlap a' b)) : lt zero (overlap a b) :=
  ((claims_iff_isFirstMax hn).mp h).lt_of_lt hp

end Claims

theorem truth_improve (b : Fin g) (x : α) (m : Match α g) :
    (m.improve b x).truth = if lt m.overlap x then some b else m.truth := by
  unfold improve
  split <;> rfl

theorem overlap_improve (b : Fin g) (x : α) (m : Match α g) :
    (m.improve b x).overlap = if lt m.overlap x then x else m.overlap := by
  unfold improve
  split <;> rfl

theorem overlap_meet (threshold x : α) (b : Fin g) (claimed : Bool) (m : Match α g) :
    (m.meet threshold b x claimed).overlap = (m.improve b x).overlap := by
  cases claimed <;> rfl

theorem positive_meet_iff {threshold : α} {overlap : Fin n → Fin g → α} {a : Fin n} {bs : List (Fin g)}
    {m : Match α g} (h : m.positive ↔ ∃ b ∈ bs, Claims overlap b a ∨ lt threshold (overlap a b))
    {b : Fin g} {claimed : Bool} (hc : claimed = true ↔ Claims overlap b a) :
    (m.meet threshold b (overlap a b) claimed).positive ↔
      ∃ c ∈ bs ++ [b], Claims overlap c a ∨ lt threshold (overlap a c) := by
  rw [positive_meet]
  simp only [Bool.or_eq_true, hc, h, List.mem_append, List.mem_singleton]
  constructor
  · rintro ((hcl | ⟨c, hm, h⟩) | hlt)
    · exact ⟨b, .inr rfl, .inl hcl⟩
    · exact ⟨c, .inl hm, h⟩
    · exact ⟨b, .inr rfl, .inr hlt⟩
  · rintro ⟨c, hm | rfl, h⟩
    · exact .inl (.inr ⟨c, hm, h⟩)
    · obtain h | h := h
      · exact .inl (.inl h)
      · exact .inr h

end Match

end AnchorLoss
