import Mathlib
import AnchorLoss.Proofs.Item.Consistent
import AnchorLoss.Proofs.Matching.Standing

namespace AnchorLoss

open Scalar

/-- Every box has a positive overlap with some anchor, and no anchor has its positive greatest overlap with
two different boxes. -/
structure Separated {α : Type} [Scalar α] {n k : Nat} (anchors : Vector (Box α) n)
    (truths : List (Truth α k)) : Prop where
  met : ∀ t ∈ truths, ∃ a, lt zero ((anchors.get a).overlap t.box)
  unique : ∀ a t t', Match.IsBest (fun t => (anchors.get a).overlap t.box) truths (some t) →
    Match.IsBest (fun t => (anchors.get a).overlap t.box) truths (some t') → t = t'

theorem Separated.perm {α : Type} [Scalar α] {n k : Nat} {anchors : Vector (Box α) n}
    {truths truths' : List (Truth α k)} (h : Separated anchors truths) (hp : truths.Perm truths') :
    Separated anchors truths' where
  met := fun t ht => h.met t (hp.mem_iff.mpr ht)
  unique := fun a t t' ht ht' => h.unique a t t' (ht.perm hp.symm) (ht'.perm hp.symm)

def Truth.Apart {α : Type} [Scalar α] {n k : Nat} (anchors : Vector (Box α) n) (t t' : Truth α k) : Prop :=
  ∀ a, lt ((anchors.get a).overlap t.box) ((anchors.get a).overlap t'.box) ∨
    lt ((anchors.get a).overlap t'.box) ((anchors.get a).overlap t.box)

instance {α : Type} [Scalar α] {n k : Nat} (anchors : Vector (Box α) n) :
    Std.Symm (Truth.Apart (k := k) anchors) where
  symm _ _ h a := (h a).symm

instance {α : Type} [Scalar α] {n k : Nat} (anchors : Vector (Box α) n) (t t' : Truth α k) :
    Decidable (t.Apart anchors t') :=
  inferInstanceAs (Decidable (∀ _, _ ∨ _))

theorem Separated.of_apart {α : Type} [Scalar α] {n k : Nat} {anchors : Vector (Box α) n}
    {truths : List (Truth α k)} (hmet : ∀ t ∈ truths, ∃ a, lt zero ((anchors.get a).overlap t.box))
    (h : truths.Pairwise (Truth.Apart anchors)) : Separated anchors truths where
  met := hmet
  unique := by
    rintro a t t' ⟨ht, -, hmax⟩ ⟨ht', -, hmax'⟩
    by_contra hne
    obtain hlt | hlt := h.forall ht ht' hne a
    · exact hmax t' ht' hlt
    · exact hmax' t ht hlt

namespace Item

variable {F : Precision → Type} [Arithmetic F] {p : Precision} {n k : Nat}

def matched (truths : List (Truth (F p) k)) (m : Match (F p) truths.length) : Option (Truth (F p) k) :=
  m.truth.map truths.get

omit [Arithmetic F] in
theorem classOf_eq (truths : List (Truth (F p) k)) (m : Match (F p) truths.length) :
    classOf truths m = (matched truths m).elim background Truth.label := by
  unfold classOf matched
  cases m.truth <;> rfl

theorem target_eq (truths : List (Truth (F p) k)) (m : Match (F p) truths.length) :
    m.target (boxesOf truths) =
      (matched truths m).elim ⟨⟨zero, zero⟩, ⟨zero, zero⟩⟩ Truth.box := by
  unfold Match.target matched
  cases m.truth with
  | none => rfl
  | some b => exact boxesOf_get truths b

variable (d : Detector (Wide F)) {anchors : Vector (Box (F p)) n}

/-- Of the matches, a record shows which are positive and which boxes they have. -/
theorem forward_of_matched (heads : Vector (Heads (F p) k) n) {truths truths' : List (Truth (F p) k)}
    (hp : ∀ a, ((assign d anchors truths').get a).positive = ((assign d anchors truths).get a).positive)
    (hm : ∀ a, matched truths' ((assign d anchors truths').get a) =
      matched truths ((assign d anchors truths).get a)) :
    forward d anchors heads truths' = forward d anchors heads truths := by
  have hpositive : Match.positives (assign d anchors truths') =
      Match.positives (assign d anchors truths) := by
    ext a ha
    rw [Match.positives, Match.positives, Vector.getElem_map, Vector.getElem_map]
    exact hp ⟨a, ha⟩
  have hlabels : ∀ negative, labelsOf truths' (assign d anchors truths') negative =
      labelsOf truths (assign d anchors truths) negative := by
    intro negative
    simp only [labelsOf, classOf_eq, hm]
  have htargets : targetsOf d anchors truths' (assign d anchors truths') =
      targetsOf d anchors truths (assign d anchors truths) := by
    simp only [targetsOf, target_eq, hm]
  simp only [forward, hpositive, hlabels, htargets]

variable [LawfulLe (F p)] (hn : ∀ a b : Box (F p), ¬ isNaN (a.overlap b))

include hn

theorem met_truths {truths : List (Truth (F p) k)} (hs : Separated anchors truths) (a : Fin n) :
    Match.IsBest (fun t => (anchors.get a).overlap t.box) truths
        (matched truths ((assign d anchors truths).get a)) ∧
      (((assign d anchors truths).get a).positive ↔ ∃ t ∈ truths,
        Match.Claims (fun a (t : Truth (F p) k) => (anchors.get a).overlap t.box) t a ∨
          lt (convert d.iouThreshold) ((anchors.get a).overlap t.box)) := by
  have hclaim : ∀ a b, Match.Claims (fun a b => (anchors.get a).overlap (truths.get b).box) b a →
      lt zero ((anchors.get a).overlap (truths.get b).box) := by
    intro a b hc
    obtain ⟨a', ha'⟩ := hs.met _ (List.get_mem truths b)
    exact hc.positive (fun a => hn _ _) ha'
  have hmet := Match.Standing.assign (convert d.iouThreshold)
    (fun a b => (anchors.get a).overlap (truths.get b).box) a
  have hassign : assign d anchors truths = Match.assign (convert d.iouThreshold)
      fun a b => (anchors.get a).overlap (truths.get b).box := by
    simp only [assign, Match.ofBoxes, boxesOf_get]
  rw [← hassign] at hmet
  refine ⟨?_, hmet.positive.trans ?_⟩
  · have hbest : Match.IsBest (fun t : Truth (F p) k => (anchors.get a).overlap t.box)
        ((List.finRange truths.length).map truths.get) _ :=
      Match.IsBest.map (hmet.isBest fun b _ => hclaim a b)
    rwa [List.map_get_finRange] at hbest
  · constructor
    · rintro ⟨b, -, h⟩
      exact ⟨truths.get b, List.get_mem truths b, h⟩
    · rintro ⟨t, ht, h⟩
      obtain ⟨b, rfl⟩ := List.get_of_mem ht
      exact ⟨b, List.mem_finRange b, h⟩

theorem forward_perm (heads : Vector (Heads (F p) k) n) {truths truths' : List (Truth (F p) k)}
    (hs : Separated anchors truths) (hperm : truths.Perm truths') :
    forward d anchors heads truths' = forward d anchors heads truths := by
  refine forward_of_matched d heads (fun a => ?_) fun a => ?_
  · have h := (met_truths d hn hs a).2
    have h' := (met_truths d hn (hs.perm hperm) a).2
    simp only [← hperm.mem_iff] at h'
    exact Bool.eq_iff_iff.mpr (h'.trans h.symm)
  · exact Match.IsBest.unique (hs.unique a) ((met_truths d hn (hs.perm hperm) a).1.perm hperm.symm)
      (met_truths d hn hs a).1

end Item

end AnchorLoss
