import Mathlib
import AnchorLoss.Proofs.Binary.Count
import AnchorLoss.Proofs.Binary.Rank
import AnchorLoss.Proofs.Mining.Rank

namespace AnchorLoss

namespace Mining

open Scalar

section Selected

variable {n : Nat}

/-- The anchors that a mask selects. -/
def selected (mask : Vector Bool n) : Finset (Fin n) := Finset.univ.filter (mask.get · = true)

@[simp] theorem mem_selected {mask : Vector Bool n} {i : Fin n} :
    i ∈ selected mask ↔ mask.get i = true := by
  simp [selected]

theorem card_selected (mask : Vector Bool n) : (selected mask).card = countTrue mask := by
  have h : selected mask = (positions mask).toFinset := by
    ext i
    simp
  rw [h, List.toFinset_card_of_nodup (nodup_positions mask), length_positions]

end Selected

section Hardest

variable {α : Type} [Scalar α] {n k : Nat}

def anchorLoss (eps : α) (logits : Vector (Vector α (k + 2)) n) (positive : Vector Bool n) (i : Fin n) : α :=
  labelLoss eps (logits.get i) (objectLabel (positive.get i))

def contenders (threshold : α) (logits : Vector (Vector α (k + 2)) n) (positive : Vector Bool n) :
    Finset (Fin n) :=
  Finset.univ.filter fun i =>
    positive.get i = false ∧ ¬ lt threshold (backgroundConfidence (logits.get i))

/-- How mining divides the anchors, given how many negatives may be kept. -/
structure Hardest (threshold eps : α) (limit : Nat) (logits : Vector (Vector α (k + 2)) n)
    (positive : Vector Bool n) (mining : Mining n) : Prop where
  subset : selected mining.negative ⊆ contenders threshold logits positive
  card : (selected mining.negative).card = min (contenders threshold logits positive).card limit
  precedes : ∀ i ∈ selected mining.negative, ∀ d ∈ contenders threshold logits positive,
    d ∉ selected mining.negative → Precedes (anchorLoss eps logits positive) d i
  kept_eq : mining.kept = countTrue mining.negative
  filtered_eq : mining.filtered = ((selected positive)ᶜ \ contenders threshold logits positive).card
  used_eq : selected (positive.zipWith (· || ·) mining.negative) =
    selected positive ∪ selected mining.negative
  disjoint : [selected positive, selected mining.negative,
    contenders threshold logits positive \ selected mining.negative,
    (selected positive)ᶜ \ contenders threshold logits positive].Pairwise Disjoint
  cover : selected positive ∪ selected mining.negative ∪
    contenders threshold logits positive \ selected mining.negative ∪
    (selected positive)ᶜ \ contenders threshold logits positive = Finset.univ

theorem selected_candidates (threshold : α) (logits : Vector (Vector α (k + 2)) n)
    (positive : Vector Bool n) :
    selected (candidates threshold logits positive) = contenders threshold logits positive := by
  ext i
  simp [contenders, candidates]

theorem contenders_subset (threshold : α) (logits : Vector (Vector α (k + 2)) n)
    (positive : Vector Bool n) : contenders threshold logits positive ⊆ (selected positive)ᶜ := by
  intro i hi
  simp only [contenders, Finset.mem_filter] at hi
  simp [hi.2.1]

theorem mem_negative {threshold eps : α} {limit : Int} {logits : Vector (Vector α (k + 2)) n}
    {positive : Vector Bool n} {i : Fin n} :
    i ∈ selected (select threshold eps limit logits positive).negative ↔
      i ∈ contenders threshold logits positive ∧
        i ∉ dropped limit (Vector.ofFn (anchorLoss eps logits positive))
          (candidates threshold logits positive) := by
  rw [← selected_candidates, mem_selected, mem_selected, ← decide_eq_false_iff_not, ← Bool.not_eq_true',
    ← Bool.and_eq_true_iff]
  exact iff_of_eq (congrArg (· = true) (get_without _ _ i))

/-- The anchors fall apart into the positives, the kept and the dropped candidates, and the others. -/
theorem partition_of_subset {P C K : Finset (Fin n)} (hK : K ⊆ C) (hC : C ⊆ Pᶜ) :
    [P, K, C \ K, Pᶜ \ C].Pairwise Disjoint ∧ P ∪ K ∪ C \ K ∪ Pᶜ \ C = Finset.univ := by
  have hPC : Disjoint P C := Finset.disjoint_left.mpr fun i hi hc => Finset.mem_compl.mp (hC hc) hi
  have hP : Disjoint P (Pᶜ \ C) := Finset.disjoint_of_subset_right Finset.sdiff_subset disjoint_compl_right
  have hdropped : Disjoint (C \ K) (Pᶜ \ C) := Finset.disjoint_of_subset_left Finset.sdiff_subset
    Finset.disjoint_sdiff
  constructor
  · simp only [List.pairwise_cons, List.forall_mem_cons, List.not_mem_nil]
    refine ⟨⟨hPC.mono_right hK, hPC.mono_right Finset.sdiff_subset, hP, nofun⟩,
      ⟨Finset.disjoint_sdiff, Finset.disjoint_of_subset_left hK Finset.disjoint_sdiff, nofun⟩,
      ⟨hdropped, nofun⟩, nofun, .nil⟩
  · rw [Finset.union_assoc P, Finset.union_sdiff_of_subset hK, Finset.union_assoc,
      Finset.union_sdiff_of_subset hC, Finset.union_compl]

variable [LawfulLe α] (threshold eps : α) (limit : Nat) (logits : Vector (Vector α (k + 2)) n)
  (positive : Vector Bool n)

theorem Hardest.select : Hardest threshold eps limit logits positive
    (select threshold eps limit logits positive) := by
  have hcount := countTrue_select threshold eps limit logits positive
  have hsubset : selected (Mining.select threshold eps limit logits positive).negative ⊆
      contenders threshold logits positive := fun i hi => (mem_negative.mp hi).1
  have hcompl := contenders_subset threshold logits positive
  have hcard : (contenders threshold logits positive).card =
      countTrue (candidates threshold logits positive) := by
    rw [← selected_candidates, card_selected]
  obtain ⟨hdisjoint, hcover⟩ := partition_of_subset hsubset hcompl
  refine ⟨hsubset, ?_, fun i hi d hd hdropped => ?_, hcount.symm, ?_, ?_, hdisjoint, hcover⟩
  · rw [card_selected, hcount, hcard]
    simp only [Mining.select, length_dropped]
    omega
  · obtain ⟨hic, hikept⟩ := mem_negative.mp hi
    rw [mem_negative, not_and_not_right] at hdropped
    rw [← selected_candidates, mem_selected] at hic
    have hloss : (Vector.ofFn (anchorLoss eps logits positive)).get = anchorLoss eps logits positive :=
      funext fun a => Vector.get_ofFn _ a
    have hprecedes := precedes_of_mem_dropped _ (hdropped hd) hic hikept
    rwa [hloss] at hprecedes
  · rw [Finset.card_sdiff_of_subset hcompl, Finset.card_compl, card_selected, hcard, Fintype.card_fin]
    rfl
  · ext i
    simp [Vector.get_eq_getElem]

end Hardest

section Binary

variable {p : Precision} {n k : Nat}

/-- A ratio that is not negative allows the floor of its product with the number of positives, and of that
many the hardest candidates are kept. -/
theorem select_hardest (threshold eps : Wide Binary) {ratio : Wide Binary} (hr : admits ratio = true)
    (logits : Vector (Vector (Binary p) (k + 2)) n) {positive : Vector Bool n}
    (hfin : Binary.IsFinite (ratio * ofNat (countTrue positive))) :
    ∃ limit : Nat, limit = ⌊Binary.magnitude (Binary.value (ratio * ofNat (countTrue positive)))⌋ ∧
      Mining.limit Binary ratio (countTrue positive) = .ok limit ∧
      Hardest (convert threshold) (convert eps) limit logits positive
        (select (convert threshold) (convert eps) limit logits positive) := by
  have hge : lt ratio zero = false := by simpa [admits] using hr
  have hlimit := Binary.limit_eq_floor hge hfin
  obtain ⟨limit, hnat⟩ := Int.eq_ofNat_of_zero_le (Binary.limit_nonneg hge hlimit)
  rw [hnat] at hlimit
  exact ⟨limit, hnat.symm, hlimit, Hardest.select _ _ limit logits positive⟩

def fourLogits : Vector (Vector (Binary .single) 2) 4 :=
  #v[#v[0, 1], #v[1, 0], #v[-1, 2], #v[0 / 0, 0]]

theorem select_hardest_four : admits (2.5 : Wide Binary) = true ∧
    Binary.IsFinite ((2.5 : Wide Binary) * ofNat (countTrue #v[true, false, false, false])) ∧
    Mining.limit Binary 2.5 (countTrue #v[true, false, false, false]) = .ok 2 ∧
    Hardest (convert (0.99 : Wide Binary)) (convert (0 : Wide Binary)) 2 fourLogits
      #v[true, false, false, false]
      (select (convert (0.99 : Wide Binary)) (convert (0 : Wide Binary)) 2 fourLogits
        #v[true, false, false, false]) := by
  have hr : admits (2.5 : Wide Binary) = true := by decide +kernel
  have hfin : Binary.IsFinite
      ((2.5 : Wide Binary) * ofNat (countTrue #v[true, false, false, false])) := by
    unfold Binary.IsFinite
    decide +kernel
  have hlimit : Mining.limit Binary 2.5 (countTrue #v[true, false, false, false]) = .ok 2 := by
    decide +kernel
  obtain ⟨limit, -, hok, hardest⟩ := select_hardest 0.99 0 hr fourLogits hfin
  obtain rfl : limit = 2 := Int.ofNat.inj (Except.ok.inj (hok.symm.trans hlimit))
  exact ⟨hr, hfin, hlimit, hardest⟩

end Binary

end Mining

end AnchorLoss
