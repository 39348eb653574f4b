import Mathlib
import AnchorLoss.Proofs.Mining.Count
import AnchorLoss.Proofs.Scalar.Order

namespace AnchorLoss

namespace Mining

open Scalar

section Ascending

variable {n : Nat} {is : List (Fin n)}

theorem pair_sublist_of_lt (ha : is.Pairwise (· < ·)) {i j : Fin n} (hi : i ∈ is) (hj : j ∈ is)
    (h : i < j) : [i, j].Sublist is := by
  refine List.sublist_of_subperm_of_pairwise ?_ (List.pairwise_pair.mpr h) ha
  refine (List.nodup_cons.mpr ⟨?_, List.nodup_singleton j⟩).subperm ?_
  · simpa using h.ne
  · simp [hi, hj]

theorem not_pair_sublist_swap {α : Type} {l : List α} (hn : l.Nodup) {i j : α} (h : [i, j].Sublist l) :
    ¬ [j, i].Sublist l := by
  induction l with
  | nil => nomatch h
  | cons a l ih =>
    obtain ⟨ha, hn⟩ := List.nodup_cons.mp hn
    intro h'
    cases h with
    | cons _ h =>
      cases h' with
      | cons _ h' => exact ih hn h h'
      | cons_cons _ h' => exact ha (h.subset (List.mem_cons_of_mem i List.mem_cons_self))
    | cons_cons _ h =>
      cases h' with
      | cons _ h' => exact ha (h'.subset (List.mem_cons_of_mem j List.mem_cons_self))
      | cons_cons _ h' => exact ha (h.subset List.mem_cons_self)

end Ascending

/-- Whether an element is among the first `m` of those for which `p` holds is told by its rank among them. -/
theorem mem_take_filter_iff {α : Type} {l : List α} (hn : l.Nodup) {p : α → Bool} {i m : Nat} {a : α}
    (ha : l[i]? = some a) :
    a ∈ (l.filter p).take m ↔ p a = true ∧ (l.take (i + 1)).countP p ≤ m := by
  obtain ⟨hi, rfl⟩ := List.getElem?_eq_some_iff.mp ha
  have hsplit : l = l.take i ++ l[i] :: l.drop (i + 1) := by
    rw [← List.drop_eq_getElem_cons hi, List.take_append_drop]
  have hnot : l[i] ∉ (l.take i).filter p := by
    rw [hsplit] at hn
    exact fun h => (List.nodup_append.mp hn).2.2 _ (List.mem_filter.mp h).1 _ List.mem_cons_self rfl
  by_cases hp : p l[i] = true
  · have hfilter : l.filter p = (l.take i).filter p ++ l[i] :: (l.drop (i + 1)).filter p := by
      conv_lhs => rw [hsplit, List.filter_append, List.filter_cons_of_pos hp]
    have hcount : (l.take (i + 1)).countP p = ((l.take i).filter p).length + 1 := by
      rw [← List.take_append_getElem hi, List.countP_append, List.countP_eq_length_filter,
        List.countP_singleton, if_pos hp]
    rw [hfilter, hcount, List.take_append]
    simp only [List.mem_append]
    constructor
    · rintro (h | h)
      · exact absurd (List.mem_of_mem_take h) hnot
      · refine ⟨hp, ?_⟩
        by_contra hlt
        rw [Nat.sub_eq_zero_of_le (by omega)] at h
        cases h
    · rintro ⟨-, hle⟩
      refine .inr ?_
      obtain ⟨d, hd⟩ := Nat.exists_eq_add_of_le hle
      have hroom : m - ((l.take i).filter p).length = d + 1 := by omega
      rw [hroom]
      exact List.mem_cons_self
  · refine iff_of_false (fun h => hp ?_) fun h => hp h.1
    exact (List.mem_filter.mp (List.mem_of_mem_take h)).2

section Precedes

variable {α : Type} [Scalar α] {n : Nat}

/-- The order by loss, losses that are not numbers last and alike, and then by position. -/
def Precedes (loss : Fin n → α) (i j : Fin n) : Prop :=
  (¬ isNaN (loss i) ∧ isNaN (loss j)) ∨ lt (loss i) (loss j) ∨
    ((eq (loss i) (loss j) ∨ isNaN (loss i) ∧ isNaN (loss j)) ∧ i < j)

variable [LawfulLe α]

theorem precedes_iff {loss : Fin n → α} {i j : Fin n} : Precedes loss i j ↔
    sortLe (loss i) (loss j) ∧ (sortLe (loss j) (loss i) → i < j) := by
  simp only [sortLe_iff]
  constructor
  · rintro (⟨hi, hj⟩ | hlt | ⟨heq | ⟨hi, hj⟩, hij⟩)
    · refine ⟨.inl hj, fun h => ?_⟩
      obtain h | h := h
      · exact absurd h hi
      · exact absurd hj (LawfulLe.not_isNaN_of_le h).1
    · obtain ⟨hle, hge⟩ := lt_iff.mp hlt
      refine ⟨.inr hle, fun h => ?_⟩
      obtain h | h := h
      · exact absurd h (LawfulLe.not_isNaN_of_le hle).1
      · exact absurd h hge
    · exact ⟨.inr (eq_iff.mp heq).1, fun _ => hij⟩
    · exact ⟨.inl hj, fun _ => hij⟩
  · rintro ⟨h, hback⟩
    by_cases hge : isNaN (loss i) ∨ le (loss j) (loss i)
    · exact .inr (.inr ⟨eq_of_sortLe (sortLe_iff.mpr h) (sortLe_iff.mpr hge), hback hge⟩)
    · obtain ⟨hi, hji⟩ := not_or.mp hge
      obtain hj | hij := h
      · exact .inl ⟨hi, hj⟩
      · exact .inr (.inl (lt_iff.mpr ⟨hij, hji⟩))

theorem Precedes.asymm {loss : Fin n → α} {i j : Fin n} (h : Precedes loss i j) :
    ¬ Precedes loss j i := by
  intro h'
  obtain ⟨hij, hlt⟩ := precedes_iff.mp h
  obtain ⟨hji, hgt⟩ := precedes_iff.mp h'
  exact (hlt hji).asymm (hgt hij)

end Precedes

section Ranked

variable {α : Type} [Scalar α] {n : Nat} (loss : Vector α n) {is : List (Fin n)}

theorem ranked_perm (is : List (Fin n)) : (ranked loss is).Perm is :=
  List.mergeSort_perm _ _

variable [LawfulLe α]

theorem sortLe_get_trans (i j k : Fin n) (h : sortLe (loss.get i) (loss.get j))
    (h' : sortLe (loss.get j) (loss.get k)) : sortLe (loss.get i) (loss.get k) :=
  sortLe_trans h h'

theorem sortLe_get_total (i j : Fin n) :
    (sortLe (loss.get i) (loss.get j) || sortLe (loss.get j) (loss.get i)) = true :=
  Bool.or_eq_true_iff.mpr (sortLe_total _ _)

theorem sorted_ranked (is : List (Fin n)) :
    (ranked loss is).Pairwise fun i j => sortLe (loss.get i) (loss.get j) :=
  List.pairwise_mergeSort (sortLe_get_trans loss) (sortLe_get_total loss) is

theorem pairwise_ranked (ha : is.Pairwise (· < ·)) :
    (ranked loss is).Pairwise (Precedes loss.get) := by
  have hnodup : (ranked loss is).Nodup := (ranked_perm loss is).nodup_iff.mpr (ha.imp fun h => h.ne)
  rw [List.pairwise_iff_forall_sublist]
  intro i j hij
  refine precedes_iff.mpr ⟨List.pairwise_iff_forall_sublist.mp (sorted_ranked loss is) hij, fun hji => ?_⟩
  by_contra hge
  have hne : j ≠ i := fun he => List.nodup_iff_sublist.mp hnodup i (he ▸ hij)
  have hmem : ∀ a ∈ [i, j], a ∈ is := fun a h => (ranked_perm loss is).subset (hij.subset h)
  have hpair := pair_sublist_of_lt ha (hmem j (by simp)) (hmem i (by simp))
    (lt_of_le_of_ne (not_lt.mp hge) hne)
  exact not_pair_sublist_swap hnodup hij
    (List.pair_sublist_mergeSort (sortLe_get_trans loss) (sortLe_get_total loss) hji hpair)

theorem filter_ranked (ha : is.Pairwise (· < ·)) (p : Fin n → Bool) :
    (ranked loss is).filter p = ranked loss (is.filter p) := by
  refine List.Perm.eq_of_pairwise (fun i j _ _ h h' => absurd h' h.asymm)
    ((pairwise_ranked loss ha).filter p) (pairwise_ranked loss (ha.filter p)) ?_
  exact ((ranked_perm loss is).filter p).trans (ranked_perm loss (is.filter p)).symm

/-- All anchors are ranked, and of the candidates among them the first ones are dropped. -/
theorem dropped_eq (limit : Int) (candidate : Vector Bool n) : dropped limit loss candidate =
    ((ranked loss (List.finRange n)).filter candidate.get).take
      ((countTrue candidate : Int) - limit).toNat := by
  rw [filter_ranked loss (List.pairwise_lt_finRange n)]
  unfold dropped
  dsimp only
  split
  · rename_i h
    rw [h, List.take_zero]
  · rfl

/-- A candidate is dropped if its rank among the candidates, counted in the order of all anchors, is within the
excess. -/
theorem mem_dropped_iff {limit : Int} {candidate : Vector Bool n} {i : Nat} {a : Fin n}
    (ha : (ranked loss (List.finRange n))[i]? = some a) :
    a ∈ dropped limit loss candidate ↔ candidate.get a = true ∧
      ((ranked loss (List.finRange n)).take (i + 1)).countP candidate.get ≤
        ((countTrue candidate : Int) - limit).toNat := by
  rw [dropped_eq]
  exact mem_take_filter_iff ((ranked_perm loss _).nodup_iff.mpr (List.nodup_finRange n)) ha

theorem precedes_of_mem_dropped {limit : Int} {candidate : Vector Bool n} {i j : Fin n}
    (hi : i ∈ dropped limit loss candidate) (hj : candidate.get j = true)
    (hkept : j ∉ dropped limit loss candidate) : Precedes loss.get i j := by
  have hsorted := (pairwise_ranked loss (List.pairwise_lt_finRange n)).filter candidate.get
  have hmem : j ∈ (ranked loss (List.finRange n)).filter candidate.get :=
    List.mem_filter.mpr ⟨(ranked_perm loss _).mem_iff.mpr (List.mem_finRange j), hj⟩
  rw [dropped_eq] at hi hkept
  rw [← List.take_append_drop ((countTrue candidate : Int) - limit).toNat
    ((ranked loss (List.finRange n)).filter candidate.get)] at hsorted hmem
  exact (List.pairwise_append.mp hsorted).2.2 i hi j ((List.mem_append.mp hmem).resolve_left hkept)

end Ranked

end Mining

end AnchorLoss
