import Mathlib
import AnchorLoss.Mining

namespace AnchorLoss

namespace Mining

variable {n : Nat}

theorem toList_eq_map_get (mask : Vector Bool n) : mask.toList = (List.finRange n).map mask.get := by
  refine List.ext_getElem (by simp) fun i hi hi' => ?_
  simp [Vector.get_eq_getElem]

@[simp] theorem length_positions (mask : Vector Bool n) : (positions mask).length = countTrue mask := by
  rw [countTrue, toList_eq_map_get, List.count_eq_countP, List.countP_map, positions,
    List.countP_eq_length_filter]
  congr 2
  funext i
  simp

@[simp] theorem mem_positions {mask : Vector Bool n} {i : Fin n} : i ∈ positions mask ↔ mask.get i = true := by
  simp [positions]

theorem nodup_positions (mask : Vector Bool n) : (positions mask).Nodup :=
  (List.nodup_finRange n).filter _

theorem get_set (mask : Vector Bool n) (i j : Fin n) (b : Bool) :
    (mask.set i.val b i.isLt).get j = if j = i then b else mask.get j := by
  by_cases h : j = i
  · simp [h, Vector.get_eq_getElem]
  · have hval : i.val ≠ j.val := fun he => h (Fin.ext he.symm)
    simp [h, Vector.get_eq_getElem, Vector.getElem_set_ne, hval]

theorem get_foldl_set (mask : Vector Bool n) (is : List (Fin n)) (j : Fin n) (b : Bool) :
    (is.foldl (fun mask i => mask.set i.val b i.isLt) mask).get j = if j ∈ is then b else mask.get j := by
  induction is generalizing mask with
  | nil => simp
  | cons i is ih =>
    rw [List.foldl_cons, ih, get_set]
    by_cases hi : j = i <;> by_cases hj : j ∈ is <;> simp [hi, hj]

theorem countTrue_set_false {mask : Vector Bool n} {i : Fin n} (h : mask.get i = true) :
    countTrue (mask.set i.val false i.isLt) + 1 = countTrue mask := by
  have hlt : i.val < mask.toList.length := by simp
  have hi : mask.toList[i.val] = true := by simpa [Vector.get_eq_getElem] using h
  have hpos : 0 < mask.toList.count true := List.count_pos_iff.mpr (hi ▸ List.getElem_mem hlt)
  rw [countTrue, countTrue, Vector.toList_set, List.count_set hlt, hi]
  exact Nat.sub_add_cancel hpos

@[simp] theorem get_without (mask : Vector Bool n) (is : List (Fin n)) (j : Fin n) :
    (without mask is).get j = (mask.get j && !decide (j ∈ is)) := by
  rw [without, get_foldl_set]
  by_cases hj : j ∈ is <;> simp [hj]

theorem countTrue_without {mask : Vector Bool n} {is : List (Fin n)} (hn : is.Nodup)
    (hs : ∀ i ∈ is, mask.get i = true) : countTrue (without mask is) + is.length = countTrue mask := by
  induction is generalizing mask with
  | nil => rfl
  | cons i is ih =>
    obtain ⟨hi, hn⟩ := List.nodup_cons.mp hn
    have hrest : ∀ j ∈ is, (mask.set i.val false i.isLt).get j = true := by
      intro j hj
      have hne : j ≠ i := fun he => hi (he ▸ hj)
      rw [get_set, if_neg hne]
      exact hs j (List.mem_cons_of_mem i hj)
    have hcount := countTrue_set_false (hs i List.mem_cons_self)
    have hwithout := ih hn hrest
    have hcons : without mask (i :: is) = without (mask.set i.val false i.isLt) is := rfl
    rw [hcons, List.length_cons]
    omega

section Rank

variable {α : Type} [Scalar α] (limit : Int) (loss : Vector α n) (candidate : Vector Bool n)

theorem dropped_sublist :
    (dropped limit loss candidate).Sublist (ranked loss (positions candidate)) := by
  unfold dropped
  dsimp only
  split
  · exact List.nil_sublist _
  · exact List.take_sublist _ _

@[simp] theorem length_ranked (is : List (Fin n)) : (ranked loss is).length = is.length :=
  List.length_mergeSort is

theorem length_dropped : (dropped limit loss candidate).length =
    min ((countTrue candidate : Int) - limit).toNat (countTrue candidate) := by
  unfold dropped
  dsimp only
  split
  · rename_i h
    simp [h]
  · rw [List.length_take, length_ranked, length_positions]

theorem nodup_dropped : (dropped limit loss candidate).Nodup :=
  (dropped_sublist limit loss candidate).nodup
    (List.nodup_mergeSort.mpr (nodup_positions candidate))

theorem get_of_mem_dropped {i : Fin n} (h : i ∈ dropped limit loss candidate) :
    candidate.get i = true := by
  have hr := (dropped_sublist limit loss candidate).subset h
  exact mem_positions.mp ((List.mergeSort_perm _ _).mem_iff.mp hr)

end Rank

section Select

variable {α : Type} [Scalar α] {k : Nat} (threshold eps : α) (limit : Int)
  (logits : Vector (Vector α (k + 1)) n) (positive : Vector Bool n)

theorem countTrue_select : countTrue (select threshold eps limit logits positive).negative =
    (select threshold eps limit logits positive).kept := by
  -- the positions that are dropped are candidates, and none is listed twice
  have h := countTrue_without (nodup_dropped limit _ (candidates threshold logits positive))
    fun i => get_of_mem_dropped limit
      (Vector.ofFn fun i => labelLoss eps (logits.get i) (objectLabel (positive.get i)))
      (candidates threshold logits positive)
  exact Nat.eq_sub_of_add_eq h

theorem kept_select_le (h : 0 ≤ limit) :
    ((select threshold eps limit logits positive).kept : Int) ≤ limit := by
  simp only [select, length_dropped]
  omega

theorem positive_of_negative {i : Fin n}
    (h : (select threshold eps limit logits positive).negative.get i = true) :
    positive.get i = false := by
  simp only [select, get_without, Bool.and_eq_true] at h
  have hc := h.1
  rw [candidates, Vector.get_ofFn, Bool.and_eq_true, Bool.not_eq_true'] at hc
  exact hc.1

end Select

end Mining

theorem countTrue_eq_zero {n : Nat} {mask : Vector Bool n} :
    countTrue mask = 0 ↔ ∀ a, mask.get a = false := by
  rw [countTrue, List.count_eq_zero, Mining.toList_eq_map_get]
  simp

end AnchorLoss
