import Mathlib
import AnchorLoss.Proofs.Tensor.Broadcast

namespace AnchorLoss

namespace Tensor

variable {α β γ : Type}

theorem broadcastReversed_comm (as bs : List Nat) : broadcastReversed as bs = broadcastReversed bs as := by
  induction as, bs using broadcastReversed.induct with
  | case1 bs => cases bs <;> rfl
  | case2 as hne => cases as <;> rfl
  | case3 a as b bs hab ih =>
    by_cases hba : b = a
    · subst hba
      simp [broadcastReversed, ih]
    · obtain rfl : b = 1 := hab.resolve_left fun h => hba h.symm
      by_cases ha : a = 1 <;> simp [broadcastReversed, ih, ha, hba]
  | case4 as b bs hab ih =>
    simp [broadcastReversed, hab, ih]
  | case5 a as b bs hab ha =>
    obtain ⟨hab, hb⟩ := not_or.mp hab
    have hba : ¬ b = a := fun h => hab h.symm
    simp [broadcastReversed, hab, hb, ha, hba]

theorem broadcastShape_comm (a b : List Nat) : broadcastShape a b = broadcastShape b a := by
  rw [broadcastShape, broadcastReversed_comm, broadcastShape]

theorem sourceIndex_add_le {as bs cs : List Nat} (h : broadcastReversed as bs = some cs) {i : Nat}
    (hi : i < volume cs) (stride : Nat) : sourceIndex cs as i stride + stride ≤ volume as * stride := by
  induction as, bs using broadcastReversed.induct generalizing cs i stride with
  | case1 bs => cases cs <;> simp [sourceIndex]
  | case2 as hne =>
    cases as with
    | nil => exact absurd rfl hne
    | cons a as =>
      obtain rfl : a :: as = cs := by simpa [broadcastReversed] using h
      have hs := sourceIndex_append_replicate (a :: as) 0 i stride
      rw [List.replicate_zero, List.append_nil] at hs
      rw [hs, ← Nat.succ_mul]
      exact Nat.mul_le_mul_right _ (Nat.mod_lt _ (by omega))
  | case3 a as b bs hab ih =>
    simp only [broadcastReversed, hab, if_true, Option.map_eq_some_iff] at h
    obtain ⟨ds, hds, rfl⟩ := h
    rw [volume_cons] at hi
    have ha : 0 < a := Nat.pos_of_mul_pos_right (Nat.zero_lt_of_lt hi)
    have hrest := ih hds (Nat.div_lt_of_lt_mul hi) (stride * a)
    have hfirst : (if a = 1 then 0 else i % a) + 1 ≤ a := by
      have := Nat.mod_lt i ha
      split <;> omega
    calc sourceIndex (a :: ds) (a :: as) i stride + stride
        = ((if a = 1 then 0 else i % a) + 1) * stride + sourceIndex ds as (i / a) (stride * a) := by
          rw [sourceIndex]
          ring
      _ ≤ sourceIndex ds as (i / a) (stride * a) + stride * a := by
          rw [Nat.add_comm, Nat.mul_comm stride a]
          exact Nat.add_le_add_left (Nat.mul_le_mul_right _ hfirst) _
      _ ≤ volume as * (stride * a) := hrest
      _ = volume (a :: as) * stride := by
          rw [volume_cons]
          ring
  | case4 as b bs hab ih =>
    rw [broadcastReversed, if_neg hab, if_pos rfl, Option.map_eq_some_iff] at h
    obtain ⟨ds, hds, rfl⟩ := h
    have hrest := ih hds (Nat.div_lt_of_lt_mul (volume_cons b ds ▸ hi)) (stride * 1)
    simpa [sourceIndex] using hrest
  | case5 a as b bs hab ha => simp [broadcastReversed, hab, ha] at h

theorem mem_reindex? {t u : Tensor α} {shape : List Nat} {source : Nat → Nat}
    (h : t.reindex? shape source = some u) {x : α} (hx : x ∈ u.data) : x ∈ t.data := by
  obtain ⟨hs, he⟩ := reindex?_eq_some h
  obtain ⟨i, hi, rfl⟩ := Array.mem_iff_getElem.mp hx
  have hi' := he i (by rw [← hs, ← u.size_data]; exact hi)
  rw [Array.getElem?_eq_getElem hi] at hi'
  exact Array.mem_of_getElem? hi'.symm

theorem broadcastTo?_isSome (t : Tensor α) {shape out : List Nat}
    (h : broadcastShape t.shape shape = some out) : ∃ u, t.broadcastTo? out = some u := by
  obtain ⟨cs, hcs, rfl⟩ := Option.map_eq_some_iff.mp h
  refine reindex?_isSome _ _ _ fun i hi => ?_
  rw [volume_reverse] at hi
  have hle := sourceIndex_add_le hcs hi 1
  rw [Nat.mul_one, volume_reverse] at hle
  rw [List.reverse_reverse, t.size_data]
  omega

/-- Tensors whose shapes line up have a combination, in the shape that comes out. -/
theorem zipWith?_of_broadcastShape (f : α → β → γ) {a : Tensor α} {b : Tensor β} {out : List Nat}
    (h : broadcastShape a.shape b.shape = some out) : ∃ r, zipWith? f a b = some r ∧ r.shape = out := by
  obtain ⟨u, hu⟩ := a.broadcastTo?_isSome h
  obtain ⟨v, hv⟩ := b.broadcastTo?_isSome (broadcastShape_comm _ _ ▸ h)
  have hsize : (u.data.zipWith f v.data).size = volume out := by
    rw [Array.size_zipWith, u.size_data, v.size_data, (reindex?_eq_some hu).1, (reindex?_eq_some hv).1,
      Nat.min_self]
  refine ⟨⟨out, _, hsize⟩, ?_, rfl⟩
  simp only [zipWith?, h, hu, hv, ofArray?, Option.bind_eq_bind, Option.bind_some, dif_pos hsize]

theorem zipWith?_eq_none {f : α → β → γ} {a : Tensor α} {b : Tensor β}
    (h : broadcastShape a.shape b.shape = none) : zipWith? f a b = none := by
  rw [zipWith?, h]
  rfl

theorem mem_zipWith? {f : α → β → γ} {a : Tensor α} {b : Tensor β} {r : Tensor γ}
    (h : zipWith? f a b = some r) {z : γ} (hz : z ∈ r.data) : ∃ x ∈ a.data, ∃ y ∈ b.data, z = f x y := by
  obtain ⟨cs, u, v, -, -, hu, hv, hd⟩ := zipWith?_eq_some h
  rw [hd] at hz
  obtain ⟨i, hi, rfl⟩ := Array.mem_iff_getElem.mp hz
  rw [Array.getElem_zipWith]
  rw [Array.size_zipWith, lt_min_iff] at hi
  exact ⟨_, mem_reindex? hu (Array.getElem_mem hi.1), _, mem_reindex? hv (Array.getElem_mem hi.2), rfl⟩

end Tensor

end AnchorLoss
