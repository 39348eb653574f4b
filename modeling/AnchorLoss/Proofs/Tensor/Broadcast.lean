import Mathlib
import AnchorLoss.Tensor.Basic

namespace AnchorLoss

namespace Tensor

variable {α β γ : Type}

theorem getElem?_of_mapM {f : β → Option α} {l : List β} {ys : List α} (h : l.mapM f = some ys) :
    ys.length = l.length ∧ ∀ i : Nat, ys[i]? = l[i]?.bind f := by
  induction l generalizing ys with
  | nil =>
    obtain rfl : [] = ys := by simpa using h
    simp
  | cons x l ih =>
    rw [List.mapM_cons] at h
    obtain ⟨y, hy, h⟩ := Option.bind_eq_some_iff.mp h
    obtain ⟨zs, hzs, h⟩ := Option.bind_eq_some_iff.mp h
    obtain rfl : y :: zs = ys := by simpa using h
    obtain ⟨hl, hz⟩ := ih hzs
    refine ⟨by simp [hl], fun i => ?_⟩
    cases i with
    | zero => simp [hy]
    | succ i => simpa using hz i

theorem mapM_isSome {f : β → Option α} {l : List β} (h : ∀ x ∈ l, ∃ y, f x = some y) :
    ∃ ys, l.mapM f = some ys := by
  induction l with
  | nil => exact ⟨[], rfl⟩
  | cons x l ih =>
    obtain ⟨y, hy⟩ := h x (by simp)
    obtain ⟨ys, hys⟩ := ih fun z hz => h z (by simp [hz])
    exact ⟨y :: ys, by simp [List.mapM_cons, hy, hys]⟩

theorem ofArray?_eq_some {shape : List Nat} {data : Array α} {t : Tensor α}
    (h : ofArray? shape data = some t) : t.shape = shape ∧ t.data = data := by
  unfold ofArray? at h
  split at h
  · obtain rfl := Option.some.inj h
    exact ⟨rfl, rfl⟩
  · cases h

theorem reindex?_eq_some {t u : Tensor α} {shape : List Nat} {source : Nat → Nat}
    (h : t.reindex? shape source = some u) :
    u.shape = shape ∧ ∀ i < volume shape, u.data[i]? = t.data[source i]? := by
  obtain ⟨ys, hys, h⟩ := Option.bind_eq_some_iff.mp h
  obtain ⟨hs, hd⟩ := ofArray?_eq_some h
  refine ⟨hs, fun i hi => ?_⟩
  rw [hd, List.getElem?_toArray, (getElem?_of_mapM hys).2 i, List.getElem?_range hi]
  rfl

theorem reindex?_isSome (t : Tensor α) (shape : List Nat) (source : Nat → Nat)
    (h : ∀ i < volume shape, source i < t.data.size) : ∃ u, t.reindex? shape source = some u := by
  obtain ⟨ys, hys⟩ : ∃ ys, (List.range (volume shape)).mapM (fun i => t.data[source i]?) = some ys := by
    refine mapM_isSome fun i hi => ?_
    exact ⟨_, Array.getElem?_eq_getElem (h i (List.mem_range.mp hi))⟩
  have hl : ys.length = volume shape := by simpa using (getElem?_of_mapM hys).1
  exact ⟨⟨shape, ys.toArray, by simpa using hl⟩, by simp [reindex?, hys, ofArray?, hl]⟩

theorem volume_reverse (ns : List Nat) : volume ns.reverse = volume ns := by
  induction ns with
  | nil => rfl
  | cons n ns ih => rw [List.reverse_cons, volume_append, ih, volume_cons, volume_cons, volume_nil,
      Nat.mul_one, Nat.mul_comm]

theorem eq_replicate_of_volume {ns : List Nat} (h : volume ns = 1) :
    ns = List.replicate ns.length 1 := by
  induction ns with
  | nil => rfl
  | cons n ns ih =>
    obtain ⟨hn, hns⟩ := mul_eq_one.mp (volume_cons n ns ▸ h)
    rw [List.length_cons, List.replicate_succ, ← ih hns, hn]

theorem volume_dvd_of_broadcastReversed {as bs cs : List Nat}
    (h : broadcastReversed as bs = some cs) : volume as ∣ volume cs := by
  induction as, bs using broadcastReversed.induct generalizing cs with
  | case1 bs => simp
  | case2 as hne =>
    cases as with
    | nil => simp
    | cons a as =>
      obtain rfl : a :: as = cs := by simpa [broadcastReversed] using h
      exact dvd_rfl
  | case3 a as b bs hab ih =>
    simp only [broadcastReversed, hab, if_true, Option.map_eq_some_iff] at h
    obtain ⟨ds, hds, rfl⟩ := h
    exact Nat.mul_dvd_mul dvd_rfl (ih hds)
  | case4 as b bs hab ih =>
    rw [broadcastReversed, if_neg hab, if_pos rfl, Option.map_eq_some_iff] at h
    obtain ⟨ds, hds, rfl⟩ := h
    simpa using (ih hds).mul_left b
  | case5 a as b bs hab ha => simp [broadcastReversed, hab, ha] at h

/-- Only axes of one entry are added in front when the number of entries stays the same. -/
theorem broadcastReversed_of_volume {as bs cs : List Nat} (h : broadcastReversed as bs = some cs)
    (hv : volume cs = volume as) (hpos : 0 < volume as) :
    ∃ k, cs = as ++ List.replicate k 1 := by
  induction as, bs using broadcastReversed.induct generalizing cs with
  | case1 bs =>
    obtain rfl : bs = cs := by simpa [broadcastReversed] using h
    exact ⟨bs.length, eq_replicate_of_volume hv⟩
  | case2 as hne =>
    cases as with
    | nil => exact absurd rfl hne
    | cons a as =>
      obtain rfl : a :: as = cs := by simpa [broadcastReversed] using h
      exact ⟨0, by simp⟩
  | case3 a as b bs hab ih =>
    simp only [broadcastReversed, hab, if_true, Option.map_eq_some_iff] at h
    obtain ⟨ds, hds, rfl⟩ := h
    obtain ⟨ha, has⟩ := Nat.pos_iff_ne_zero.mp hpos |> Nat.mul_ne_zero_iff.mp
    obtain ⟨k, rfl⟩ := ih hds (Nat.eq_of_mul_eq_mul_left (Nat.pos_of_ne_zero ha) hv)
      (Nat.pos_of_ne_zero has)
    exact ⟨k, rfl⟩
  | case4 as b bs hab ih =>
    -- the axis of one entry would be repeated `b` times, and `b` is not one
    rw [broadcastReversed, if_neg hab, if_pos rfl, Option.map_eq_some_iff] at h
    obtain ⟨ds, hds, rfl⟩ := h
    obtain ⟨c, hc⟩ := volume_dvd_of_broadcastReversed hds
    have has : 0 < volume as := by simpa using hpos
    have hbc : b * c = 1 := by
      apply Nat.eq_of_mul_eq_mul_left has
      rw [volume_cons, volume_cons, hc] at hv
      linarith
    exact absurd (Or.inr (mul_eq_one.mp hbc).1) hab
  | case5 a as b bs hab ha => simp [broadcastReversed, hab, ha] at h

theorem sourceIndex_append_replicate (ns : List Nat) (k i stride : Nat) :
    sourceIndex (ns ++ List.replicate k 1) ns i stride = i % volume ns * stride := by
  induction ns generalizing i stride with
  | nil => cases k <;> simp [sourceIndex, List.replicate_succ, Nat.mod_one]
  | cons n ns ih =>
    have hn : (if n = 1 then 0 else i % n) = i % n := by
      by_cases h : n = 1 <;> simp [h, Nat.mod_one]
    rw [List.cons_append, sourceIndex, ih, hn, volume_cons, Nat.mod_mul]
    ring

theorem broadcastTo?_of_volume {t u : Tensor α} {cs : List Nat} {k : Nat}
    (hc : cs.reverse = t.shape.reverse ++ List.replicate k 1) (h : t.broadcastTo? cs = some u)
    (i : Nat) (hi : i < volume cs) (hv : volume cs = volume t.shape) : u.data[i]? = t.data[i]? := by
  rw [(reindex?_eq_some h).2 i hi, hc, sourceIndex_append_replicate, volume_reverse,
    Nat.mod_eq_of_lt (hv ▸ hi), Nat.mul_one]

theorem zipWith?_eq_some {f : α → β → γ} {a : Tensor α} {b : Tensor β} {r : Tensor γ}
    (h : zipWith? f a b = some r) :
    ∃ cs, ∃ u v, broadcastReversed a.shape.reverse b.shape.reverse = some cs ∧
      r.shape = cs.reverse ∧ a.broadcastTo? cs.reverse = some u ∧
      b.broadcastTo? cs.reverse = some v ∧ r.data = u.data.zipWith f v.data := by
  obtain ⟨shape, hs, h⟩ := Option.bind_eq_some_iff.mp h
  obtain ⟨u, hu, h⟩ := Option.bind_eq_some_iff.mp h
  obtain ⟨v, hv, h⟩ := Option.bind_eq_some_iff.mp h
  obtain ⟨cs, hcs, rfl⟩ := Option.map_eq_some_iff.mp hs
  obtain ⟨hr, hd⟩ := ofArray?_eq_some h
  exact ⟨cs, u, v, hcs, hr, hu, hv, hd⟩

theorem getElem?_zipWith? {f : α → β → γ} {a : Tensor α} {b : Tensor β} {r : Tensor γ}
    (h : zipWith? f a b = some r) (hv : volume r.shape = volume a.shape) (i : Nat) (x : α)
    (hx : a.data[i]? = some x) : ∃ y ∈ b.data, r.data[i]? = some (f x y) := by
  obtain ⟨cs, u, v, hcs, hr, hu, hvb, hd⟩ := zipWith?_eq_some h
  have hi : i < volume a.shape := by
    rw [← a.size_data]
    exact (Array.getElem?_eq_some_iff.mp hx).1
  have hc : volume cs = volume a.shape.reverse := by
    rw [volume_reverse, ← hv, hr, volume_reverse]
  obtain ⟨k, rfl⟩ := broadcastReversed_of_volume hcs hc (by rw [volume_reverse]; omega)
  have hir : i < volume (a.shape.reverse ++ List.replicate k 1).reverse := by
    rw [volume_reverse, hc, volume_reverse]
    exact hi
  have hux : u.data[i]? = some x := by
    rw [broadcastTo?_of_volume (k := k) (by simp) hu i hir (by rw [← hr, hv])]
    exact hx
  obtain ⟨y, hy⟩ : ∃ y, v.data[i]? = some y := by
    refine ⟨_, Array.getElem?_eq_getElem ?_⟩
    rw [v.size_data, (reindex?_eq_some hvb).1]
    exact hir
  refine ⟨y, ?_, by rw [hd, Array.getElem?_zipWith, hux, hy]⟩
  rw [(reindex?_eq_some hvb).2 i hir] at hy
  exact Array.mem_of_getElem? hy

theorem eq_of_getElem? {t u : Tensor α} (hs : t.shape = u.shape)
    (hd : ∀ i < volume t.shape, t.data[i]? = u.data[i]?) : t = u := by
  obtain ⟨s, x, hx⟩ := t
  obtain ⟨s', y, hy⟩ := u
  obtain rfl : s = s' := hs
  have hxy : x = y := by
    apply Array.ext_getElem?
    intro i
    by_cases hi : i < volume s
    · exact hd i hi
    · rw [Array.getElem?_eq_none (by omega), Array.getElem?_eq_none (by omega)]
  subst hxy
  rfl

theorem zipWith?_ofScalar (f : α → β → γ) (a : Tensor α) (y : β) :
    zipWith? f a (ofScalar y) = some (a.map (f · y)) := by
  have hb : broadcastShape a.shape (ofScalar y).shape = some a.shape := by
    cases hs : a.shape.reverse with
    | nil =>
      have hn : a.shape = [] := List.reverse_eq_nil_iff.mp hs
      simp [broadcastShape, ofScalar, broadcastReversed, hn]
    | cons n ns =>
      have hr : a.shape = (n :: ns).reverse := by rw [← hs, List.reverse_reverse]
      simp [broadcastShape, ofScalar, broadcastReversed, hr]
  obtain ⟨u, hu⟩ : ∃ u, a.broadcastTo? a.shape = some u := by
    refine reindex?_isSome _ _ _ fun i hi => ?_
    have h := sourceIndex_append_replicate a.shape.reverse 0 i 1
    rw [List.replicate_zero, List.append_nil, Nat.mul_one] at h
    rw [h, volume_reverse, a.size_data]
    exact Nat.mod_lt _ (by omega)
  obtain ⟨v, hv⟩ : ∃ v, (ofScalar y).broadcastTo? a.shape = some v :=
    reindex?_isSome _ _ _ fun i hi => by cases a.shape.reverse <;> simp [ofScalar, sourceIndex]
  have hua : u = a := by
    refine eq_of_getElem? (reindex?_eq_some hu).1 fun i hi => ?_
    rw [(reindex?_eq_some hu).1] at hi
    exact broadcastTo?_of_volume (k := 0) (by simp) hu i hi rfl
  have hvd : v.data = Array.replicate (volume a.shape) y := by
    apply Array.ext_getElem?
    intro i
    by_cases hi : i < volume a.shape
    · rw [(reindex?_eq_some hv).2 i hi, Array.getElem?_replicate, if_pos hi]
      cases a.shape.reverse <;> simp [ofScalar, sourceIndex]
    · rw [Array.getElem?_replicate, if_neg hi, Array.getElem?_eq_none]
      rw [v.size_data, (reindex?_eq_some hv).1]
      omega
  subst hua
  have hz : u.data.zipWith f v.data = u.data.map (f · y) := by
    apply Array.ext_getElem?
    intro i
    rw [hvd, Array.getElem?_zipWith, Array.getElem?_map, Array.getElem?_replicate, ← u.size_data]
    by_cases hi : i < u.data.size <;> simp [hi]
  have hm : (u.data.map (f · y)).size = volume u.shape := by simp [u.size_data]
  simp only [zipWith?, hb, hu, hv, hz, ofArray?, hm, Option.bind_eq_bind, Option.bind_some,
    dif_pos, map]

end Tensor

end AnchorLoss
