import Mathlib
import AnchorLoss.Proofs.Tensor.Element
import AnchorLoss.Tensor.Typed

namespace AnchorLoss

namespace Tensor

variable {α β : Type}

def concat? (t u : Tensor α) : Option (Tensor α) :=
  match t.shape, u.shape with
  | n :: ns, m :: ms => if ns = ms then ofArray? ((n + m) :: ns) (t.data ++ u.data) else none
  | _, _ => none

theorem concat?_eq_some {t u v : Tensor α} : t.concat? u = some v ↔
    ∃ n m ns, t.shape = n :: ns ∧ u.shape = m :: ns ∧ v.shape = (n + m) :: ns ∧
      v.data = t.data ++ u.data := by
  obtain ⟨ts, td, ht⟩ := t
  obtain ⟨us, ud, hu⟩ := u
  obtain ⟨vs, vd, hv⟩ := v
  cases ts with
  | nil => simp [concat?]
  | cons n ns =>
    cases us with
    | nil => simp [concat?]
    | cons m ms =>
      by_cases h : ns = ms
      · subst h
        have hsize : (td ++ ud).size = volume ((n + m) :: ns) := by
          rw [Array.size_append, ht, hu, volume_cons, volume_cons, volume_cons, Nat.add_mul]
        simp only [concat?, if_true, ofArray?, dif_pos hsize]
        constructor
        · rintro ⟨⟩
          exact ⟨n, m, ns, rfl, rfl, rfl, rfl⟩
        · rintro ⟨n', m', ns', ⟨⟩, ⟨⟩, rfl, rfl⟩
          rfl
      · simp only [concat?, if_neg h, reduceCtorEq, false_iff, not_exists, not_and]
        rintro n' m' ns' ⟨-, rfl⟩ ⟨-, rfl⟩
        exact absurd rfl h

theorem concat?_map (f : α → β) {t u v : Tensor α} (h : t.concat? u = some v) :
    (t.map f).concat? (u.map f) = some (v.map f) := by
  obtain ⟨n, m, ns, ht, hu, hv, hd⟩ := concat?_eq_some.mp h
  refine concat?_eq_some.mpr ⟨n, m, ns, ht, hu, hv, ?_⟩
  simp only [map, hd, Array.map_append]

section Elements

variable {t u v : Tensor α} {b n w : Nat} (ht : volume t.shape = b * n * w)
  (hd : v.data = t.data ++ u.data)

include ht hd

theorem element?_append_left {i a c : Nat} (hi : i < b) (ha : a < n) (hc : c < w) :
    v.element? n w i a c = t.element? n w i a c := by
  have hlt : (i * n + a) * w + c < t.data.size := by
    rw [t.size_data, ht]
    exact flat_lt (flat_lt hi ha) hc
  rw [element?, hd, Array.getElem?_append_left hlt, element?]

theorem element?_append_right (i a c : Nat) :
    v.element? n w (b + i) a c = u.element? n w i a c := by
  have hsize : t.data.size = b * n * w := t.size_data.trans ht
  have hplace : ((b + i) * n + a) * w + c = b * n * w + ((i * n + a) * w + c) := by ring
  have hle : t.data.size ≤ ((b + i) * n + a) * w + c := by
    rw [hsize, hplace]
    exact Nat.le_add_right _ _
  rw [element?, hd, Array.getElem?_append_right hle, hsize, hplace, Nat.add_sub_cancel_left, element?]

theorem images_append {b' : Nat} (hu : volume u.shape = b' * n * w)
    (hv : volume v.shape = (b + b') * n * w) :
    v.images (b + b') n w hv = t.images b n w ht ++ u.images b' n w hu := by
  refine List.ext_getElem ?_ fun i hi hi' => ?_
  · rw [List.length_append, length_images, length_images, length_images]
  · ext a ha c hc
    -- the two images are compared by what is found at their places in the tensors
    refine Option.some.inj ((element?_images v _ n w hv i hi ⟨a, ha⟩ ⟨c, hc⟩).symm.trans ?_)
    by_cases hb : i < b
    · have hit : i < (t.images b n w ht).length := by rwa [length_images]
      rw [List.getElem_append_left hit, element?_append_left ht hd hb ha hc]
      exact element?_images t b n w ht i hit ⟨a, ha⟩ ⟨c, hc⟩
    · obtain ⟨j, rfl⟩ := Nat.exists_eq_add_of_le (Nat.le_of_not_lt hb)
      have hit : (t.images b n w ht).length ≤ b + j := by
        rw [length_images]
        exact Nat.le_add_right b j
      have hju : j < (u.images b' n w hu).length := by
        rw [length_images] at hi ⊢
        omega
      have hj : b + j - (t.images b n w ht).length = j := by
        rw [length_images, Nat.add_sub_cancel_left]
      simp only [List.getElem_append_right hit, hj]
      rw [element?_append_right ht hd]
      exact element?_images u b' n w hu j hju ⟨a, ha⟩ ⟨c, hc⟩

end Elements

end Tensor

namespace TypedTensor

variable {F : Precision → Type}

def concat? : TypedTensor F → TypedTensor F → Option (TypedTensor F)
  | .float .single t, .float .single u => (t.concat? u).map (.float .single)
  | .float .double t, .float .double u => (t.concat? u).map (.float .double)
  | .int64 t, .int64 u => (t.concat? u).map .int64
  | .int32 t, .int32 u => (t.concat? u).map .int32
  | .bool t, .bool u => (t.concat? u).map .bool
  | _, _ => none

theorem concat?_float {q : Precision} {t : Tensor (F q)} {Y Z : TypedTensor F}
    (h : (TypedTensor.float q t).concat? Y = some Z) :
    ∃ u v, Y = .float q u ∧ Z = .float q v ∧ t.concat? u = some v := by
  cases Y with
  | float q' u =>
    cases q <;> cases q' <;> simp only [concat?, reduceCtorEq] at h
    all_goals
      obtain ⟨v, hv, rfl⟩ := Option.map_eq_some_iff.mp h
      exact ⟨u, v, rfl, rfl, hv⟩
  | int64 u => cases q <;> cases h
  | int32 u => cases q <;> cases h
  | bool u => cases q <;> cases h

theorem concat?_toFloat [Arithmetic F] (q : Precision) {L M N : TypedTensor F}
    (h : L.concat? M = some N) : (L.toFloat q).concat? (M.toFloat q) = some (N.toFloat q) := by
  cases L with
  | float q' t =>
    obtain ⟨u, v, rfl, rfl, hv⟩ := concat?_float h
    exact Tensor.concat?_map convert hv
  | int64 t =>
    cases M with
    | int64 u =>
      obtain ⟨v, hv, rfl⟩ := Option.map_eq_some_iff.mp h
      exact Tensor.concat?_map _ hv
    | _ => cases h
  | int32 t =>
    cases M with
    | int32 u =>
      obtain ⟨v, hv, rfl⟩ := Option.map_eq_some_iff.mp h
      exact Tensor.concat?_map _ hv
    | _ => cases h
  | bool t =>
    cases M with
    | bool u =>
      obtain ⟨v, hv, rfl⟩ := Option.map_eq_some_iff.mp h
      exact Tensor.concat?_map _ hv
    | _ => cases h

end TypedTensor

end AnchorLoss
