import Mathlib
import AnchorLoss.Tensor.Basic

namespace AnchorLoss

theorem toList_eq_ofFn {α : Type} {n : Nat} (v : Vector α n) : v.toList = List.ofFn fun i => v.get i := by
  refine List.ext_getElem (by simp) fun i hi hi' => ?_
  simp [Vector.get_eq_getElem]

namespace Tensor

variable {α β : Type}

def element? (t : Tensor α) (n w b a c : Nat) : Option α := t.data[(b * n + a) * w + c]?

theorem element?_map (f : α → β) (t : Tensor α) (n w b a c : Nat) :
    (t.map f).element? n w b a c = (t.element? n w b a c).map f := by
  simp [element?, map]

theorem getElem?_flatMap_block (f : β → List α) (k : Nat) (hf : ∀ x, (f x).length = k)
    (l : List β) (i j : Nat) (hj : j < k) :
    (l.flatMap f)[i * k + j]? = l[i]?.bind fun x => (f x)[j]? := by
  induction l generalizing i with
  | nil => simp
  | cons x l ih =>
    rw [List.flatMap_cons]
    cases i with
    | zero =>
      have hx : 0 * k + j < (f x).length := by simp [hf, hj]
      rw [List.getElem?_append_left hx]
      simp
    | succ i =>
      have hx : (f x).length ≤ (i + 1) * k + j := by rw [hf, Nat.succ_mul]; omega
      have hk : (i + 1) * k + j - (f x).length = i * k + j := by rw [hf, Nat.succ_mul]; omega
      rw [List.getElem?_append_right hx, hk, ih]
      simp

theorem getElem?_flatten {n w : Nat} (rows : Vector (Vector α w) n) (a : Fin n) (c : Fin w) :
    (flatten rows)[a.val * w + c.val]? = some ((rows.get a).get c) := by
  rw [flatten, getElem?_flatMap_block _ w (by simp) _ _ _ c.isLt]
  simp [Vector.get_eq_getElem]

theorem element?_ofImages {n w : Nat} (images : List (Vector (Vector α w) n))
    (b : Nat) (hb : b < images.length) (a : Fin n) (c : Fin w) :
    (ofImages images).element? n w b a c = some ((images[b].get a).get c) := by
  have hac : a.val * w + c.val < n * w := flat_lt a.isLt c.isLt
  have hi : (b * n + a.val) * w + c.val = b * (n * w) + (a.val * w + c.val) := by ring
  simp only [element?, ofImages, List.getElem?_toArray]
  rw [hi, getElem?_flatMap_block _ (n * w) length_flatten _ _ _ hac, List.getElem?_eq_getElem hb]
  exact getElem?_flatten images[b] a c

theorem length_images (t : Tensor α) (b n w : Nat) (h : volume t.shape = b * n * w) :
    (t.images b n w h).length = b := by
  simp [images]

theorem element?_images (t : Tensor α) (b n w : Nat) (h : volume t.shape = b * n * w)
    (i : Nat) (hi : i < (t.images b n w h).length) (a : Fin n) (c : Fin w) :
    t.element? n w i a c = some ((((t.images b n w h)[i]).get a).get c) := by
  have hb : i < b := by simpa [images] using hi
  have hlt : (i * n + a.val) * w + c.val < t.data.size := by
    rw [t.size_data, h]
    exact flat_lt (flat_lt hb a.isLt) c.isLt
  simp only [element?, Array.getElem?_eq_getElem hlt, images, List.getElem_map, Vector.get_ofFn,
    List.getElem_finRange, Fin.val_cast]

theorem reshape?_of_volume (t : Tensor α) (shape : List Nat) (h : volume t.shape = volume shape) :
    t.reshape? shape = some ⟨shape, t.data, t.size_data.trans h⟩ := by
  simp [reshape?, ofArray?, t.size_data.trans h]

theorem map_eq_self {f : α → α} (h : ∀ x, f x = x) (t : Tensor α) : t.map f = t := by
  obtain ⟨shape, data, hd⟩ := t
  have hf : f = id := funext h
  simp [map, hf]

theorem element?_of_data {t u : Tensor α} (h : t.data = u.data) (n w b a c : Nat) :
    t.element? n w b a c = u.element? n w b a c := by
  simp only [element?, h]

theorem images_of_data {t u : Tensor α} (hd : u.data = t.data) {b b' n w : Nat} (hb : b' = b)
    (ht : volume t.shape = b * n * w) (hu : volume u.shape = b' * n * w) :
    u.images b' n w hu = t.images b n w ht := by
  subst hb
  simp only [images, hd]

theorem volume_of_data {t u : Tensor α} (hd : u.data = t.data) : volume u.shape = volume t.shape := by
  rw [← u.size_data, hd, t.size_data]

end Tensor

end AnchorLoss
