import AnchorLoss.Scalar

namespace AnchorLoss

def volume : List Nat → Nat
  | [] => 1
  | n :: ns => n * volume ns

@[simp] theorem volume_nil : volume [] = 1 := rfl

@[simp] theorem volume_cons (n : Nat) (ns : List Nat) : volume (n :: ns) = n * volume ns := rfl

theorem volume_append (ms ns : List Nat) : volume (ms ++ ns) = volume ms * volume ns := by
  induction ms with
  | nil => simp
  | cons m ms ih => simp [ih, Nat.mul_assoc]

structure Tensor (α : Type) where
  shape : List Nat
  data : Array α
  size_data : data.size = volume shape

namespace Tensor

variable {α β γ : Type}

def ofArray? (shape : List Nat) (data : Array α) : Option (Tensor α) :=
  if h : data.size = volume shape then some ⟨shape, data, h⟩ else none

def map (f : α → β) (t : Tensor α) : Tensor β := ⟨t.shape, t.data.map f, by simp [t.size_data]⟩

def ofScalar (x : α) : Tensor α := ⟨[], #[x], rfl⟩

def reshape? (t : Tensor α) (shape : List Nat) : Option (Tensor α) := ofArray? shape t.data

/-- Lines up two shapes, given from the last axis to the first. -/
def broadcastReversed : List Nat → List Nat → Option (List Nat)
  | [], bs => some bs
  | as, [] => some as
  | a :: as, b :: bs =>
    if a = b ∨ b = 1 then (broadcastReversed as bs).map (a :: ·)
    else if a = 1 then (broadcastReversed as bs).map (b :: ·)
    else none

def broadcastShape (a b : List Nat) : Option (List Nat) :=
  (broadcastReversed a.reverse b.reverse).map List.reverse

/-- The place in a tensor of shape `src` that is repeated at place `i` of shape `out`, both shapes
given from the last axis to the first. -/
def sourceIndex : (out src : List Nat) → (i stride : Nat) → Nat
  | d :: ds, s :: ss, i, stride =>
    (if s = 1 then 0 else i % d) * stride + sourceIndex ds ss (i / d) (stride * s)
  | _, _, _, _ => 0

def reindex? (t : Tensor α) (shape : List Nat) (source : Nat → Nat) : Option (Tensor α) := do
  let data ← (List.range (volume shape)).mapM fun i => t.data[source i]?
  ofArray? shape data.toArray

def broadcastTo? (t : Tensor α) (shape : List Nat) : Option (Tensor α) :=
  t.reindex? shape fun i => sourceIndex shape.reverse t.shape.reverse i 1

def zipWith? (f : α → β → γ) (a : Tensor α) (b : Tensor β) : Option (Tensor γ) := do
  let shape ← broadcastShape a.shape b.shape
  let a ← a.broadcastTo? shape
  let b ← b.broadcastTo? shape
  ofArray? shape (a.data.zipWith f b.data)

def insertAxis? (axis : Nat) (t : Tensor α) : Option (Tensor α) :=
  t.reshape? (t.shape.insertIdx axis 1)

def narrow? (axis start stop : Nat) (t : Tensor α) : Option (Tensor α) :=
  let length := t.shape.getD axis 0
  let first := min start length
  let inner := volume (t.shape.drop (axis + 1))
  let block := (min stop length - first) * inner
  t.reindex? (t.shape.set axis (min stop length - first)) fun i =>
    (i / block * length + first) * inner + i % block

def select? (axis i : Nat) (t : Tensor α) : Option (Tensor α) := do
  let line ← t.narrow? axis i (i + 1)
  line.reshape? (t.shape.eraseIdx axis)

def joinLast? (a b : Tensor α) : Option (Tensor α) := do
  let m ← a.shape.getLast?
  let n ← b.shape.getLast?
  if a.shape.dropLast = b.shape.dropLast then
    let shape := a.shape.dropLast ++ [m + n]
    let data ← (List.range (volume shape)).mapM fun i =>
      let row := i / (m + n)
      let column := i % (m + n)
      if column < m then a.data[row * m + column]? else b.data[row * n + (column - m)]?
    ofArray? shape data.toArray
  else none

/-- Adds up what broadcasting from `shape` would have repeated. -/
def sumTo? [Scalar α] (t : Tensor α) (shape : List Nat) : Option (Tensor α) :=
  if broadcastShape shape t.shape = some t.shape then
    let start := Array.replicate (volume shape) Scalar.zero
    let data := (t.data.toList.zipIdx).foldl
      (fun acc (x, i) => acc.modify (sourceIndex t.shape.reverse shape.reverse i 1) (· + x)) start
    ofArray? shape data
  else none

theorem flat_lt {i m j w : Nat} (hi : i < m) (hj : j < w) : i * w + j < m * w := by
  calc i * w + j < i * w + w := by omega
    _ = (i + 1) * w := by rw [Nat.add_mul, Nat.one_mul]
    _ ≤ m * w := Nat.mul_le_mul_right w hi

def images (t : Tensor α) (b n w : Nat) (h : volume t.shape = b * n * w) :
    List (Vector (Vector α w) n) :=
  (List.finRange b).map fun (i : Fin b) => Vector.ofFn fun r => Vector.ofFn fun c =>
    have hlt : (i.val * n + r.val) * w + c.val < t.data.size := by
      rw [t.size_data, h]; exact flat_lt (flat_lt i.isLt r.isLt) c.isLt
    t.data[(i.val * n + r.val) * w + c.val]

def rows (t : Tensor α) (n w : Nat) (h : volume t.shape = n * w) : Vector (Vector α w) n :=
  Vector.ofFn fun r => Vector.ofFn fun c =>
    have hlt : r.val * w + c.val < t.data.size := by
      rw [t.size_data, h]; exact flat_lt r.isLt c.isLt
    t.data[r.val * w + c.val]

def vectors? (k : Nat) (t : Tensor α) : Option (Tensor (Vector α k)) :=
  if h : t.data.size = volume t.shape.dropLast * k then
    some ⟨t.shape.dropLast, Array.ofFn fun i : Fin (volume t.shape.dropLast) => Vector.ofFn fun j =>
      have hlt : i.val * k + j.val < t.data.size := by rw [h]; exact flat_lt i.isLt j.isLt
      t.data[i.val * k + j.val], by simp⟩
  else none

def flatten {n w : Nat} (rows : Vector (Vector α w) n) : List α :=
  rows.toList.flatMap Vector.toList

theorem length_flatten {n w : Nat} (rows : Vector (Vector α w) n) :
    (flatten rows).length = n * w := by
  simp only [flatten, List.length_flatMap, Vector.length_toList, List.map_const']
  simp

def ofVectors {k : Nat} (t : Tensor (Vector α k)) : Tensor α where
  shape := t.shape ++ [k]
  data := (t.data.toList.flatMap Vector.toList).toArray
  size_data := by
    rw [volume_append, ← t.size_data]
    simp [List.length_flatMap, List.map_const']

def ofImages {n w : Nat} (images : List (Vector (Vector α w) n)) : Tensor α where
  shape := [images.length, n, w]
  data := (images.flatMap flatten).toArray
  size_data := by
    simp only [List.size_toArray, List.length_flatMap, length_flatten, List.map_const']
    simp

def ofChannelImages {n w : Nat} (images : List (Vector (Vector α w) n)) : Tensor α where
  shape := [images.length, 1, n, w]
  data := (ofImages images).data
  size_data := by
    rw [(ofImages images).size_data]
    simp [ofImages]

def ofRows {n w : Nat} (rows : Vector (Vector α w) n) : Tensor α where
  shape := [n, w]
  data := (flatten rows).toArray
  size_data := by simp [length_flatten]

def ofVector {n : Nat} (v : Vector α n) : Tensor α := ⟨[n], v.toArray, by simp⟩

end Tensor

end AnchorLoss
