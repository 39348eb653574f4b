import Mathlib
import AnchorLoss.Proofs.Binary.Rank
import AnchorLoss.Proofs.Binary.Tiny
import AnchorLoss.Proofs.Tensor.Element
import AnchorLoss.Tensor.Box

namespace AnchorLoss

namespace TypedTensor

open Tensor

variable {p : Precision}

@[simp] theorem toFloat_float (t : Tensor (Binary p)) : (float p t : TypedTensor Binary).toFloat p = t :=
  map_eq_self LawfulConvert.convert_self t

theorem commonType_self {a b : TypedTensor Binary} (h : b.elementType = a.elementType) :
    commonType a b = a.elementType := by
  have hjoin : a.elementType.join a.elementType = a.elementType := ite_self _
  have hdominate : a.elementType.dominate a.elementType = a.elementType := by
    unfold ElementType.dominate
    split
    · rfl
    · split
      · exact hjoin
      · rfl
  unfold commonType
  rw [h]
  split
  · exact hdominate
  · exact hdominate
  · exact hjoin

@[simp] theorem commonType_float (s t : Tensor (Binary p)) :
    commonType (.float p s) (.float p t) = .float p :=
  commonType_self rfl

@[simp] theorem toFractional_float (t : Tensor (Binary p)) : (float p t).toFractional = ⟨p, t⟩ :=
  congrArg (FloatTensor.mk p) (toFloat_float t)

theorem rearrange_float {f : ∀ {α : Type}, Tensor α → Option (Tensor α)} {t u : Tensor (Binary p)}
    (h : f t = some u) : (float p t).rearrange f = .ok (.float p u) := by
  rw [rearrange, h]
  rfl

theorem select_of_rearrange {axis i k : Nat} {t u : TypedTensor Binary} (hk : t.shape[axis]? = some k) (hi : i < k)
    (h : t.rearrange (select? axis i) = .ok u) : t.select axis i = .ok u := by
  simp only [select, hk, if_pos hi, h]

theorem combine_float (op : Operation) {s t u : Tensor (Binary p)}
    (h : zipWith? (op.onFloats p) s t = some u) :
    combine op (.float p s) (.float p t) = .ok (.float p u) := by
  simp only [combine, commonType_float, toFloat_float, h]
  rfl

end TypedTensor

inductive IntegerType where
  | int64
  | int32

namespace IntegerType

open Tensor TypedTensor

def wrap : IntegerType → Int → Int
  | int64 => wrap64
  | int32 => wrap32

def typed : IntegerType → Tensor Int → TypedTensor Binary
  | int64 => .int64
  | int32 => .int32

variable (type : IntegerType)

@[simp] theorem shape_typed (t : Tensor Int) : (type.typed t).shape = t.shape := by
  cases type <;> rfl

@[simp] theorem toInts_typed (t : Tensor Int) : (type.typed t).toInts = t := by
  cases type <;> rfl

theorem rearrange_typed {f : ∀ {α : Type}, Tensor α → Option (Tensor α)} {t u : Tensor Int}
    (h : f t = some u) : (type.typed t).rearrange f = .ok (type.typed u) := by
  have hrearrange : (type.typed t).rearrange f = orMismatch ((f t).map type.typed) := by
    cases type <;> rfl
  rw [hrearrange, h]
  rfl

theorem combine_typed (op : Operation) {s t u : Tensor Int}
    (h : zipWith? (fun x y => type.wrap (op.onInts x y)) s t = some u) :
    combine op (type.typed s) (type.typed t) = .ok (type.typed u) := by
  have hcombine : combine op (type.typed s) (type.typed t) =
      orMismatch ((zipWith? (fun x y => type.wrap (op.onInts x y)) s t).map type.typed) := by
    rw [combine, commonType_self (by cases type <;> rfl)]
    cases type <;> rfl
  rw [hcombine, h]
  rfl

theorem joinLast_typed {s t u : Tensor Int} {n v w : Nat} (hs : s.shape = [n, v]) (ht : t.shape = [n, w])
    (h : joinLast? s t = some u) : (type.typed s).joinLast (type.typed t) = .ok (type.typed u) := by
  have hjoin : (type.typed s).joinLast (type.typed t) =
      orMismatch ((joinLast? s t).map type.typed) := by
    simp only [joinLast, shape_typed, toInts_typed, hs, ht, reduceCtorEq, List.cons.injEq, and_false,
      or_false, if_false]
    cases type <;> rfl
  rw [hjoin, h]
  rfl

end IntegerType

def IsFirstGreatest {α : Type} {n : Nat} (le : α → α → Bool) (v : Fin n → α) (i : Fin n) : Prop :=
  (¬ le (v i) (v i) ∧ ∀ j < i, le (v j) (v j)) ∨ (∀ j, le (v j) (v i)) ∧ ∀ j < i, ¬ le (v i) (v j)

theorem isFirstGreatest_of_isArgmax {α : Type} [Scalar α] {n : Nat} {v : Fin n → α} {i : Fin n}
    (h : Scalar.IsArgmax v i) : IsFirstGreatest Scalar.le v i := by
  obtain ⟨hi, hj⟩ | ⟨hle, hlt⟩ := h
  · exact .inl ⟨by simpa [Scalar.isNaN] using hi, fun j hji => Scalar.le_self (hj j hji)⟩
  · exact .inr ⟨hle, fun j hji => (Scalar.lt_iff.mp (hlt j hji)).2⟩

namespace Tensor

def greatestOf (ns : List Int) : Option (Int × Nat) :=
  ns.zipIdx.foldl (fun best (n, i) => match best with
    | some (m, j) => if m < n then some (n, i) else some (m, j)
    | none => some (n, i)) none

theorem greatest_eq (ns : List Int) : greatest ns = (greatestOf ns).elim 0 Prod.snd := rfl

theorem greatestOf_concat (ns : List Int) (n : Int) : greatestOf (ns ++ [n]) = match greatestOf ns with
    | some (m, j) => if m < n then some (n, ns.length) else some (m, j)
    | none => some (n, ns.length) := by
  simp [greatestOf, List.zipIdx_append]

theorem greatestOf_spec {ns : List Int} (h : ns ≠ []) : ∃ m j, greatestOf ns = some (m, j) ∧ ns[j]? = some m ∧
    (∀ x ∈ ns, x ≤ m) ∧ ∀ x ∈ ns.take j, x < m := by
  induction ns using List.reverseRecOn with
  | nil => exact absurd rfl h
  | append_singleton ns n ih =>
    rw [greatestOf_concat]
    obtain rfl | hns := eq_or_ne ns []
    · exact ⟨n, 0, rfl, rfl, by simp, by simp⟩
    · obtain ⟨m, j, hm, hj, hle, hlt⟩ := ih hns
      obtain ⟨hjl, -⟩ := List.getElem?_eq_some_iff.mp hj
      rw [hm]
      by_cases hmn : m < n
      · refine ⟨n, ns.length, if_pos hmn, by simp, fun x hx => ?_, fun x hx => ?_⟩
        · obtain hx | hx := List.mem_append.mp hx
          · exact (hle x hx).trans hmn.le
          · exact (List.mem_singleton.mp hx).le
        · rw [List.take_left] at hx
          exact (hle x hx).trans_lt hmn
      · refine ⟨m, j, if_neg hmn, (List.getElem?_append_left hjl).trans hj, fun x hx => ?_, fun x hx => ?_⟩
        · obtain hx | hx := List.mem_append.mp hx
          · exact hle x hx
          · exact (List.mem_singleton.mp hx).trans_le (not_lt.mp hmn)
        · rw [List.take_append_of_le_length hjl.le] at hx
          exact hlt x hx

theorem greatest_lt {k : Nat} (v : Vector Int (k + 1)) : greatest v.toList < k + 1 := by
  have hv : v.toList ≠ [] := by simp
  obtain ⟨m, j, hm, hj, -⟩ := greatestOf_spec hv
  obtain ⟨hjl, -⟩ := List.getElem?_eq_some_iff.mp hj
  rw [greatest_eq, hm]
  simpa using hjl

theorem isFirstGreatest_greatest {k : Nat} (v : Vector Int (k + 1)) :
    IsFirstGreatest (fun x y => decide (x ≤ y)) v.get ⟨greatest v.toList, greatest_lt v⟩ := by
  have hv : v.toList ≠ [] := by simp
  obtain ⟨m, j, hm, hj, hle, hlt⟩ := greatestOf_spec hv
  have hgreatest : greatest v.toList = j := by rw [greatest_eq, hm]; rfl
  have hget : v.get ⟨greatest v.toList, greatest_lt v⟩ = m := by
    obtain ⟨hjl, hj⟩ := List.getElem?_eq_some_iff.mp hj
    simp only [hgreatest, Vector.get_eq_getElem]
    exact hj
  rw [IsFirstGreatest, hget]
  refine .inr ⟨fun i => ?_, fun i hi => ?_⟩
  · have hmem : v.get i ∈ v.toList := by simp [Vector.get_eq_getElem]
    simpa using hle _ hmem
  · have hij : i.val < j := hgreatest ▸ hi
    have hmem : v.get i ∈ v.toList.take j := by
      refine List.mem_take_iff_getElem.mpr ⟨i, ?_, by simp [Vector.get_eq_getElem]⟩
      rw [Vector.length_toList]
      exact lt_min hij i.isLt
    simpa using hlt _ hmem

end Tensor
/-- Numbers of one type: how their tensors are sliced, joined and combined, and which of them come first among the
greatest of a column. -/
structure Numbers where
  Entry : Type
  precision : Precision
  typed : Tensor Entry → TypedTensor Binary
  plus : Entry → Entry → Entry
  minus : Entry → Entry → Entry
  value : Entry → Binary precision
  zero : Entry
  isZero : Entry → Bool
  le : Entry → Entry → Bool
  greatest : ∀ {k : Nat}, Vector Entry (k + 1) → Fin (k + 1)
  shape_typed : ∀ t, (typed t).shape = t.shape
  rearrange_typed : ∀ {f : ∀ {α : Type}, Tensor α → Option (Tensor α)} {t u : Tensor Entry},
    f t = some u → (typed t).rearrange f = .ok (typed u)
  joinLast_typed : ∀ {s t u : Tensor Entry} {n v w : Nat}, s.shape = [n, v] → t.shape = [n, w] →
    Tensor.joinLast? s t = some u → (typed s).joinLast (typed t) = .ok (typed u)
  combine_typed : ∀ {s t u : Tensor Entry}, Tensor.zipWith? plus s t = some u →
    TypedTensor.combine .plus (typed s) (typed t) = .ok (typed u)
  difference_typed : ∀ {s t u : Tensor Entry}, Tensor.zipWith? minus s t = some u →
    (typed s).difference (typed t) = .ok (typed u)
  toFractional_typed : ∀ t, (typed t).toFractional = ⟨precision, t.map value⟩
  zeros_typed : ∀ t, Tensor.zeros (typed t) = t.map isZero
  greatestLast_typed : ∀ {t : Tensor Entry} {k : Nat} {u : Tensor (Vector Entry (k + 1))},
    t.shape.getLast? = some (k + 1) → t.vectors? (k + 1) = some u →
      Tensor.greatestLast (typed t) = .ok (u.map fun v => (greatest v).val)
  isFirstGreatest_greatest : ∀ {k : Nat} (v : Vector Entry (k + 1)), IsFirstGreatest le v.get (greatest v)

namespace Numbers

open Tensor Scalar

def float (p : Precision) : Numbers where
  Entry := Binary p
  precision := p
  typed := .float p
  plus x y := x + y
  minus x y := x - y
  value x := x
  zero := Scalar.zero
  isZero x := eq x Scalar.zero
  le x y := Scalar.le x y
  greatest := argmax
  shape_typed _ := rfl
  rearrange_typed h := TypedTensor.rearrange_float h
  joinLast_typed hs ht h := by
    simp [TypedTensor.joinLast, TypedTensor.shape, hs, ht, TypedTensor.elementType, ElementType.join, h, orMismatch]
  combine_typed h := TypedTensor.combine_float .plus h
  difference_typed h := TypedTensor.combine_float .minus h
  toFractional_typed t := by rw [TypedTensor.toFractional_float, map_eq_self (fun _ => rfl)]
  zeros_typed _ := rfl
  greatestLast_typed hk h := by
    simp [greatestLast, TypedTensor.shape, hk, h, orMismatch]
  isFirstGreatest_greatest {k} v := by
    have hle : ∀ p, LawfulLe (Binary p) := inferInstance
    have := hle p
    exact isFirstGreatest_of_isArgmax (isArgmax_iff_leads.mpr (leads_argmax v))

def int (type : IntegerType) : Numbers where
  Entry := Int
  precision := .single
  typed := type.typed
  plus x y := type.wrap (x + y)
  minus x y := type.wrap (x - y)
  value := ofInt
  zero := 0
  isZero x := x == 0
  le x y := decide (x ≤ y)
  greatest v := ⟨Tensor.greatest v.toList, greatest_lt v⟩
  shape_typed := type.shape_typed
  rearrange_typed h := type.rearrange_typed h
  joinLast_typed hs ht h := type.joinLast_typed hs ht h
  combine_typed h := type.combine_typed .plus h
  difference_typed {s t u} h := by
    have hdifference : (type.typed s).difference (type.typed t) =
        TypedTensor.combine .minus (type.typed s) (type.typed t) := by
      cases type <;> rfl
    exact hdifference.trans (type.combine_typed .minus h)
  toFractional_typed t := by cases type <;> rfl
  zeros_typed t := by cases type <;> rfl
  greatestLast_typed {t k u} hk h := by
    have hgreatest : greatestLast (type.typed t) =
        orMismatch ((t.vectors? (k + 1)).map (Tensor.map fun v => Tensor.greatest v.toList)) := by
      rw [greatestLast, type.shape_typed, hk]
      cases type <;> rfl
    rw [hgreatest, h]
    rfl
  isFirstGreatest_greatest := Tensor.isFirstGreatest_greatest

end Numbers

end AnchorLoss
