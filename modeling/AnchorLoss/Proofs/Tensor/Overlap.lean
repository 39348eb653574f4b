import Mathlib
import AnchorLoss.Proofs.Binary.Rank
import AnchorLoss.Proofs.Config.Admissible
import AnchorLoss.Proofs.Tensor.Corners

namespace AnchorLoss

namespace Tensor

open Scalar

variable {p : Precision} {n m : Nat}

section Rows

theorem areas_table (g : Nat → Nat → Binary p) :
    areas (.float p (table n 2 g)) = .ok (.float p (tabulate [n] fun a => g a 0 * g a 1)) := by
  have hheights := TypedTensor.select_of_rearrange rfl (by decide)
    (TypedTensor.rearrange_float (select?_table (n := n) (by decide : 0 < 2) g))
  have hwidths := TypedTensor.select_of_rearrange rfl (by decide)
    (TypedTensor.rearrange_float (select?_table (n := n) (by decide : 1 < 2) g))
  have hareas := TypedTensor.combine_float .times
    (zipWith?_tabulate_self [n] (fun x y : Binary p => x * y) (fun a => g a 0) fun a => g a 1)
  simp only [areas, bind, Except.bind, hheights, hwidths, hareas]

theorem against_one_table (f : Nat → Nat → Binary p) (w : Nat) :
    against 1 ⟨p, table n w f⟩ = .ok ⟨p, tabulate [n, 1, w] fun i => f (i / w) (i % w)⟩ := by
  rw [against, if_neg (by simp [FloatTensor.shape])]
  exact FloatTensor.rearrange_mk (reshape?_tabulate (by simp) _)

theorem against_zero_table (g : Nat → Nat → Binary p) (w : Nat) :
    against 0 ⟨p, table m w g⟩ = .ok ⟨p, tabulate [1, m, w] fun i => g (i / w) (i % w)⟩ := by
  rw [against, if_neg (by simp [FloatTensor.shape])]
  exact FloatTensor.rearrange_mk (reshape?_tabulate (by simp) _)

theorem zipWith?_across {α β γ : Type} (h : α → β → γ) (f : Nat → Nat → α) (g : Nat → Nat → β) (w : Nat) :
    zipWith? h (tabulate [n, 1, w] fun i => f (i / w) (i % w)) (tabulate [1, m, w] fun i => g (i / w) (i % w)) =
      some (stack n m w fun a b c => h (f a c) (g b c)) := by
  rw [zipWith?_pairs n m [w], Option.some_inj, stack]
  refine tabulate_congr fun i hi => ?_
  have hw : 0 < w := Nat.pos_of_ne_zero fun hw => by simp [hw] at hi
  have hc := Nat.mod_lt i hw
  simp only [volume_cons, volume_nil, Nat.mul_one, flat_div hc, flat_mod hc]

theorem sharedAreas_table (lowA highA lowB highB : Nat → Nat → Binary p) :
    sharedAreas (⟨p, table n 2 lowA⟩, ⟨p, table n 2 highA⟩) (⟨p, table m 2 lowB⟩, ⟨p, table m 2 highB⟩) =
      .ok ⟨p, table n m fun a b => Box.sharedArea ⟨⟨lowA a 0, lowA a 1⟩, ⟨highA a 0, highA a 1⟩⟩
        ⟨⟨lowB b 0, lowB b 1⟩, ⟨highB b 0, highB b 1⟩⟩⟩ := by
  let low (a b c : Nat) : Binary p := maximum (lowA a c) (lowB b c)
  let high (a b c : Nat) : Binary p := minimum (highA a c) (highB b c)
  let extent (a b c : Nat) : Binary p := maximum (high a b c - low a b c) zero
  have hlow : FloatTensor.zipWith (fun _ x y => maximum x y) ⟨p, tabulate [n, 1, 2] fun i => lowA (i / 2) (i % 2)⟩
      ⟨p, tabulate [1, m, 2] fun i => lowB (i / 2) (i % 2)⟩ = .ok ⟨p, stack n m 2 low⟩ :=
    FloatTensor.zipWith_self (zipWith?_across (fun x y : Binary p => maximum x y) lowA lowB 2)
  have hhigh : FloatTensor.zipWith (fun _ x y => minimum x y) ⟨p, tabulate [n, 1, 2] fun i => highA (i / 2) (i % 2)⟩
      ⟨p, tabulate [1, m, 2] fun i => highB (i / 2) (i % 2)⟩ = .ok ⟨p, stack n m 2 high⟩ :=
    FloatTensor.zipWith_self (zipWith?_across (fun x y : Binary p => minimum x y) highA highB 2)
  have hextents : FloatTensor.zipWith (fun _ h l => maximum (h - l) zero) ⟨p, stack n m 2 high⟩
      ⟨p, stack n m 2 low⟩ = .ok ⟨p, stack n m 2 extent⟩ :=
    FloatTensor.zipWith_self (zipWith?_stack n m 2 (fun h l : Binary p => maximum (h - l) zero) high low)
  have hheights := FloatTensor.rearrange_mk (f := select? 2 0)
    (select?_stack (n := n) (m := m) (by decide : 0 < 2) extent)
  have hwidths := FloatTensor.rearrange_mk (f := select? 2 1)
    (select?_stack (n := n) (m := m) (by decide : 1 < 2) extent)
  have hareas := FloatTensor.zipWith_self (f := fun _ h w => h * w)
    (zipWith?_table n m (fun h w : Binary p => h * w) (fun a b => extent a b 0) fun a b => extent a b 1)
  simp only [sharedAreas, bind, Except.bind, against_one_table, against_zero_table, hlow, hhigh, hextents,
    FloatTensor.shape, shape_stack, List.length_cons, List.length_nil, Nat.reduceAdd, Nat.reduceSub, hheights,
    hwidths, hareas]
  rfl

def boxOf (centers sizes : Nat → Nat → Binary p) (a : Nat) : Box (Binary p) :=
  ⟨⟨centers a 0, centers a 1⟩, ⟨sizes a 0, sizes a 1⟩⟩

theorem pairwiseOverlap_table (centersA sizesA centersB sizesB : Nat → Nat → Binary p) :
    pairwiseOverlap (.float p (table n 2 centersA)) (.float p (table n 2 sizesA))
        (.float p (table m 2 centersB)) (.float p (table m 2 sizesB)) =
      .ok ⟨p, table n m fun a b => (boxOf centersA sizesA a).overlap (boxOf centersB sizesB b)⟩ := by
  have hlone : ((TypedTensor.float p (table m 2 centersB) : TypedTensor Binary).shape.length == 1) = false := rfl
  have hcolumn : TypedTensor.insertAxis 1 (.float p (tabulate [n] fun a => sizesA a 0 * sizesA a 1)) =
      .ok (.float p (tabulate [n, 1] fun a => sizesA a 0 * sizesA a 1)) :=
    TypedTensor.rearrange_float (f := insertAxis? 1) (reshape?_tabulate (by simp) _)
  have hrow : TypedTensor.insertAxis 0 (.float p (tabulate [m] fun b => sizesB b 0 * sizesB b 1)) =
      .ok (.float p (tabulate [1, m] fun b => sizesB b 0 * sizesB b 1)) :=
    TypedTensor.rearrange_float (f := insertAxis? 0) (reshape?_tabulate (by simp) _)
  have htotal := TypedTensor.combine_float .plus
    (zipWith?_pairs n m [] (fun x y : Binary p => x + y) (fun a => sizesA a 0 * sizesA a 1)
      fun b => sizesB b 0 * sizesB b 1)
  have hareas : tabulate [n, m] (fun i =>
      sizesA (i / volume [] / m * volume [] + i % volume []) 0 *
        sizesA (i / volume [] / m * volume [] + i % volume []) 1 +
      sizesB (i / volume [] % m * volume [] + i % volume []) 0 *
        sizesB (i / volume [] % m * volume [] + i % volume []) 1) =
      table n m fun a b => (boxOf centersA sizesA a).area + (boxOf centersB sizesB b).area :=
    tabulate_congr fun i _ => by simp [Nat.mod_one, boxOf, Box.area]
  rw [hareas] at htotal
  have htable := zipWith?_table n m (Box.overlapOf (α := Binary p))
    (fun a b => Box.sharedArea (boxOf centersA sizesA a).corners (boxOf centersB sizesB b).corners)
    fun a b => (boxOf centersA sizesA a).area + (boxOf centersB sizesB b).area
  -- the precision of the table occurs in the types of the operands, so it is replaced in all of them at once
  have hz : ∀ {shared total t : Tensor (Binary p)}, zipWith? Box.overlapOf shared total = some t →
      ∀ q, q = p → (orMismatch (zipWith? Box.overlapOf ((TypedTensor.float p shared).toFloat q)
        ((TypedTensor.float p total).toFloat q))).bind (fun t => .ok (⟨q, t⟩ : FloatTensor Binary)) = .ok ⟨p, t⟩ := by
    rintro shared total t h _ rfl
    rw [TypedTensor.toFloat_float, TypedTensor.toFloat_float, h]
    rfl
  simp only [pairwiseOverlap, bind, Except.bind, pure, Except.pure, hlone, Bool.false_eq_true, if_false,
    centerToCorners_table, sharedAreas_table, areas_table, hcolumn, hrow, htotal, TypedTensor.elementType,
    reduceCtorEq]
  exact hz htable _ (congrArg ElementType.fractional (TypedTensor.commonType_float _ _))

def centersOf (bs : Vector (Box (Binary p)) n) : Tensor (Binary p) :=
  ofRows (bs.map fun b => #v[b.center.y, b.center.x])

def sizesOf (bs : Vector (Box (Binary p)) n) : Tensor (Binary p) :=
  ofRows (bs.map fun b => #v[b.size.y, b.size.x])

theorem ofRows_eq_table {α : Type} {w : Nat} {rows : Vector (Vector α w) n} {f : Nat → Nat → α}
    (h : ∀ (a : Fin n) (c : Fin w), (rows.get a).get c = f a c) : ofRows rows = table n w f := by
  refine eq_table rfl fun a ha c hc => ?_
  have he := getElem?_flatten rows ⟨a, ha⟩ ⟨c, hc⟩
  rw [h] at he
  rw [ofRows, List.getElem?_toArray]
  exact he

theorem ofRows_axes {f : Box (Binary p) → Axes (Binary p)} {bs : Vector (Box (Binary p)) n}
    {entry : Nat → Nat → Binary p} (h : ∀ a : Fin n, f (bs.get a) = ⟨entry a 0, entry a 1⟩) :
    ofRows (bs.map fun b => #v[(f b).y, (f b).x]) = table n 2 entry := by
  apply ofRows_eq_table
  intro a c
  rw [Vector.get_map, h]
  match c with
  | ⟨0, _⟩ | ⟨1, _⟩ => rfl

section Tables

variable {bs : Vector (Box (Binary p)) n} {centers sizes : Nat → Nat → Binary p}
  (h : ∀ a : Fin n, bs.get a = boxOf centers sizes a)

include h

theorem centersOf_eq_table : centersOf bs = table n 2 centers :=
  ofRows_axes fun a => congrArg Box.center (h a)

theorem sizesOf_eq_table : sizesOf bs = table n 2 sizes :=
  ofRows_axes fun a => congrArg Box.size (h a)

end Tables

theorem exists_boxOf (bs : Vector (Box (Binary p)) n) :
    ∃ centers sizes : Nat → Nat → Binary p, ∀ a : Fin n, bs.get a = boxOf centers sizes a := by
  let box (a : Nat) : Box (Binary p) := bs.toArray.getD a ⟨⟨zero, zero⟩, ⟨zero, zero⟩⟩
  refine ⟨fun a c => if c = 0 then (box a).center.y else (box a).center.x,
    fun a c => if c = 0 then (box a).size.y else (box a).size.x, fun a => ?_⟩
  have hbox : box a = bs.get a := by simp [box, Vector.get_eq_getElem]
  rw [← hbox]
  rfl

theorem pairwiseOverlap_boxes (as : Vector (Box (Binary p)) n) (bs : Vector (Box (Binary p)) m) :
    pairwiseOverlap (.float p (centersOf as)) (.float p (sizesOf as)) (.float p (centersOf bs))
        (.float p (sizesOf bs)) =
      .ok ⟨p, ofRows (Vector.ofFn fun a => Vector.ofFn fun b => (as.get a).overlap (bs.get b))⟩ := by
  obtain ⟨centersA, sizesA, hA⟩ := exists_boxOf as
  obtain ⟨centersB, sizesB, hB⟩ := exists_boxOf bs
  rw [centersOf_eq_table hA, sizesOf_eq_table hA, centersOf_eq_table hB, sizesOf_eq_table hB, pairwiseOverlap_table,
    ofRows_eq_table (f := fun a b => (boxOf centersA sizesA a).overlap (boxOf centersB sizesB b)) fun a b => ?_]
  rw [Vector.get_ofFn, Vector.get_ofFn, hA, hB]

end Rows

section Entries

variable {α : Type} {t u : Tensor α} {x : α}

theorem mem_reshape? {shape : List Nat} (h : t.reshape? shape = some u) (hx : x ∈ u.data) : x ∈ t.data := by
  rw [← (ofArray?_eq_some h).2]
  exact hx

theorem mem_select? {axis i : Nat} (h : t.select? axis i = some u) (hx : x ∈ u.data) : x ∈ t.data := by
  obtain ⟨line, hline, h⟩ := Option.bind_eq_some_iff.mp h
  exact mem_reindex? hline (mem_reshape? h hx)

theorem eq_ok_of_orMismatch {r : Option α} {a : α} (h : orMismatch r = .ok a) : r = some a := by
  cases r with
  | none => cases h
  | some b => rw [Except.ok.inj h]

end Entries

end Tensor

namespace FloatTensor

open Tensor

/-- Every entry has the property, in the precision of the tensor. -/
def All (P : ∀ {p}, Binary p → Prop) (t : FloatTensor Binary) : Prop := ∀ x ∈ t.tensor.data, P x

variable {P : ∀ {p}, Binary p → Prop} {a b r : FloatTensor Binary}

theorem All.toFloat (h : a.All P) (hconvert : ∀ {p q} {x : Binary p}, P x → P (convert x : Binary q))
    (q : Precision) {x : Binary q} (hx : x ∈ (a.typed.toFloat q).data) : P x := by
  obtain ⟨y, hy, rfl⟩ := Array.mem_map.mp hx
  exact hconvert (h y hy)

theorem all_zipWith {f : ∀ p, Binary p → Binary p → Binary p} (hf : ∀ p x y, P (f p x y))
    (h : zipWith f a b = .ok r) : r.All P := by
  obtain ⟨t, ht, rfl⟩ := Option.map_eq_some_iff.mp (eq_ok_of_orMismatch h)
  intro z hz
  obtain ⟨x, -, y, -, rfl⟩ := mem_zipWith? ht hz
  exact hf _ x y

theorem All.zipWith {f : ∀ p, Binary p → Binary p → Binary p}
    (hf : ∀ {p} {x y : Binary p}, P x → P y → P (f p x y))
    (hconvert : ∀ {p q} {x : Binary p}, P x → P (convert x : Binary q)) (ha : a.All P) (hb : b.All P)
    (h : a.zipWith f b = .ok r) : r.All P := by
  obtain ⟨t, ht, rfl⟩ := Option.map_eq_some_iff.mp (eq_ok_of_orMismatch h)
  intro z hz
  obtain ⟨x, hx, y, hy, rfl⟩ := mem_zipWith? ht hz
  exact hf (ha.toFloat hconvert _ hx) (hb.toFloat hconvert _ hy)

theorem All.select {axis i : Nat} (ha : a.All P) (h : a.rearrange (select? axis i) = .ok r) : r.All P := by
  obtain ⟨t, ht, rfl⟩ := Option.map_eq_some_iff.mp (eq_ok_of_orMismatch h)
  exact fun x hx => ha x (mem_select? ht hx)

end FloatTensor

namespace Tensor

open Binary Scalar

theorem nonnegOrNaN_convert {p q : Precision} {x : Binary p} (h : NonnegOrNaN (value x)) :
    NonnegOrNaN (value (convert x : Binary q)) := by
  obtain h | h := h
  · refine .inl ?_
    cases p <;> cases q
    · exact h
    · change ofSingle x = _ at h
      change ofDouble (toDouble (ofSingle x)) = _
      rw [h]
      exact value_pack_notANumber .double
    · change ofDouble x = _ at h
      change ofSingle (toSingle (ofDouble x)) = _
      rw [h]
      exact value_pack_notANumber .single
    · exact h
  · exact .inr (nonneg_convert h)

theorem nonnegOrNaN_sharedAreas {a b : FloatTensor Binary × FloatTensor Binary} {shared : FloatTensor Binary}
    (h : sharedAreas a b = .ok shared) : shared.All fun x => NonnegOrNaN (value x) := by
  obtain ⟨lowA, -, h⟩ := exists_of_bind_eq_ok h
  obtain ⟨lowB, -, h⟩ := exists_of_bind_eq_ok h
  obtain ⟨low, -, h⟩ := exists_of_bind_eq_ok h
  obtain ⟨highA, -, h⟩ := exists_of_bind_eq_ok h
  obtain ⟨highB, -, h⟩ := exists_of_bind_eq_ok h
  obtain ⟨high, -, h⟩ := exists_of_bind_eq_ok h
  obtain ⟨extents, hextents, h⟩ := exists_of_bind_eq_ok h
  obtain ⟨heights, hheights, h⟩ := exists_of_bind_eq_ok h
  obtain ⟨widths, hwidths, h⟩ := exists_of_bind_eq_ok h
  have hall : extents.All fun x => NonnegOrNaN (value x) :=
    FloatTensor.all_zipWith (fun _ _ _ => nonnegOrNaN_maximum _) hextents
  exact (hall.select hheights).zipWith nonnegOrNaN_mul nonnegOrNaN_convert (hall.select hwidths) h

/-- No entry of a table of overlaps is negative or not a number, whatever the boxes are. -/
theorem nonneg_pairwiseOverlap {centersA sizesA centersB sizesB : TypedTensor Binary} {t : FloatTensor Binary}
    (h : pairwiseOverlap centersA sizesA centersB sizesB = .ok t) : t.All fun x => Nonneg (value x) := by
  obtain ⟨centersB, h⟩ := exists_of_ite_bind_eq_ok h
  obtain ⟨sizesB, h⟩ := exists_of_ite_bind_eq_ok h
  obtain ⟨cornersA, -, h⟩ := exists_of_bind_eq_ok h
  obtain ⟨cornersB, -, h⟩ := exists_of_bind_eq_ok h
  obtain ⟨shared, hshared, h⟩ := exists_of_bind_eq_ok h
  obtain ⟨areasA, -, h⟩ := exists_of_bind_eq_ok h
  obtain ⟨columnA, -, h⟩ := exists_of_bind_eq_ok h
  obtain ⟨areasB, -, h⟩ := exists_of_bind_eq_ok h
  obtain ⟨rowB, -, h⟩ := exists_of_bind_eq_ok h
  obtain ⟨total, -, h⟩ := exists_of_bind_eq_ok h
  dsimp only at h
  split at h
  · cases h
  obtain ⟨table, htable, h⟩ := exists_of_bind_eq_ok h
  have hall : ∀ x ∈ table.data, Nonneg (value x) := by
    intro z hz
    obtain ⟨x, hx, y, -, rfl⟩ := mem_zipWith? (eq_ok_of_orMismatch htable) hz
    exact nonneg_overlapOf ((nonnegOrNaN_sharedAreas hshared).toFloat nonnegOrNaN_convert _ hx) y
  split at h
  · split at h
    · cases h
    obtain ⟨column, hcolumn, h⟩ := exists_of_bind_eq_ok h
    obtain rfl := Except.ok.inj h
    exact fun x hx => hall x (mem_select? (eq_ok_of_orMismatch hcolumn) hx)
  · obtain rfl := Except.ok.inj h
    exact hall

end Tensor

end AnchorLoss
