import Mathlib
import AnchorLoss.Proofs.Tensor.Overlap

namespace AnchorLoss

namespace Numbers

open Scalar

variable (N : Numbers) {k : Nat}

/-- The rows that come before the first one whose flag is zero. -/
def front (rows : List (LabelRow N.Entry k)) : List (LabelRow N.Entry k) :=
  rows.takeWhile fun row => !N.isZero row.presence

def truth (row : LabelRow N.Entry k) : Truth (Binary N.precision) k where
  box := {
    center := row.corners.low.zipWith (fun a b => N.value (N.plus a b) / ofInt 2) row.corners.high
    size := row.corners.low.zipWith (fun a b => N.value (N.minus b a)) row.corners.high }
  label := N.greatest row.classes

def labelRows {m : Nat} (rows : Vector (Vector N.Entry (5 + (k + 1))) m) : List (LabelRow N.Entry k) :=
  (rows.map LabelRow.ofVector).toList

end Numbers

namespace Tensor

open Scalar

def Labelled.ofTruths {p : Precision} {k : Nat} (truths : List (Truth (Binary p) k)) : Labelled :=
  let found : Vector (Truth (Binary p) k) truths.length := ⟨truths.toArray, rfl⟩
  ⟨truths.length, ⟨p, centersOf (found.map Truth.box)⟩, ⟨p, sizesOf (found.map Truth.box)⟩,
    ofVector (found.map fun truth => truth.label.val)⟩

theorem findIdx?_range {m count : Nat} {p : Nat → Bool} (h : count = (List.range m).findIdx p) :
    (List.range m).findIdx? p = none ∧ count = m ∨ (List.range m).findIdx? p = some count := by
  subst h
  cases h : (List.range m).findIdx? p with
  | none => exact .inl ⟨rfl, (List.findIdx?_eq_none_iff_findIdx_eq.mp h).trans List.length_range⟩
  | some i => exact .inr (congrArg some (List.findIdx?_eq_some_iff_findIdx_eq.mp h).2.symm)

section Table

variable (N : Numbers) {m k : Nat}

theorem groundTruth_table (f : Nat → Nat → N.Entry) {count : Nat}
    (hcount : count = (List.range m).findIdx fun a => N.isZero (f a 0)) :
    groundTruth (N.typed (table m (5 + (k + 1)) f)) = .ok ⟨count,
      ⟨N.precision, table count 2 fun a c => N.value (N.plus (f a (1 + c)) (f a (3 + c))) / ofInt 2⟩,
      ⟨N.precision, table count 2 fun a c => N.value (N.minus (f a (3 + c)) (f a (1 + c)))⟩,
      tabulate [count] fun a => (N.greatest (Vector.ofFn fun j : Fin (k + 1) => f a (5 + j))).val⟩ := by
  have hle : count ≤ m := by
    rw [hcount]
    exact List.findIdx_le_length.trans_eq List.length_range
  have hflags : (N.typed (table m (5 + (k + 1)) f)).select 1 0 = .ok (N.typed (tabulate [m] fun a => f a 0)) := by
    refine TypedTensor.select_of_rearrange (k := 5 + (k + 1)) ?_ (by omega)
      (N.rearrange_typed (select?_table (by omega) f))
    rw [N.shape_typed]
    rfl
  have hpresent : (N.typed (table m (5 + (k + 1)) f)).rearrange (narrow? 0 0 count) =
      .ok (N.typed (table count (5 + (k + 1)) f)) :=
    N.rearrange_typed (narrow?_zero_table hle f)
  have hlow := N.rearrange_typed (f := narrow? 1 1 3)
    (narrow?_table (n := count) (w := 5 + (k + 1)) (by decide : 1 ≤ 3) (by omega) f)
  have hhigh := N.rearrange_typed (f := narrow? 1 3 5)
    (narrow?_table (n := count) (w := 5 + (k + 1)) (by decide : 3 ≤ 5) (by omega) f)
  have hclasses := N.rearrange_typed (f := narrow? 1 5 (5 + (k + 1)))
    (narrow?_table (n := count) (w := 5 + (k + 1)) (by omega : 5 ≤ 5 + (k + 1)) (by omega) f)
  have hcenters := cornersToCenter_table (n := count) N (fun a c => f a (1 + c)) fun a c => f a (3 + c)
  have hgreatest := N.greatestLast_typed rfl (vectors?_table count k fun a c => f a (5 + c))
  have hnone : (⟨[0], #[], rfl⟩ : Tensor Nat) =
      tabulate [0] fun a => (N.greatest (Vector.ofFn fun j : Fin (k + 1) => f a (5 + j))).val :=
    eq_tabulate rfl fun i hi => absurd hi (by simp)
  have hfind {r : Option Nat} (h : (List.range m).findIdx? (fun a => N.isZero (f a 0)) = r) :
      (tabulate [m] fun a => N.isZero (f a 0)).data.toList.findIdx? id = r := by
    rw [data_tabulate, List.findIdx?_map]
    exact h
  -- all rows are read if no flag is zero, and what is done with those that are read is the same in both cases
  obtain ⟨hrange, rfl⟩ | hrange := findIdx?_range hcount
  all_goals
    simp only [groundTruth, bind, Except.bind, pure, Except.pure, hflags, N.zeros_typed, map_tabulate, shape_tabulate,
      List.length_singleton, if_true, N.shape_typed, shape_table, hfind hrange, List.headD_cons, hpresent, hlow, hhigh,
      hcenters, FloatTensor.shape]
    split
    · rename_i h0
      subst h0
      rw [hnone]
    · simp only [List.getD_cons_succ, List.getD_cons_zero, hclasses, Nat.add_sub_cancel_left, hgreatest, map_tabulate]

end Table

section Truths

variable {p : Precision} {k : Nat}

theorem ofTruths_eq {truths : List (Truth (Binary p) k)} {count : Nat} {centers sizes : Nat → Nat → Binary p}
    {labels : Nat → Nat} (hl : truths.length = count)
    (hbox : ∀ a (ha : a < truths.length), truths[a].box = boxOf centers sizes a)
    (hlabel : ∀ a (ha : a < truths.length), truths[a].label.val = labels a) :
    Labelled.ofTruths truths =
      ⟨count, ⟨p, table count 2 centers⟩, ⟨p, table count 2 sizes⟩, tabulate [count] labels⟩ := by
  subst hl
  let found : Vector (Truth (Binary p) k) truths.length := ⟨truths.toArray, rfl⟩
  have hboxes (a : Fin truths.length) : (found.map Truth.box).get a = boxOf centers sizes a := by
    rw [Vector.get_map]
    exact hbox a a.isLt
  have hlabels : ofVector (found.map fun truth => truth.label.val) = tabulate [truths.length] labels := by
    refine eq_tabulate rfl fun a ha => ?_
    have ha' : a < truths.length := by simpa using ha
    rw [← hlabel a ha']
    simp [ofVector, found, ha']
  rw [Labelled.ofTruths, centersOf_eq_table hboxes, sizesOf_eq_table hboxes, hlabels]

end Truths

section Rows

variable (N : Numbers) {m k : Nat}

theorem length_front (rows : List (LabelRow N.Entry k)) :
    (N.front rows).length = rows.findIdx fun row => N.isZero row.presence := by
  have hnot : (fun row : LabelRow N.Entry k => !!N.isZero row.presence) = fun row => N.isZero row.presence :=
    funext fun row => Bool.not_not _
  rw [Numbers.front, List.takeWhile_eq_take_findIdx_not, List.length_take, hnot]
  exact min_eq_left List.findIdx_le_length

theorem getElem_front (rows : Vector (Vector N.Entry (5 + (k + 1))) m) {a : Nat}
    (ha : a < (N.front (N.labelRows rows)).length) :
    ∃ h : a < m, (N.front (N.labelRows rows))[a] = .ofVector (rows.get ⟨a, h⟩) := by
  have hinit : N.front (N.labelRows rows) <+: N.labelRows rows := List.takeWhile_prefix _
  have hlength : (N.labelRows rows).length = m := Vector.length_toList
  have h : a < m := (ha.trans_le hinit.length_le).trans_eq hlength
  refine ⟨h, (hinit.getElem ha).trans ?_⟩
  simp [Numbers.labelRows, Vector.get_eq_getElem]

/-- Label rows are read up to the first one whose flag is zero. -/
theorem groundTruth_rows (rows : Vector (Vector N.Entry (5 + (k + 1))) m) :
    groundTruth (N.typed (ofRows rows)) = .ok (.ofTruths ((N.front (N.labelRows rows)).map N.truth)) := by
  let entry (a c : Nat) : N.Entry := if h : a < m ∧ c < 5 + (k + 1) then (rows.get ⟨a, h.1⟩).get ⟨c, h.2⟩ else N.zero
  have hentry (a : Fin m) (c : Nat) (hc : c < 5 + (k + 1)) : (rows.get a)[c] = entry a c := by
    simp [entry, hc, Vector.get_eq_getElem]
  have hflags : (N.labelRows rows).map (fun row => N.isZero row.presence) =
      (List.range m).map fun a => N.isZero (entry a 0) := by
    refine List.ext_getElem (by simp [Numbers.labelRows]) fun a ha ha' => ?_
    have h : a < m := by simpa using ha'
    rw [List.getElem_map, List.getElem_map, List.getElem_range, ← hentry ⟨a, h⟩ 0 (by omega)]
    simp [Numbers.labelRows, LabelRow.ofVector, Vector.get_eq_getElem]
  have hcount : (N.front (N.labelRows rows)).length = (List.range m).findIdx fun a => N.isZero (entry a 0) := by
    have hmap := congrArg (List.findIdx id) hflags
    rw [List.findIdx_map, List.findIdx_map] at hmap
    rw [length_front]
    exact hmap
  rw [ofRows_eq_table fun a c => hentry a c c.isLt, groundTruth_table N entry hcount,
    ofTruths_eq (List.length_map _) (fun a ha => ?_) fun a ha => ?_]
  · obtain ⟨h, hrow⟩ := getElem_front N rows (by simpa using ha)
    simp only [List.getElem_map, hrow, Numbers.truth, LabelRow.ofVector, hentry]
    rfl
  · obtain ⟨h, hrow⟩ := getElem_front N rows (by simpa using ha)
    simp only [List.getElem_map, hrow, Numbers.truth, LabelRow.ofVector, hentry]

end Rows

section Corners

variable {p : Precision} {n : Nat}

def lowsOf (bs : Vector (Box (Binary p)) n) : Tensor (Binary p) :=
  ofRows (bs.map fun b => #v[b.corners.low.y, b.corners.low.x])

def highsOf (bs : Vector (Box (Binary p)) n) : Tensor (Binary p) :=
  ofRows (bs.map fun b => #v[b.corners.high.y, b.corners.high.x])

theorem centerToCorners_boxes (bs : Vector (Box (Binary p)) n) :
    centerToCorners (.float p (centersOf bs)) (.float p (sizesOf bs)) = .ok (⟨p, lowsOf bs⟩, ⟨p, highsOf bs⟩) := by
  obtain ⟨centers, sizes, h⟩ := exists_boxOf bs
  have hlows : lowsOf bs = table n 2 fun a c => centers a c - half * sizes a c :=
    ofRows_axes fun a => by rw [h]; rfl
  have hhighs : highsOf bs = table n 2 fun a c => centers a c + half * sizes a c :=
    ofRows_axes fun a => by rw [h]; rfl
  rw [centersOf_eq_table h, sizesOf_eq_table h, centerToCorners_table, hlows, hhighs]

end Corners

end Tensor

end AnchorLoss
