import Mathlib
import AnchorLoss.Proofs.Binary.Rank
import AnchorLoss.Proofs.Mining.Rank
import AnchorLoss.Proofs.Tensor.Numbers
import AnchorLoss.Tensor.Select

namespace AnchorLoss

namespace Mining

variable {α : Type} [Scalar α] {n : Nat}

section Ranked

variable [LawfulLe α] {loss loss' : Vector α n}

theorem ranked_congr {is : List (Fin n)} (ha : is.Pairwise (· < ·))
    (h : ∀ i ∈ is, loss.get i = loss'.get i) : ranked loss is = ranked loss' is := by
  have hpairwise : (ranked loss' is).Pairwise (Precedes loss.get) := by
    refine (pairwise_ranked loss' ha).imp_of_mem fun {i j} hi hj hij => ?_
    have hi' := h i ((ranked_perm loss' is).subset hi)
    have hj' := h j ((ranked_perm loss' is).subset hj)
    rwa [Precedes, hi', hj']
  refine List.Perm.eq_of_pairwise (fun i j _ _ hij hji => absurd hji hij.asymm) (pairwise_ranked loss ha)
    hpairwise ?_
  exact (ranked_perm loss is).trans (ranked_perm loss' is).symm

/-- Of all anchors in their order, those of equal losses come in the same order. -/
theorem filter_ranked_congr {keep : Fin n → Bool} (h : ∀ i, keep i = true → loss.get i = loss'.get i) :
    (ranked loss (List.finRange n)).filter keep = (ranked loss' (List.finRange n)).filter keep := by
  have ha := List.pairwise_lt_finRange n
  rw [filter_ranked loss ha, filter_ranked loss' ha]
  exact ranked_congr (ha.filter keep) fun i hi => h i (List.mem_filter.mp hi).2

theorem dropped_congr (limit : Int) {candidate : Vector Bool n}
    (h : ∀ i, candidate.get i = true → loss.get i = loss'.get i) :
    dropped limit loss candidate = dropped limit loss' candidate := by
  rw [dropped_eq, dropped_eq, filter_ranked_congr h]

end Ranked

section Select

variable {k : Nat} {logits logits' : Vector (Vector α (k + 1)) n} {positive : Vector Bool n}
  (h : ∀ i, positive.get i = false → logits.get i = logits'.get i)

include h

theorem candidates_congr (threshold : α) :
    candidates threshold logits positive = candidates threshold logits' positive := by
  refine congrArg Vector.ofFn (funext fun i => ?_)
  cases hi : positive.get i with
  | true => rfl
  | false => rw [h i hi]

theorem select_congr [LawfulLe α] (threshold eps : α) (limit : Int) :
    select threshold eps limit logits positive = select threshold eps limit logits' positive := by
  have hloss : ∀ i, (candidates threshold logits' positive).get i = true →
      (Vector.ofFn fun i => labelLoss eps (logits.get i) (objectLabel (positive.get i))).get i =
        (Vector.ofFn fun i => labelLoss eps (logits'.get i) (objectLabel (positive.get i))).get i := by
    intro i hi
    rw [candidates, Vector.get_ofFn, Bool.and_eq_true, Bool.not_eq_true'] at hi
    rw [Vector.get_ofFn, Vector.get_ofFn, h i hi.1]
  simp only [select, candidates_congr h, dropped_congr limit hloss]

end Select

end Mining

namespace Tensor

variable {p : Precision} {n : Nat}

theorem rows_ofRows {α : Type} {w : Nat} (rows : Vector (Vector α w) n)
    (h : volume (ofRows rows).shape = n * w) : (ofRows rows).rows n w h = rows := by
  refine Vector.ext fun r hr => Vector.ext fun c hc => ?_
  have hget := getElem?_flatten rows ⟨r, hr⟩ ⟨c, hc⟩
  have hlt : r * w + c < (flatten rows).length := by
    rw [length_flatten]
    exact flat_lt hr hc
  rw [List.getElem?_eq_getElem hlt, Option.some_inj] at hget
  simpa [Tensor.rows, ofRows, Vector.get_eq_getElem] using hget

/-- Mining a matrix of logits, row by row. -/
def mineRows (threshold ratio eps : Float) {k : Nat} (rows : Vector (Vector (Binary p) (k + 1)) n)
    (positive : Vector Bool n) : Except SelectError Mined := do
  let limit ← (Mining.limit Binary ratio (countTrue positive)).mapError .limit
  let candidates := countTrue (Mining.candidates (convert (F := Binary) (p := .double) threshold) rows positive)
  if k = 0 && countTrue positive ≠ 0 && limit < candidates then throw (.tensor .mismatch)
  let mined := Mining.select (convert (F := Binary) (p := .double) threshold)
    (convert (F := Binary) (p := .double) eps) limit rows positive
  let used := positive.zipWith (· || ·) mined.negative
  return ⟨(Mining.positions mined.negative).map Fin.val, (Mining.positions used).map Fin.val,
    mined.kept, mined.filtered⟩

theorem mine_ofRows {threshold ratio eps : Float} (hr : Mining.admits ratio = true) {positions : List Int}
    {positive : Vector Bool n}
    (hm : maskAt n positions = .ok positive) {k : Nat} (rows : Vector (Vector (Binary p) (k + 1)) n) :
    mine threshold ratio eps (.float p (ofRows rows)) positions =
      mineRows threshold ratio eps rows positive := by
  have hn : ¬ (!Mining.admits ratio) = true := by rw [hr]; decide
  have hl : length (.float p (ofRows rows)) = .ok n := rfl
  have hvol : volume (TypedTensor.toFloat p (.float p (ofRows rows))).shape = n * (k + 1) := by
    rw [TypedTensor.shape_toFloat]
    simp [TypedTensor.shape, ofRows]
  have hrows : (TypedTensor.toFloat p (.float p (ofRows rows))).rows n (k + 1) hvol = rows := by
    simp only [TypedTensor.toFloat_float, rows_ofRows]
  unfold mine
  rw [if_neg hn, hl]
  change (maskAt n positions).mapError SelectError.tensor >>= _ = _
  rw [hm]
  refine (dif_pos hvol).trans ?_
  exact congrArg (mineRows threshold ratio eps · positive) hrows

theorem mineRows_congr (threshold ratio eps : Float) {k : Nat}
    {rows rows' : Vector (Vector (Binary p) (k + 1)) n} {positive : Vector Bool n}
    (h : ∀ i, positive.get i = false → rows.get i = rows'.get i) :
    mineRows threshold ratio eps rows positive = mineRows threshold ratio eps rows' positive := by
  simp only [mineRows, Mining.candidates_congr h, Mining.select_congr h]

section Mask

theorem maskAt_map_val (is : List (Fin n)) : maskAt n (is.map fun i => (i.val : Int)) =
    .ok (is.foldl (fun mask i => mask.set i.val true i.isLt) (Vector.replicate n false)) := by
  have hneg : ∀ i : Fin n, ¬ (i.val : Int) < 0 := fun i => not_lt.mpr (Int.natCast_nonneg _)
  simp only [maskAt, List.foldlM_map, hneg, if_false, Int.natCast_nonneg, Int.toNat_natCast, Fin.is_lt,
    and_self, dif_pos]
  exact List.foldlM_pure

theorem maskAt_positions (mask : Vector Bool n) :
    maskAt n ((Mining.positions mask).map fun i => (i.val : Int)) = .ok mask := by
  rw [maskAt_map_val]
  refine congrArg Except.ok (Vector.ext fun j hj => ?_)
  have hget := Mining.get_foldl_set (Vector.replicate n false) (Mining.positions mask) ⟨j, hj⟩ true
  simpa [Vector.get_eq_getElem] using hget

end Mask

/-- Whatever the logits of the positives are, they do not enter mining: it reads the positions of the positives
and their number. -/
theorem mine_eq_of_agree (threshold ratio eps : Float) {w : Nat} {rows rows' : Vector (Vector (Binary p) w) n}
    {positive : Vector Bool n} (h : ∀ i, positive.get i = false → rows.get i = rows'.get i) :
    (∃ positions, maskAt n positions = .ok positive) ∧ ∀ positions, maskAt n positions = .ok positive →
      mine threshold ratio eps (.float p (ofRows rows)) positions =
        mine threshold ratio eps (.float p (ofRows rows')) positions := by
  refine ⟨⟨_, maskAt_positions positive⟩, fun positions hm => ?_⟩
  cases w with
  | zero =>
    -- there is one matrix without columns only
    have hrows : rows = rows' := Vector.ext fun r hr => Vector.ext fun c hc => absurd hc (Nat.not_lt_zero c)
    rw [hrows]
  | succ k =>
    by_cases hr : Mining.admits ratio = true
    · rw [mine_ofRows hr hm, mine_ofRows hr hm, mineRows_congr threshold ratio eps h]
    · have hrefused : ∀ t, mine threshold ratio eps t positions = .error .ratio := fun t => by
        rw [mine, if_pos (by simpa using hr)]
        rfl
      rw [hrefused, hrefused]

def threeRows (row : Vector Float 2) : Vector (Vector Float 2) 3 := #v[#v[1, 0], row, #v[-1, 2]]

theorem mine_eq_of_agree_nan : maskAt 3 [-2] = .ok #v[false, true, false] ∧
    mine 0.99 1 1e-20 (.float .double (ofRows (threeRows #v[0 / 0, 1 / 0]))) [-2] =
      mine 0.99 1 1e-20 (.float .double (ofRows (threeRows #v[4, 1]))) [-2] := by
  have hm : maskAt 3 [-2] = .ok #v[false, true, false] := by decide +kernel
  have h : ∀ i, #v[false, true, false].get i = false →
      (threeRows #v[0 / 0, 1 / 0]).get i = (threeRows #v[4, 1]).get i := by
    intro i hi
    fin_cases i
    · rfl
    · cases hi
    · rfl
  exact ⟨hm, (mine_eq_of_agree 0.99 1 1e-20 h).2 _ hm⟩

end Tensor

end AnchorLoss
