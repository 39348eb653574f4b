import Mathlib
import AnchorLoss.Proofs.Tensor.Align
import AnchorLoss.Proofs.Tensor.Element

namespace AnchorLoss

namespace Tensor

variable {α β γ : Type}

/-- The tensor that has the entry `f i` at place `i`. -/
def tabulate (shape : List Nat) (f : Nat → α) : Tensor α :=
  ⟨shape, Array.ofFn fun i : Fin (volume shape) => f i, by simp⟩

@[simp] theorem shape_tabulate (shape : List Nat) (f : Nat → α) : (tabulate shape f).shape = shape := rfl

theorem getElem?_tabulate {shape : List Nat} {i : Nat} (hi : i < volume shape) (f : Nat → α) :
    (tabulate shape f).data[i]? = some (f i) := by
  simp [tabulate, hi]

theorem eq_tabulate {t : Tensor α} {shape : List Nat} {f : Nat → α} (hs : t.shape = shape)
    (h : ∀ i < volume shape, t.data[i]? = some (f i)) : t = tabulate shape f := by
  subst hs
  exact eq_of_getElem? rfl fun i hi => by rw [h i hi, getElem?_tabulate hi]

theorem tabulate_congr {shape : List Nat} {f g : Nat → α} (h : ∀ i < volume shape, f i = g i) :
    tabulate shape f = tabulate shape g :=
  eq_tabulate rfl fun i hi => by rw [getElem?_tabulate hi, h i hi]

theorem data_tabulate {α : Type} (n : Nat) (f : Nat → α) :
    (tabulate [n] f).data.toList = (List.range n).map f := by
  refine List.ext_getElem? fun i => ?_
  by_cases hi : i < n
  · have hv : i < volume [n] := by simpa using hi
    rw [Array.getElem?_toList, getElem?_tabulate hv, List.getElem?_map, List.getElem?_range hi]
    rfl
  · have hl : (tabulate [n] f).data.toList.length ≤ i := by
      rw [Array.length_toList, size_data, shape_tabulate]
      simpa using hi
    rw [List.getElem?_eq_none hl, List.getElem?_eq_none (by simpa using hi)]

@[simp] theorem map_tabulate (g : α → β) (shape : List Nat) (f : Nat → α) :
    (tabulate shape f).map g = tabulate shape fun i => g (f i) :=
  eq_tabulate rfl fun i hi => by simp [map, getElem?_tabulate hi]

theorem reshape?_tabulate {shape shape' : List Nat} (h : volume shape = volume shape') (f : Nat → α) :
    (tabulate shape f).reshape? shape' = some (tabulate shape' f) := by
  rw [reshape?_of_volume _ _ h, Option.some_inj]
  exact eq_tabulate rfl fun i hi => getElem?_tabulate (h ▸ hi) f

theorem reindex?_tabulate {shape shape' : List Nat} {source : Nat → Nat}
    (h : ∀ i < volume shape', source i < volume shape) (f : Nat → α) :
    (tabulate shape f).reindex? shape' source = some (tabulate shape' fun i => f (source i)) := by
  obtain ⟨u, hu⟩ := reindex?_isSome (tabulate shape f) shape' source fun i hi => by
    rw [(tabulate shape f).size_data]
    exact h i hi
  obtain ⟨hs, he⟩ := reindex?_eq_some hu
  rw [hu, Option.some_inj]
  exact eq_tabulate hs fun i hi => by rw [he i hi, getElem?_tabulate (h i hi)]

theorem zipWith?_tabulate {s s' out : List Nat} (h : broadcastShape s s' = some out) (g : α → β → γ)
    (f : Nat → α) (f' : Nat → β) : zipWith? g (tabulate s f) (tabulate s' f') =
      some (tabulate out fun i => g (f (sourceIndex out.reverse s.reverse i 1))
        (f' (sourceIndex out.reverse s'.reverse i 1))) := by
  obtain ⟨r, hr, hs⟩ := zipWith?_of_broadcastShape g (a := tabulate s f) (b := tabulate s' f') h
  obtain ⟨cs, u, v, -, hcs, hu, hv, hd⟩ := zipWith?_eq_some hr
  rw [← hcs, hs] at hu hv
  rw [hr, Option.some_inj]
  refine eq_tabulate hs fun i hi => ?_
  have hle {s₀ s₁ : List Nat} (h₀ : broadcastShape s₀ s₁ = some out) :
      sourceIndex out.reverse s₀.reverse i 1 < volume s₀ := by
    obtain ⟨cs, hcs, rfl⟩ := Option.map_eq_some_iff.mp h₀
    rw [volume_reverse] at hi
    have := sourceIndex_add_le hcs hi 1
    rw [volume_reverse] at this
    rw [List.reverse_reverse]
    omega
  rw [hd, Array.getElem?_zipWith, (reindex?_eq_some hu).2 i hi, (reindex?_eq_some hv).2 i hi,
    shape_tabulate, shape_tabulate, getElem?_tabulate (hle h),
    getElem?_tabulate (hle (broadcastShape_comm s s' ▸ h))]

theorem broadcastReversed_append_self (ns as bs : List Nat) :
    broadcastReversed (ns ++ as) (ns ++ bs) = (broadcastReversed as bs).map (ns ++ ·) := by
  induction ns with
  | nil => simp
  | cons n ns ih => simp [broadcastReversed, ih, Function.comp_def]

theorem broadcastShape_self (s : List Nat) : broadcastShape s s = some s := by
  have h := broadcastReversed_append_self s.reverse [] []
  rw [List.append_nil] at h
  rw [broadcastShape, h]
  simp [broadcastReversed]

theorem sourceIndex_append (ns ds ss : List Nat) (i stride : Nat) :
    sourceIndex (ns ++ ds) (ns ++ ss) i stride =
      i % volume ns * stride + sourceIndex ds ss (i / volume ns) (stride * volume ns) := by
  induction ns generalizing i stride with
  | nil => simp [Nat.mod_one]
  | cons n ns ih =>
    have hn : (if n = 1 then 0 else i % n) = i % n := by
      by_cases h : n = 1 <;> simp [h, Nat.mod_one]
    rw [List.cons_append, List.cons_append, sourceIndex, ih, hn, volume_cons, Nat.mod_mul,
      Nat.div_div_eq_div_mul]
    ring_nf

theorem zipWith?_tabulate_self (s : List Nat) (g : α → β → γ) (f : Nat → α) (f' : Nat → β) :
    zipWith? g (tabulate s f) (tabulate s f') = some (tabulate s fun i => g (f i) (f' i)) := by
  rw [zipWith?_tabulate (broadcastShape_self s), Option.some_inj]
  refine tabulate_congr fun i hi => ?_
  have hsrc := sourceIndex_append s.reverse [] [] i 1
  rw [List.append_nil, volume_reverse, Nat.mod_eq_of_lt hi, Nat.mul_one] at hsrc
  rw [hsrc]
  rfl

section Table

/-- The table with the entry `f a c` in row `a` and column `c`. -/
def table (n w : Nat) (f : Nat → Nat → α) : Tensor α := tabulate [n, w] fun i => f (i / w) (i % w)

@[simp] theorem shape_table (n w : Nat) (f : Nat → Nat → α) : (table n w f).shape = [n, w] := rfl

theorem volume_pair (n w : Nat) : volume [n, w] = n * w := by
  simp

theorem lt_of_lt_volume {n w i : Nat} (hi : i < volume [n, w]) : i / w < n ∧ i % w < w := by
  rw [volume_pair] at hi
  have hw : 0 < w := Nat.pos_of_ne_zero fun h => by simp [h] at hi
  exact ⟨Nat.div_lt_of_lt_mul (Nat.mul_comm n w ▸ hi), Nat.mod_lt _ hw⟩

theorem table_congr {n w : Nat} {f g : Nat → Nat → α} (h : ∀ a < n, ∀ c < w, f a c = g a c) :
    table n w f = table n w g :=
  tabulate_congr fun _ hi => h _ (lt_of_lt_volume hi).1 _ (lt_of_lt_volume hi).2

theorem flat_div {a w c : Nat} (hc : c < w) : (a * w + c) / w = a := by
  rw [Nat.add_comm, Nat.add_mul_div_right _ _ (by omega), Nat.div_eq_of_lt hc, Nat.zero_add]

theorem flat_mod {a w c : Nat} (hc : c < w) : (a * w + c) % w = c := by
  rw [Nat.add_comm, Nat.add_mul_mod_self_right, Nat.mod_eq_of_lt hc]

theorem flat_lt_flat {a b c d w : Nat} (hc : c < w) (h : a < b ∨ a = b ∧ c < d) :
    a * w + c < b * w + d := by
  obtain hrow | ⟨rfl, hcol⟩ := h
  · calc a * w + c < b * w := flat_lt hrow hc
      _ ≤ b * w + d := Nat.le_add_right _ _
  · exact Nat.add_lt_add_left hcol _

theorem eq_table {t : Tensor α} {n w : Nat} {f : Nat → Nat → α} (hs : t.shape = [n, w])
    (h : ∀ a < n, ∀ c < w, t.data[a * w + c]? = some (f a c)) : t = table n w f := by
  refine eq_tabulate hs fun i hi => ?_
  obtain ⟨ha, hc⟩ := lt_of_lt_volume hi
  rw [← h _ ha _ hc, Nat.mul_comm, Nat.div_add_mod]

theorem getElem?_table {n w a c : Nat} (ha : a < n) (hc : c < w) (f : Nat → Nat → α) :
    (table n w f).data[a * w + c]? = some (f a c) := by
  have hi : a * w + c < volume [n, w] := by
    rw [volume_pair]
    exact flat_lt ha hc
  rw [table, getElem?_tabulate hi, flat_div hc, flat_mod hc]

@[simp] theorem map_table (g : α → β) (n w : Nat) (f : Nat → Nat → α) :
    (table n w f).map g = table n w fun a c => g (f a c) :=
  map_tabulate _ _ _

@[simp] theorem zipWith?_table (n w : Nat) (g : α → β → γ) (f : Nat → Nat → α) (f' : Nat → Nat → β) :
    zipWith? g (table n w f) (table n w f') = some (table n w fun a c => g (f a c) (f' a c)) :=
  zipWith?_tabulate_self _ _ _ _

theorem narrow?_table {n w i j : Nat} (hij : i ≤ j) (hj : j ≤ w) (f : Nat → Nat → α) :
    (table n w f).narrow? 1 i j = some (table n (j - i) fun a c => f a (i + c)) := by
  have hmin : min i w = i := by omega
  have hwidth : min j w - i = j - i := by omega
  simp only [table, narrow?, shape_tabulate, List.getD_cons_succ, List.getD_cons_zero, List.drop_succ_cons,
    List.drop_nil, volume_nil, List.set_cons_succ, List.set_cons_zero, hmin, hwidth, Nat.mul_one, Nat.reduceAdd]
  have hlt (k : Nat) (hk : k < volume [n, j - i]) : i + k % (j - i) < w := by
    have := (lt_of_lt_volume hk).2
    omega
  have hsource (k : Nat) : k / (j - i) * w + i + k % (j - i) = k / (j - i) * w + (i + k % (j - i)) :=
    Nat.add_assoc _ _ _
  rw [reindex?_tabulate fun k hk => ?_, Option.some_inj]
  · refine tabulate_congr fun k hk => ?_
    rw [hsource, flat_div (hlt k hk), flat_mod (hlt k hk)]
  · rw [hsource, volume_pair]
    exact flat_lt (lt_of_lt_volume hk).1 (hlt k hk)

theorem narrow?_zero_table {n w j : Nat} (hj : j ≤ n) (f : Nat → Nat → α) :
    (table n w f).narrow? 0 0 j = some (table j w f) := by
  have hmin : min j n = j := by omega
  simp only [table, narrow?, shape_tabulate, List.getD_cons_zero, Nat.zero_add, List.drop_succ_cons,
    List.drop_zero, volume_cons, volume_nil, List.set_cons_zero, Nat.zero_min, Nat.sub_zero, Nat.add_zero, hmin,
    Nat.mul_one]
  have hsource (k : Nat) (hk : k < volume [j, w]) : k / (j * w) * n * w + k % (j * w) = k := by
    rw [volume_pair] at hk
    rw [Nat.div_eq_of_lt hk, Nat.mod_eq_of_lt hk, Nat.zero_mul, Nat.zero_mul, Nat.zero_add]
  rw [reindex?_tabulate fun k hk => ?_, Option.some_inj]
  · exact tabulate_congr fun k hk => by rw [hsource k hk]
  · rw [hsource k hk, volume_pair]
    rw [volume_pair] at hk
    exact Nat.lt_of_lt_of_le hk (Nat.mul_le_mul_right w hj)

theorem select?_table {n w c : Nat} (hc : c < w) (f : Nat → Nat → α) :
    (table n w f).select? 1 c = some (tabulate [n] fun a => f a c) := by
  have hv : volume [n, c + 1 - c] = volume [n] := by
    rw [Nat.add_sub_cancel_left]
    simp
  have hshape : (table n w f).shape.eraseIdx 1 = [n] := rfl
  rw [select?, narrow?_table (Nat.le_add_right c 1) hc, Option.bind_eq_bind, Option.bind_some, hshape, table,
    reshape?_tabulate hv, Option.some_inj]
  refine tabulate_congr fun a _ => ?_
  rw [Nat.add_sub_cancel_left, Nat.div_one, Nat.mod_one, Nat.add_zero]

theorem vectors?_table {α : Type} (n k : Nat) (f : Nat → Nat → α) :
    (table n (k + 1) f).vectors? (k + 1) =
      some (tabulate [n] fun a => Vector.ofFn fun j : Fin (k + 1) => f a j) := by
  have hsize : (table n (k + 1) f).data.size = volume [n] * (k + 1) := by
    rw [size_data, shape_table, volume_pair]
    simp
  have hshape : (table n (k + 1) f).shape.dropLast = [n] := rfl
  rw [vectors?, dif_pos (by rw [hshape, hsize]), Option.some_inj]
  refine eq_tabulate rfl fun a ha => ?_
  have ha' : a < n := by simpa using ha
  have hentry (j : Fin (k + 1)) (h : a * (k + 1) + j.val < (table n (k + 1) f).data.size) :
      (table n (k + 1) f).data[a * (k + 1) + j.val] = f a j := by
    have he := getElem?_table ha' j.isLt f
    rw [Array.getElem?_eq_getElem h] at he
    exact Option.some.inj he
  rw [Array.getElem?_ofFn, dif_pos (by rw [hshape]; exact ha)]
  simp only [hentry]

theorem joinLast?_table (n v w : Nat) (f g : Nat → Nat → α) :
    joinLast? (table n v f) (table n w g) =
      some (table n (v + w) fun a c => if c < v then f a c else g a (c - v)) := by
  have hentry (i : Nat) (hi : i < volume [n, v + w]) :
      (if i % (v + w) < v then (table n v f).data[i / (v + w) * v + i % (v + w)]?
        else (table n w g).data[i / (v + w) * w + (i % (v + w) - v)]?) =
      some (if i % (v + w) < v then f (i / (v + w)) (i % (v + w))
        else g (i / (v + w)) (i % (v + w) - v)) := by
    obtain ⟨ha, hc⟩ := lt_of_lt_volume hi
    split
    · rename_i hlt
      exact getElem?_table ha hlt f
    · exact getElem?_table ha (by omega) g
  obtain ⟨ys, hys⟩ := mapM_isSome (l := List.range (volume [n, v + w])) fun i hi =>
    ⟨_, hentry i (List.mem_range.mp hi)⟩
  obtain ⟨hl, hget⟩ := getElem?_of_mapM hys
  rw [List.length_range] at hl
  have hsize : ys.toArray.size = volume [n, v + w] := hl
  have hjoin : joinLast? (table n v f) (table n w g) = some ⟨[n, v + w], ys.toArray, hsize⟩ := by
    simp only [joinLast?, shape_table, List.getLast?_cons_cons, List.getLast?_singleton, List.dropLast_cons_cons,
      List.dropLast_singleton, List.singleton_append, Option.bind_eq_bind, Option.bind_some, if_true, hys,
      ofArray?, dif_pos hsize]
  rw [hjoin, Option.some_inj]
  refine eq_tabulate rfl fun i hi => ?_
  rw [List.getElem?_toArray, hget, List.getElem?_range hi]
  exact hentry i hi

end Table

section Stack

variable {n m : Nat}

def stack (n m w : Nat) (f : Nat → Nat → Nat → α) : Tensor α :=
  tabulate [n, m, w] fun i => f (i / w / m) (i / w % m) (i % w)

@[simp] theorem shape_stack (n m w : Nat) (f : Nat → Nat → Nat → α) : (stack n m w f).shape = [n, m, w] := rfl

@[simp] theorem zipWith?_stack (n m w : Nat) (g : α → β → γ) (f : Nat → Nat → Nat → α)
    (f' : Nat → Nat → Nat → β) :
    zipWith? g (stack n m w f) (stack n m w f') = some (stack n m w fun a b c => g (f a b c) (f' a b c)) :=
  zipWith?_tabulate_self _ _ _ _

theorem broadcastShape_pairs (n m : Nat) (s : List Nat) :
    broadcastShape (n :: 1 :: s) (1 :: m :: s) = some (n :: m :: s) := by
  have h : broadcastReversed [1, n] [m, 1] = some [m, n] := by
    by_cases hm : m = 1 <;> simp [broadcastReversed, hm, eq_comm]
  simp [broadcastShape, broadcastReversed_append_self, h]

/-- Every matrix of the first tensor meets every matrix of the second. -/
theorem zipWith?_pairs (n m : Nat) (s : List Nat) (g : α → β → γ) (f : Nat → α) (f' : Nat → β) :
    zipWith? g (tabulate (n :: 1 :: s) f) (tabulate (1 :: m :: s) f') =
      some (tabulate (n :: m :: s) fun i =>
        g (f (i / volume s / m * volume s + i % volume s))
          (f' (i / volume s % m * volume s + i % volume s))) := by
  rw [zipWith?_tabulate (broadcastShape_pairs n m s), Option.some_inj]
  refine tabulate_congr fun i hi => ?_
  have hi' : i / volume s < m * n := by
    have hv : volume (n :: m :: s) = volume s * (m * n) := by
      rw [volume_cons, volume_cons]
      ring
    exact Nat.div_lt_of_lt_mul (hv ▸ hi)
  have hrow : i / volume s / m < n := Nat.div_lt_of_lt_mul hi'
  have hn : (if n = 1 then 0 else i / volume s / m % n) = i / volume s / m := by
    split
    · rename_i h
      rw [h] at hrow
      exact (Nat.lt_one_iff.mp hrow).symm
    · exact Nat.mod_eq_of_lt hrow
  have hm : (if m = 1 then 0 else i / volume s % m) = i / volume s % m := by
    split
    · rename_i h
      rw [h, Nat.mod_one]
    · rfl
  have hleft : sourceIndex (n :: m :: s).reverse (n :: 1 :: s).reverse i 1 =
      i / volume s / m * volume s + i % volume s := by
    simp only [List.reverse_cons, List.append_assoc, List.singleton_append, sourceIndex_append, volume_reverse,
      sourceIndex, if_true, hn]
    ring
  have hright : sourceIndex (n :: m :: s).reverse (1 :: m :: s).reverse i 1 =
      i / volume s % m * volume s + i % volume s := by
    simp only [List.reverse_cons, List.append_assoc, List.singleton_append, sourceIndex_append, volume_reverse,
      sourceIndex, if_true, hm]
    ring
  rw [hleft, hright]

theorem select?_stack {w c : Nat} (hc : c < w) (f : Nat → Nat → Nat → α) :
    (stack n m w f).select? 2 c = some (table n m fun a b => f a b c) := by
  have hmin : min c w = c := by omega
  have hwidth : min (c + 1) w - c = 1 := by omega
  have hshape : (stack n m w f).shape.eraseIdx 2 = [n, m] := rfl
  have hline : (stack n m w f).narrow? 2 c (c + 1) =
      some (tabulate [n, m, 1] fun i => f (i / m) (i % m) c) := by
    simp only [stack, narrow?, shape_tabulate, List.getD_cons_succ, List.getD_cons_zero, List.drop_succ_cons,
      List.drop_nil, volume_nil, List.set_cons_succ, List.set_cons_zero, hmin, hwidth, Nat.mul_one, Nat.div_one,
      Nat.mod_one, Nat.add_zero, Nat.reduceAdd]
    rw [reindex?_tabulate fun i hi => ?_, Option.some_inj]
    · exact tabulate_congr fun i _ => by rw [flat_div hc, flat_mod hc]
    · rw [volume_cons, volume_cons, volume_cons, volume_nil] at hi
      rw [volume_cons, volume_cons, volume_cons, volume_nil, Nat.mul_one, ← Nat.mul_assoc]
      exact flat_lt (by simpa using hi) hc
  rw [select?, hline, Option.bind_eq_bind, Option.bind_some, hshape, reshape?_tabulate (by simp)]
  rfl

end Stack

end Tensor

end AnchorLoss
