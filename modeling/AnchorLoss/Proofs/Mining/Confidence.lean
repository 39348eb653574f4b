import Mathlib
import AnchorLoss.Proofs.Exact.Softmax
import AnchorLoss.Proofs.Mining.Hardest

namespace AnchorLoss

section Foremost

variable {α β : Type} [LinearOrder β] {key : α → β} {l : List α}

theorem nodup_of_ascending (hl : l.Pairwise fun i j => key i < key j) : l.Nodup :=
  hl.imp fun h => ne_of_apply_ne key h.ne

/-- The first elements of an ascending list are the only set of that many elements that comes before all
others. -/
theorem eq_take_toFinset [DecidableEq α] (hl : l.Pairwise fun i j => key i < key j) {s : Finset α}
    (hs : s ⊆ l.toFinset) (hbefore : ∀ i ∈ s, ∀ j ∈ l, j ∉ s → key i < key j) : s = (l.take s.card).toFinset := by
  have hlen : s.card ≤ l.length := (Finset.card_le_card hs).trans l.toFinset_card_le
  have hcard : (l.take s.card).toFinset.card = s.card := by
    rw [List.toFinset_card_of_nodup ((List.take_sublist _ _).nodup (nodup_of_ascending hl)),
      List.length_take_of_le hlen]
  have hsub : s ⊆ (l.take s.card).toFinset := by
    intro i hi
    by_contra hnot
    have hmem := List.mem_toFinset.mp (hs hi)
    rw [← List.take_append_drop s.card l] at hl hmem
    have hdrop := (List.mem_append.mp hmem).resolve_left fun h => hnot (List.mem_toFinset.mpr h)
    -- all the first elements come before `i` and are in the set, which would have one element more
    have hfirst : (l.take s.card).toFinset ⊆ s.erase i := by
      intro j hj
      rw [List.mem_toFinset] at hj
      have hji := (List.pairwise_append.mp hl).2.2 j hj i hdrop
      refine Finset.mem_erase.mpr ⟨ne_of_apply_ne key hji.ne, ?_⟩
      by_contra hjs
      exact hji.asymm (hbefore i hi j (List.mem_of_mem_take hj) hjs)
    have hle := Finset.card_le_card hfirst
    rw [hcard, Finset.card_erase_of_mem hi] at hle
    have hpos := Finset.card_pos.mpr ⟨i, hi⟩
    omega
  exact Finset.eq_of_subset_of_card_le hsub hcard.le

end Foremost

attribute [ext] Mining

namespace Exact

variable {K : Type} [Field K] [LinearOrder K] [FloorRing K] {T : Functions K} {p : Precision}

variable {n k : Nat}

open Mining

/-- The probability of background that an anchor is given. -/
def confidence (logits : Vector (Vector (Exact T p) (k + 2)) n) (i : Fin n) : K :=
  backgroundConfidence (α := Exact T p) (logits.get i)

/-- The place of an anchor in the order of background confidence; of equal ones the larger position comes
first. -/
def priority (logits : Vector (Vector (Exact T p) (k + 2)) n) (i : Fin n) : K ×ₗ (Fin n)ᵒᵈ :=
  toLex (confidence logits i, OrderDual.toDual i)

def byConfidence (logits : Vector (Vector (Exact T p) (k + 2)) n) (positive : Vector Bool n) :
    List (Fin n) :=
  (positions (positive.map not)).mergeSort fun i j => decide (priority logits i ≤ priority logits j)

def Guards (eps : K) (logits : Vector (Vector (Exact T p) (k + 2)) n) : Prop :=
  0 ≤ eps ∧ (0 < eps ∨ ∀ i, 0 < confidence logits i)

variable (logits : Vector (Vector (Exact T p) (k + 2)) n)

theorem priority_lt_iff {i j : Fin n} : priority logits i < priority logits j ↔
    confidence logits i < confidence logits j ∨ confidence logits i = confidence logits j ∧ j < i := by
  rw [priority, priority, Prod.Lex.toLex_lt_toLex, OrderDual.toDual_lt_toDual]

theorem priority_injective : Function.Injective (priority logits) := fun _ _ h =>
  congrArg (fun x : K ×ₗ (Fin n)ᵒᵈ => OrderDual.ofDual (ofLex x).2) h

theorem mem_byConfidence {positive : Vector Bool n} {i : Fin n} :
    i ∈ byConfidence logits positive ↔ positive.get i = false := by
  rw [byConfidence, List.mem_mergeSort, mem_positions, Vector.get_map, Bool.not_eq_true']

theorem ascending_byConfidence (positive : Vector Bool n) :
    (byConfidence logits positive).Pairwise fun i j => priority logits i < priority logits j := by
  have hsorted : (byConfidence logits positive).Pairwise
      fun i j => decide (priority logits i ≤ priority logits j) = true :=
    List.pairwise_mergeSort (fun i j l => by simpa using le_trans) (fun i j => by simpa using le_total _ _) _
  have hnodup : (byConfidence logits positive).Nodup := List.nodup_mergeSort.mpr (nodup_positions _)
  refine (hsorted.and hnodup).imp fun {i j} h => ?_
  exact lt_of_le_of_ne (of_decide_eq_true h.1) fun he => h.2 (priority_injective logits he)

theorem mem_contenders {threshold : K} {positive : Vector Bool n} {i : Fin n} :
    i ∈ contenders (α := Exact T p) threshold logits positive ↔
      positive.get i = false ∧ confidence logits i ≤ threshold := by
  simp [contenders, confidence]

section Loss

variable [IsStrictOrderedRing K] (hexp : ∀ x, 0 ≤ T.exp x)

include hexp

theorem confidence_nonneg (i : Fin n) : 0 ≤ confidence logits i := by
  have hget : confidence logits i = ((softmax (logits.get i)).get 0 : Exact T p) := rfl
  rw [hget, softmax_get_top]
  exact div_nonneg (hexp _) (Finset.sum_nonneg fun _ _ => hexp _)

theorem guarded_pos {eps : K} (h : Guards eps logits) (i : Fin n) : 0 < confidence logits i + eps := by
  obtain ⟨h0, hpos | hpos⟩ := h
  · exact add_pos_of_nonneg_of_pos (confidence_nonneg logits hexp i) hpos
  · exact add_pos_of_pos_of_nonneg (hpos i) h0

theorem precedes_iff_priority (hlog : StrictMonoOn T.log (Set.Ioi 0)) {eps : K} (h : Guards eps logits)
    {positive : Vector Bool n} {i j : Fin n} (hi : positive.get i = false) (hj : positive.get j = false) :
    Precedes (anchorLoss (α := Exact T p) eps logits positive) i j ↔ priority logits j < priority logits i := by
  have hloss : ∀ a, positive.get a = false → anchorLoss (α := Exact T p) eps logits positive a =
      (-T.log (confidence logits a + eps) : K) := fun a ha => by
    rw [anchorLoss, ha]
    rfl
  have hmono := hlog.lt_iff_lt (guarded_pos logits hexp h j) (guarded_pos logits hexp h i)
  have heq := hlog.injOn.eq_iff (guarded_pos logits hexp h j) (guarded_pos logits hexp h i)
  rw [add_lt_add_iff_right] at hmono
  rw [add_left_inj, le_antisymm_iff] at heq
  rw [Precedes, hloss i hi, hloss j hj, priority_lt_iff]
  simp [Scalar.eq, hmono, heq]

end Loss

section Foremost

variable [IsStrictOrderedRing K] (threshold : K) (limit : Nat) (positive : Vector Bool n)

/-- The negatives that are kept, as a part of the ranking by background confidence. -/
structure Foremost (kept : Finset (Fin n)) : Prop where
  eq_take : kept = ((byConfidence logits positive).take
    (min (contenders (α := Exact T p) threshold logits positive).card limit)).toFinset
  le : ∀ i ∈ kept, ∀ j, positive.get j = false → j ∉ kept → confidence logits i ≤ confidence logits j

variable {threshold limit positive}

theorem foremost_select (hexp : ∀ x, 0 ≤ T.exp x) (hlog : StrictMonoOn T.log (Set.Ioi 0)) {eps : K}
    (h : Guards eps logits) : Foremost logits threshold limit positive
      (selected (select (α := Exact T p) threshold eps limit logits positive).negative) := by
  have hardest := Hardest.select (α := Exact T p) threshold eps limit logits positive
  generalize (select (α := Exact T p) threshold eps limit logits positive) = mining at hardest ⊢
  have hbefore : ∀ i ∈ selected mining.negative, ∀ j, positive.get j = false →
      j ∉ selected mining.negative → priority logits i < priority logits j := by
    intro i hi j hj hnot
    obtain ⟨hineg, hile⟩ := (mem_contenders logits).mp (hardest.subset hi)
    by_cases hle : confidence logits j ≤ threshold
    · have hcontender := (mem_contenders logits).mpr ⟨hj, hle⟩
      exact (precedes_iff_priority logits hexp hlog h hj hineg).mp (hardest.precedes i hi j hcontender hnot)
    · exact (priority_lt_iff logits).mpr (.inl (hile.trans_lt (not_le.mp hle)))
  have hsubset : selected mining.negative ⊆ (byConfidence logits positive).toFinset := fun i hi =>
    List.mem_toFinset.mpr ((mem_byConfidence logits).mpr ((mem_contenders logits).mp (hardest.subset hi)).1)
  constructor
  · rw [← hardest.card]
    exact eq_take_toFinset (ascending_byConfidence logits positive) hsubset fun i hi j hj hnot =>
      hbefore i hi j ((mem_byConfidence logits).mp hj) hnot
  · intro i hi j hj hnot
    obtain hlt | heq := (priority_lt_iff logits).mp (hbefore i hi j hj hnot)
    · exact hlt.le
    · exact heq.1.le

theorem selected_injective : Function.Injective (selected (n := n)) := fun mask mask' h => by
  refine Vector.ext fun i hi => ?_
  have hiff := Finset.ext_iff.mp h ⟨i, hi⟩
  rw [mem_selected, mem_selected, ← Bool.eq_iff_iff] at hiff
  exact hiff

/-- The guard of the logarithm has no say in what is kept. -/
theorem select_eq_of_guards (hexp : ∀ x, 0 ≤ T.exp x) (hlog : StrictMonoOn T.log (Set.Ioi 0)) {eps eps' : K}
    (h : Guards eps logits) (h' : Guards eps' logits) :
    select (α := Exact T p) threshold eps limit logits positive =
      select (α := Exact T p) threshold eps' limit logits positive := by
  have hnegative : (select (α := Exact T p) threshold eps limit logits positive).negative =
      (select (α := Exact T p) threshold eps' limit logits positive).negative := by
    apply selected_injective
    rw [(foremost_select logits hexp hlog h).eq_take, (foremost_select logits hexp hlog h').eq_take]
  have hkept : (select (α := Exact T p) threshold eps limit logits positive).kept =
      (select (α := Exact T p) threshold eps' limit logits positive).kept := by
    rw [← countTrue_select, ← countTrue_select, hnegative]
  exact Mining.ext hnegative hkept rfl

theorem exists_limit {ratio : K} (hr : 0 ≤ ratio) (positives : Nat) : ∃ limit : Nat,
    (limit : Int) = ⌊ratio * positives⌋ ∧ Mining.limit (Exact T) ratio positives = .ok limit := by
  obtain ⟨limit, hlimit⟩ := Int.eq_ofNat_of_zero_le
    (Int.floor_nonneg.mpr (mul_nonneg hr positives.cast_nonneg))
  refine ⟨limit, hlimit.symm, ?_⟩
  rw [← hlimit, Mining.limit, ofNat_eq]
  rfl

omit [IsStrictOrderedRing K] in
theorem Foremost.mono {limit' : Nat} {kept kept' : Finset (Fin n)}
    (h : Foremost logits threshold limit positive kept) (h' : Foremost logits threshold limit' positive kept')
    (hle : limit ≤ limit') : kept ⊆ kept' := by
  rw [h.eq_take, h'.eq_take]
  intro i hi
  rw [List.mem_toFinset] at hi ⊢
  exact List.take_subset_take_left _ (min_le_min_left _ hle) hi

end Foremost

/-- Of the anchors that are not positive, the foremost by ascending background confidence are kept: as many as are
below the threshold, and not more than the ratio allows. -/
theorem select_foremost [IsStrictOrderedRing K] (hexp : ∀ x, 0 ≤ T.exp x)
    (hlog : StrictMonoOn T.log (Set.Ioi 0)) (threshold : K) {ratio : K}
    (hr : admits (α := Exact T .double) ratio = true) (positive : Vector Bool n) :
    ∃ limit : Nat, (limit : Int) = ⌊ratio * countTrue positive⌋ ∧
      Mining.limit (Exact T) ratio (countTrue positive) = .ok limit ∧
      (∀ eps, Guards eps logits → Foremost logits threshold limit positive
        (selected (select (α := Exact T p) threshold eps limit logits positive).negative)) ∧
      (∀ eps eps', Guards eps logits → Guards eps' logits →
        select (α := Exact T p) threshold eps limit logits positive =
          select (α := Exact T p) threshold eps' limit logits positive) ∧
      ∀ ratio', ratio ≤ ratio' → ∃ limit' : Nat,
        Mining.limit (Exact T) ratio' (countTrue positive) = .ok limit' ∧ ∀ eps, Guards eps logits →
          selected (select (α := Exact T p) threshold eps limit logits positive).negative ⊆
            selected (select (α := Exact T p) threshold eps limit' logits positive).negative := by
  have h0 : 0 ≤ ratio := by simpa [admits] using hr
  obtain ⟨limit, hfloor, hlimit⟩ := exists_limit (T := T) h0 (countTrue positive)
  refine ⟨limit, hfloor, hlimit, fun eps h => foremost_select logits hexp hlog h,
    fun eps eps' h h' => select_eq_of_guards logits hexp hlog h h', fun ratio' hle => ?_⟩
  obtain ⟨limit', hfloor', hlimit'⟩ := exists_limit (T := T) (h0.trans hle) (countTrue positive)
  have hlimits : (limit : Int) ≤ limit' := by
    rw [hfloor, hfloor']
    exact Int.floor_le_floor (mul_le_mul_of_nonneg_right hle (Nat.cast_nonneg _))
  exact ⟨limit', hlimit', fun eps h => (foremost_select logits hexp hlog h).mono logits
    (foremost_select logits hexp hlog h) (Int.ofNat_le.mp hlimits)⟩

section Tied

def tiedLogits : Vector (Vector (Exact real .double) 2) 4 :=
  #v[#v[0, 0], #v[0, 1], #v[0, 0], #v[0, 0]]

theorem confidence_tied (i : Fin 4) :
    confidence tiedLogits i = 1 / (1 + if i = 1 then Real.exp 1 else 1) := by
  have hget : confidence tiedLogits i = ((softmax (tiedLogits.get i)).get 0 : Exact real .double) := rfl
  rw [hget, softmax_get, Fin.sum_univ_two]
  fin_cases i <;> simp [tiedLogits, Vector.get_eq_getElem]

theorem confidence_tied_lt {i : Fin 4} (h : i ≠ 1) : confidence tiedLogits 1 < confidence tiedLogits i := by
  have hexp : 1 < Real.exp 1 := Real.one_lt_exp_iff.mpr one_pos
  rw [confidence_tied, confidence_tied, if_pos rfl, if_neg h]
  exact one_div_lt_one_div_of_lt (add_pos one_pos one_pos) (add_lt_add_right hexp 1)

theorem byConfidence_tied : byConfidence tiedLogits #v[true, false, false, false] = [1, 3, 2] := by
  have hfirst : ∀ i : Fin 4, i ≠ 1 → priority tiedLogits 1 < priority tiedLogits i := fun i h =>
    (priority_lt_iff tiedLogits).mpr (.inl (confidence_tied_lt h))
  have hlast : priority tiedLogits 3 < priority tiedLogits 2 := by
    refine (priority_lt_iff tiedLogits).mpr (.inr ⟨?_, by decide⟩)
    rw [confidence_tied, confidence_tied, if_neg (by decide), if_neg (by decide)]
  have hsorted : [1, 3, 2].Pairwise fun i j => priority tiedLogits i < priority tiedLogits j := by
    simp [hfirst, hlast]
  have hascending := ascending_byConfidence tiedLogits #v[true, false, false, false]
  refine List.Perm.eq_of_pairwise (fun i j _ _ h h' => absurd h' h.asymm) hascending hsorted ?_
  refine (List.perm_ext_iff_of_nodup (nodup_of_ascending hascending) (by decide)).mpr fun i => ?_
  rw [mem_byConfidence]
  revert i
  decide

theorem select_foremost_tied : (∀ x, 0 ≤ real.exp x) ∧ StrictMonoOn real.log (Set.Ioi 0) ∧
    admits (α := Exact real .double) (1 + 1 : ℝ) = true ∧ Guards 0 tiedLogits ∧
    selected (select (α := Exact real .double) (1 : ℝ) (0 : ℝ) 2 tiedLogits
      #v[true, false, false, false]).negative = {1, 3} := by
  have hexp : ∀ x, 0 ≤ real.exp x := fun x => (Real.exp_pos x).le
  have hlog : StrictMonoOn real.log (Set.Ioi 0) := Real.strictMonoOn_log
  have hr : admits (α := Exact real .double) (1 + 1 : ℝ) = true := by
    simp [admits]
  have hguards : Guards 0 tiedLogits := ⟨le_rfl, .inr fun i => softmax_pos _ _⟩
  obtain ⟨limit, hfloor, -, hforemost, -⟩ := select_foremost tiedLogits hexp hlog (1 : ℝ) hr
    #v[true, false, false, false]
  have hcount : countTrue #v[true, false, false, false] = 1 := by decide
  obtain rfl : limit = 2 := by
    have htwo : (1 + 1 : ℝ) * (1 : ℕ) = (2 : ℤ) := by norm_num
    rw [hcount, htwo, Int.floor_intCast] at hfloor
    exact Int.ofNat.inj hfloor
  refine ⟨hexp, hlog, hr, hguards, ?_⟩
  have hcontenders : contenders (α := Exact real .double) (1 : ℝ) tiedLogits
      #v[true, false, false, false] = {1, 2, 3} := by
    have hle : ∀ i, confidence tiedLogits i ≤ 1 := fun i => by
      rw [confidence_tied, one_div]
      exact inv_le_one_of_one_le₀ (le_add_of_nonneg_right (by split <;> positivity))
    ext i
    rw [mem_contenders, and_iff_left (hle i)]
    revert i
    decide
  have hkept := (hforemost 0 hguards).eq_take
  rw [byConfidence_tied, hcontenders] at hkept
  exact hkept

end Tied

end Exact

end AnchorLoss
