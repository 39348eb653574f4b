import Mathlib
import AnchorLoss.Scalar

namespace AnchorLoss

/-- Numbers are ordered, and other values cannot be compared. -/
class LawfulLe (α : Type) [Scalar α] : Prop where
  not_isNaN_zero : ¬ Scalar.isNaN (Scalar.zero : α)
  not_isNaN_of_le {a b : α} : Scalar.le a b → ¬ Scalar.isNaN a ∧ ¬ Scalar.isNaN b
  le_trans {a b c : α} : Scalar.le a b → Scalar.le b c → Scalar.le a c
  le_total {a b : α} : ¬ Scalar.isNaN a → ¬ Scalar.isNaN b → Scalar.le a b ∨ Scalar.le b a

namespace Scalar

variable {α : Type} [Scalar α] {a b c : α}

theorem lt_iff : lt a b ↔ le a b ∧ ¬ le b a := by
  simp [lt]

theorem eq_iff : eq a b ↔ le a b ∧ le b a := by
  simp [eq]

theorem le_self (h : ¬ isNaN a) : le a a := by
  simpa [isNaN] using h

theorem not_lt_self (a : α) : ¬ lt a a := by
  simp [lt]

theorem sortLe_iff : sortLe a b ↔ isNaN b ∨ le a b := by
  simp [sortLe]

variable [LawfulLe α]

theorem le_zero_zero : le (zero : α) zero :=
  le_self LawfulLe.not_isNaN_zero

theorem lt_of_lt_of_le (h : lt a b) (h' : le b c) : lt a c := by
  obtain ⟨hab, hba⟩ := lt_iff.mp h
  exact lt_iff.mpr ⟨LawfulLe.le_trans hab h', fun hca => hba (LawfulLe.le_trans h' hca)⟩

theorem lt_of_le_of_lt (h : le a b) (h' : lt b c) : lt a c := by
  obtain ⟨hbc, hcb⟩ := lt_iff.mp h'
  exact lt_iff.mpr ⟨LawfulLe.le_trans h hbc, fun hca => hcb (LawfulLe.le_trans hca h)⟩

theorem le_of_not_lt (ha : ¬ isNaN a) (hb : ¬ isNaN b) (h : ¬ lt a b) : le b a := by
  rw [lt_iff, not_and, not_not] at h
  obtain hab | hba := LawfulLe.le_total ha hb
  · exact h hab
  · exact hba

section Ranking

theorem sortLe_trans (h : sortLe a b) (h' : sortLe b c) : sortLe a c := by
  rw [sortLe_iff] at h h' ⊢
  obtain hc | hbc := h'
  · exact .inl hc
  · obtain hb | hab := h
    · exact absurd hb (LawfulLe.not_isNaN_of_le hbc).1
    · exact .inr (LawfulLe.le_trans hab hbc)

theorem sortLe_total (a b : α) : sortLe a b ∨ sortLe b a := by
  simp only [sortLe_iff]
  by_cases ha : isNaN a
  · exact .inr (.inl ha)
  · by_cases hb : isNaN b
    · exact .inl (.inl hb)
    · exact (LawfulLe.le_total ha hb).imp .inr .inr

theorem displaces_iff : displaces a b ↔ ¬ sortLe b a := by
  rw [sortLe_iff]
  by_cases ha : isNaN a
  · simp [displaces, ha]
  · by_cases hb : isNaN b
    · have hba : ¬ le b a := fun h => (LawfulLe.not_isNaN_of_le h).1 hb
      simp [displaces, ha, hb, hba]
    · have hlt : lt a b ↔ ¬ le b a :=
        ⟨fun h => (lt_iff.mp h).2, fun h => by_contra fun hn => h (le_of_not_lt ha hb hn)⟩
      simp [displaces, ha, hb, hlt]

theorem eq_of_sortLe (h : sortLe a b) (h' : sortLe b a) : eq a b ∨ isNaN a ∧ isNaN b := by
  rw [sortLe_iff] at h h'
  by_cases ha : isNaN a
  · obtain hb | hab := h
    · exact .inr ⟨ha, hb⟩
    · exact absurd ha (LawfulLe.not_isNaN_of_le hab).1
  · have hba : le b a := h'.resolve_left ha
    have hb := (LawfulLe.not_isNaN_of_le hba).1
    exact .inl (eq_iff.mpr ⟨h.resolve_left hb, hba⟩)

end Ranking

section Argmax

variable {n : Nat}

/-- The first of the greatest entries of a column. -/
def IsFirstMax (v : Fin n → α) (i : Fin n) : Prop := (∀ j, le (v j) (v i)) ∧ ∀ j < i, lt (v j) (v i)

theorem IsFirstMax.lt_of_lt {v : Fin n → α} {i j : Fin n} {x : α} (h : IsFirstMax v i) (hx : lt x (v j)) :
    lt x (v i) :=
  lt_of_lt_of_le hx (h.1 j)

/-- Where a column has its maximum: at its first entry that is not a number, or else at the first of its
greatest entries. -/
def IsArgmax (v : Fin n → α) (i : Fin n) : Prop :=
  (isNaN (v i) ∧ ∀ j < i, ¬ isNaN (v j)) ∨ IsFirstMax v i

omit [LawfulLe α] in
theorem isArgmax_iff_isFirstMax {v : Fin n → α} (hv : ∀ j, ¬ isNaN (v j)) {i : Fin n} :
    IsArgmax v i ↔ IsFirstMax v i :=
  or_iff_right fun h => hv i h.1

/-- Of the indices `is`, the one that leads in the order for sorting, and the first of those that do. -/
def Leads (v : Fin n → α) (is : List (Fin n)) (i : Fin n) : Prop :=
  i ∈ is ∧ ∀ j ∈ is, sortLe (v j) (v i) ∧ (j < i → displaces (v j) (v i))

theorem Leads.unique {v : Fin n → α} {is : List (Fin n)} {i j : Fin n} (hi : Leads v is i)
    (hj : Leads v is j) : i = j := by
  obtain h | h | h := lt_trichotomy i j
  · exact absurd (hi.2 j hj.1).1 (displaces_iff.mp ((hj.2 i hi.1).2 h))
  · exact h
  · exact absurd (hj.2 i hi.1).1 (displaces_iff.mp ((hi.2 j hj.1).2 h))

theorem Leads.concat {v : Fin n → α} {is : List (Fin n)} {b : Fin n} (h : Leads v is b) {i : Fin n}
    (hi : ∀ j ∈ is, j < i) : Leads v (is ++ [i]) (if displaces (v b) (v i) then i else b) := by
  by_cases hd : displaces (v b) (v i) = true
  · rw [if_pos hd]
    have hib := displaces_iff.mp hd
    have hbi := (sortLe_total (v b) (v i)).resolve_right hib
    refine ⟨List.mem_concat_self, fun j hj => ?_⟩
    obtain hj | hj := List.mem_append.mp hj
    · refine ⟨sortLe_trans (h.2 j hj).1 hbi, fun _ => displaces_iff.mpr fun hij => ?_⟩
      exact hib (sortLe_trans hij (h.2 j hj).1)
    · obtain rfl := List.mem_singleton.mp hj
      exact ⟨(sortLe_total _ _).elim id id, fun hlt => absurd hlt (lt_irrefl j)⟩
  · rw [if_neg hd]
    refine ⟨List.mem_append_left _ h.1, fun j hj => ?_⟩
    obtain hj | hj := List.mem_append.mp hj
    · exact h.2 j hj
    · obtain rfl := List.mem_singleton.mp hj
      have hjb : sortLe (v j) (v b) := by_contra fun hn => hd (displaces_iff.mpr hn)
      exact ⟨hjb, fun hlt => absurd hlt (hi b h.1).asymm⟩

/-- A scan of ascending indices keeps the one that leads. -/
theorem Leads.scan {v : Fin n → α} {done is : List (Fin n)} {b : Fin n} (h : Leads v done b)
    (ha : (done ++ is).Pairwise (· < ·)) :
    Leads v (done ++ is) (is.foldl (fun b i => if displaces (v b) (v i) then i else b) b) := by
  induction is generalizing done b with
  | nil => rwa [List.append_nil]
  | cons i is ih =>
    have hi : ∀ j ∈ done, j < i := fun j hj => (List.pairwise_append.mp ha).2.2 j hj i List.mem_cons_self
    rw [List.append_cons] at ha ⊢
    exact ih (h.concat hi) ha

theorem leads_argmax (v : Vector α (n + 1)) : Leads v.get (List.finRange (n + 1)) (argmax v) := by
  have hfirst : Leads v.get [0] (0 : Fin (n + 1)) := by
    refine ⟨List.mem_singleton_self 0, fun j hj => ?_⟩
    obtain rfl := List.mem_singleton.mp hj
    exact ⟨(sortLe_total _ _).elim id id, fun hlt => absurd hlt (lt_irrefl 0)⟩
  have hlist : List.finRange (n + 1) = [0] ++ (List.finRange n).map Fin.succ := List.finRange_succ
  have hasc := List.pairwise_lt_finRange (n + 1)
  rw [hlist] at hasc
  have hscan := hfirst.scan hasc
  rw [← hlist] at hscan
  -- the scan meets the first index twice
  have hargmax : argmax v = ((List.finRange n).map Fin.succ).foldl
      (fun b i => if displaces (v.get b) (v.get i) then i else b) 0 := by
    have htwice : (if displaces (v.get 0) (v.get 0) then 0 else 0 : Fin (n + 1)) = 0 := ite_self 0
    rw [argmax, hlist, List.foldl_append, List.foldl_cons, List.foldl_nil]
    exact congrArg (fun b => ((List.finRange n).map Fin.succ).foldl _ b) htwice
  rwa [hargmax]

theorem argmax_of_lt {v : Vector α (n + 1)} (hv : ∀ i, ¬ isNaN (v.get i)) {j : Fin (n + 1)}
    (h : ∀ i ≠ j, lt (v.get i) (v.get j)) : argmax v = j := by
  by_contra hne
  obtain hn | hle := sortLe_iff.mp ((leads_argmax v).2 j (List.mem_finRange j)).1
  · exact hv _ hn
  · exact (lt_iff.mp (h _ hne)).2 hle

theorem isArgmax_iff_leads {v : Fin n → α} {i : Fin n} :
    IsArgmax v i ↔ Leads v (List.finRange n) i := by
  constructor
  · rintro (⟨hi, hfirst⟩ | ⟨hmax, hfirst⟩)
    · refine ⟨List.mem_finRange i, fun j _ => ⟨sortLe_iff.mpr (.inl hi), fun hlt => ?_⟩⟩
      simp [displaces, hi, hfirst j hlt]
    · refine ⟨List.mem_finRange i, fun j _ => ⟨sortLe_iff.mpr (.inr (hmax j)), fun hlt => ?_⟩⟩
      have hj := (LawfulLe.not_isNaN_of_le (hmax j)).1
      simp [displaces, hj, hfirst j hlt]
  · rintro ⟨-, h⟩
    by_cases hi : isNaN (v i)
    · refine .inl ⟨hi, fun j hlt hj => ?_⟩
      have hd := (h j (List.mem_finRange j)).2 hlt
      simp [displaces, hj] at hd
    · have hmax : ∀ j, le (v j) (v i) := fun j =>
        (sortLe_iff.mp (h j (List.mem_finRange j)).1).resolve_left hi
      refine .inr ⟨hmax, fun j hlt => ?_⟩
      have hd := displaces_iff.mp ((h j (List.mem_finRange j)).2 hlt)
      exact lt_iff.mpr ⟨hmax j, fun hij => hd (sortLe_iff.mpr (.inr hij))⟩

theorem argmax?_ofFn_eq_some_iff {v : Fin n → α} {i : Fin n} :
    argmax? (Vector.ofFn v) = some i ↔ IsArgmax v i := by
  cases n with
  | zero => exact i.elim0
  | succ n =>
    have hget : (Vector.ofFn v).get = v := funext fun j => Vector.get_ofFn v j
    have hlead := leads_argmax (Vector.ofFn v)
    rw [hget] at hlead
    rw [argmax?, Option.some_inj, isArgmax_iff_leads]
    constructor
    · rintro rfl
      exact hlead
    · exact hlead.unique

end Argmax

end Scalar

end AnchorLoss
