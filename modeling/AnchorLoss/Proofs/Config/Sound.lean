import Mathlib
import AnchorLoss.Proofs.Binary.Rank
import AnchorLoss.Proofs.Binary.Total
import AnchorLoss.Proofs.Config.Admissible

namespace AnchorLoss

namespace Measure

section Order

variable {α : Type} [Measure α] {x : α} {n : Int}

/-- Of a kind that has an order, but without a place in it. -/
def IsNaN (x : α) : Prop := against x 0 = some none

theorem holds_eq_true {accepted rejected : Ordering → Bool} (h : ∀ o, rejected o = !accepted o) :
    holds accepted n x = .ok true ↔ holds rejected n x = .ok false ∧ against x n ≠ some none := by
  unfold holds
  cases against x n with
  | none => simp
  | some place =>
    cases place with
    | none => simp
    | some o => simp [h]

theorem above_iff : above n x = .ok true ↔ atMost n x = .ok false ∧ against x n ≠ some none :=
  holds_eq_true fun o => by cases o <;> rfl

theorem atLeast_iff : atLeast n x = .ok true ↔ below n x = .ok false ∧ against x n ≠ some none :=
  holds_eq_true fun o => by cases o <;> rfl

theorem above_zero_iff : above 0 x = .ok true ↔ atMost 0 x = .ok false ∧ ¬ IsNaN x := above_iff

theorem atLeast_zero_iff : atLeast 0 x = .ok true ↔ below 0 x = .ok false ∧ ¬ IsNaN x := atLeast_iff

theorem anyNonPositive_iff {xs : List α} :
    anyNonPositive xs = .ok false ↔ ∀ x ∈ xs, atMost 0 x = .ok false := by
  refine ⟨anyNonPositive_eq_false, fun h => ?_⟩
  induction xs with
  | nil => rfl
  | cons x xs ih =>
    have hx := h x List.mem_cons_self
    have hxs := ih fun y hy => h y (List.mem_cons_of_mem x hy)
    simp only [anyNonPositive, hx]
    exact hxs

theorem all_above_iff {xs : List α} : (∀ x ∈ xs, above 0 x = .ok true) ↔
    anyNonPositive xs = .ok false ∧ ∀ x ∈ xs, ¬ IsNaN x := by
  rw [anyNonPositive_iff, ← forall₂_and]
  exact forall₂_congr fun x _ => above_zero_iff

def IsFraction (x : α) : Prop := above 0 x = .ok true ∧ below 1 x = .ok true

end Order

/-- Quantities whose place in the order does not depend on the number that they are compared with, and
which are positive when they are at least one. -/
class LawfulCount (α : Type) [Measure α] : Prop where
  place (x : α) (m n : Int) : (against x m).map Option.isSome = (against x n).map Option.isSome
  pos {x : α} : atLeast 1 x = .ok true → above 0 x = .ok true

section Count

variable {α : Type} [Measure α] [LawfulCount α] {x : α}

theorem ne_none_iff (n : Int) : against x n ≠ some none ↔ ¬ IsNaN x := by
  have h := LawfulCount.place x n 0
  unfold IsNaN
  obtain hn | ⟨_ | o, hn⟩ := Option.eq_none_or_eq_some (against x n) <;>
    obtain h0 | ⟨_ | o, h0⟩ := Option.eq_none_or_eq_some (against x 0) <;> simp_all

theorem holds_of_holds {accepted rejected : Ordering → Bool} {m : Int} {b : Bool}
    (h : holds rejected m x = .ok b) (n : Int) : ∃ b', holds accepted n x = .ok b' := by
  have hp := LawfulCount.place x m n
  unfold holds at h ⊢
  cases hn : against x n with
  | none =>
    rw [hn, Option.map_none, Option.map_eq_none_iff] at hp
    rw [hp] at h
    cases h
  | some place => exact ⟨_, rfl⟩

theorem atLeast_one_iff : atLeast 1 x = .ok true ↔
    atMost 0 x = .ok false ∧ ¬ IsNaN x ∧ ¬ IsFraction x := by
  rw [atLeast_iff, ne_none_iff]
  constructor
  · rintro ⟨hbelow, hx⟩
    have hpos := LawfulCount.pos (atLeast_iff.mpr ⟨hbelow, (ne_none_iff 1).mpr hx⟩)
    refine ⟨(above_iff.mp hpos).1, hx, fun hf => ?_⟩
    cases hbelow.symm.trans hf.2
  · rintro ⟨hpos, hx, hf⟩
    refine ⟨?_, hx⟩
    obtain ⟨b, hb⟩ : ∃ b, below 1 x = .ok b := holds_of_holds hpos 1
    cases b with
    | false => exact hb
    | true => exact absurd ⟨above_zero_iff.mpr ⟨hpos, hx⟩, hb⟩ hf

end Count

instance : LawfulCount Int where
  place _ _ _ := rfl
  pos {x} h := by
    have h₁ : (1 : Int) ≤ x := le_of_below (atLeast_iff.mp h).1
    have h₀ : compare x 0 = .gt := compare_gt_iff_gt.mpr (by omega)
    simp [above, holds, against, h₀]

theorem isSome_compareIntFloat (m n : Int) (x : Float) :
    (Value.compareIntFloat m x).isSome = (Value.compareIntFloat n x).isSome := by
  unfold Value.compareIntFloat
  cases Binary.ofDouble x with
  | infinity s => cases s <;> rfl
  | _ => rfl

theorem compareIntFloat_zero {x : Float} {o : Ordering} (h : Value.compareIntFloat 1 x = some o)
    (ho : o ≠ .gt) : Value.compareIntFloat 0 x = some .lt := by
  unfold Value.compareIntFloat at h ⊢
  generalize Binary.ofDouble x = u at h ⊢
  -- only a positive number is not exceeded by one, whatever its exponent
  cases u with
  | notANumber => cases h
  | infinity s =>
    cases s with
    | positive => rfl
    | negative => exact absurd (Option.some.inj h).symm ho
  | zero s => exact absurd (Option.some.inj h).symm ho
  | finite s m e hm =>
    have hm : (0 : Int) < m := Int.natCast_pos.mpr hm
    have hpow (k : Nat) : (0 : Int) < (Nat.pow 2 k : Nat) := Int.natCast_pos.mpr (Nat.two_pow_pos k)
    have hprod := mul_pos hm (hpow e.toNat)
    simp only [Option.some.injEq, zero_mul, one_mul, Nat.cast_mul] at h ⊢
    cases s with
    | positive => split <;> exact compare_lt_iff_lt.mpr (by assumption)
    | negative =>
      have hscale := hpow (-e).toNat
      refine absurd (h.symm.trans ?_) ho
      split <;> exact compare_gt_iff_gt.mpr
        (by simp only [Float.Model.UnpackedFloat.Sign.apply]; omega)

theorem against_float (x : Float) (n : Int) :
    against (Value.float x) n = some ((Value.compareIntFloat n x).map Ordering.swap) := rfl

instance : LawfulCount Value where
  place x m n := by
    cases x with
    | float x => simp [against_float, isSome_compareIntFloat m n x]
    | _ => rfl
  pos {x} h := by
    cases x with
    | int k => exact LawfulCount.pos (α := Int) h
    | bool b => exact LawfulCount.pos (α := Int) (x := b.toInt) h
    | float x =>
      simp only [atLeast, holds, against_float] at h
      cases ho : Value.compareIntFloat 1 x with
      | none => rw [ho] at h; cases h
      | some o =>
        have hne : o ≠ .gt := by
          rintro rfl
          rw [ho] at h
          cases h
        simp [above, holds, against_float, compareIntFloat_zero ho hne]
    | _ => cases h

section NotANumber

theorem not_isNaN_int (n : Int) : ¬ IsNaN n := nofun

theorem isNaN_float {x : Float} : IsNaN x ↔ Scalar.isNaN x := by
  have hplace : IsNaN x ↔ Scalar.le x Scalar.zero = false ∧ Scalar.le Scalar.zero x = false := by
    have hx : IsNaN x ↔ Value.compareFloats x Scalar.zero = none := Option.some_inj
    rw [hx, Value.compareFloats, Scalar.lt, Scalar.lt, Scalar.eq]
    cases Scalar.le x Scalar.zero <;> cases Scalar.le Scalar.zero x <;> simp
  rw [hplace, Binary.isNaN_iff (p := .double), ← Bool.not_eq_true, ← Bool.not_eq_true,
    Binary.le_eq (p := .double), Binary.le_eq (p := .double)]
  have hzero : Binary.value (p := .double) Scalar.zero ≠ .notANumber := by
    rw [Binary.value_zero]
    intro h
    cases h
  constructor
  · rintro ⟨hle, hge⟩
    by_contra hx
    obtain h | h := le_total (Binary.rank (Binary.value (p := .double) x))
      (Binary.rank (Binary.value (p := .double) Scalar.zero))
    · exact hle ((Binary.le_iff_rank hx hzero).mpr h)
    · exact hge ((Binary.le_iff_rank hzero hx).mpr h)
  · intro hx
    exact ⟨fun h => (Binary.ne_notANumber_of_le h).1 hx, fun h => (Binary.ne_notANumber_of_le h).2 hx⟩

end NotANumber

end Measure

namespace LossConfig

open AnchorLoss.Measure

section Sound

variable {ι ρ : Type} [Measure ι] [Measure ρ]

/-- The conditions on the settings, each as a comparison that is true. -/
structure Sound (c : LossConfig ι ρ) : Prop where
  numClasses : atLeast 2 c.numClasses = .ok true
  maxTruths : atLeast 1 c.maxTruths = .ok true
  mapSizes_ne_nil : c.mapSizes ≠ []
  length_strides : c.mapSizes.length = c.strides.length
  length_anchorSizes : c.strides.length = c.anchorSizes.length
  mapSizes : ∀ n ∈ c.mapSizes, above 0 n = .ok true
  strides : ∀ n ∈ c.strides, above 0 n = .ok true
  anchorSizes : ∀ x ∈ c.anchorSizes, above 0 x = .ok true
  aspectRatios_ne_nil : c.aspectRatios ≠ []
  aspectRatios : ∀ x ∈ c.aspectRatios, above 0 x = .ok true
  iouThreshold : atLeast 0 c.iouThreshold = .ok true ∧ atMost 1 c.iouThreshold = .ok true
  backgroundThreshold : above 0 c.backgroundThreshold = .ok true ∧
    atMost 1 c.backgroundThreshold = .ok true
  negativeRatio : atLeast 0 c.negativeRatio = .ok true
  armDivider : above 0 c.armDivider = .ok true
  epsilon : atLeast 0 c.epsilon = .ok true

/-- What the check does not look for: the quantities that it compares in the opposite sense have a place
in the order, and the number of boxes is no fraction. -/
structure Ordered (c : LossConfig ι ρ) : Prop where
  counts : ∀ n ∈ c.numClasses :: c.maxTruths :: c.mapSizes ++ c.strides, ¬ IsNaN n
  maxTruths : ¬ IsFraction c.maxTruths
  reals : ∀ x ∈ c.negativeRatio :: c.armDivider :: c.epsilon :: c.anchorSizes ++ c.aspectRatios,
    ¬ IsNaN x

theorem both_iff {a b : Except CheckError Bool} :
    (both a b).map not = .ok false ↔ a = .ok true ∧ b = .ok true := by
  cases a with
  | error e => simp [both, Except.map]
  | ok a =>
    cases a with
    | false => simp [both, Except.map]
    | true =>
      cases b <;> simp [both, Except.map]

theorem ordered_iff {c : LossConfig ι ρ} : c.Ordered ↔ (¬ IsNaN c.numClasses ∧ ¬ IsNaN c.maxTruths ∧
    (∀ n ∈ c.mapSizes, ¬ IsNaN n) ∧ ∀ n ∈ c.strides, ¬ IsNaN n) ∧ ¬ IsFraction c.maxTruths ∧
    ¬ IsNaN c.negativeRatio ∧ ¬ IsNaN c.armDivider ∧ ¬ IsNaN c.epsilon ∧
    (∀ x ∈ c.anchorSizes, ¬ IsNaN x) ∧ ∀ x ∈ c.aspectRatios, ¬ IsNaN x := by
  constructor
  · rintro ⟨hcounts, hfrac, hreals⟩
    simp only [List.forall_mem_append, List.forall_mem_cons, and_assoc] at hcounts hreals
    exact ⟨hcounts, hfrac, hreals⟩
  · rintro ⟨hcounts, hfrac, hreals⟩
    refine ⟨?_, hfrac, ?_⟩ <;>
      simpa only [List.forall_mem_append, List.forall_mem_cons, and_assoc]

theorem lengths_iff {a b c : Nat} : (!(a == b && b == c)) = false ↔ a = b ∧ b = c := by
  simp

theorem sound_iff [LawfulCount ι] {c : LossConfig ι ρ} : c.Sound ↔ c.check = .ok () ∧ c.Ordered := by
  simp only [check, bind_eq_ok, refuse_eq_ok, both_iff, lengths_iff, Except.ok.injEq,
    List.isEmpty_eq_false_iff, ordered_iff]
  constructor
  · intro h
    have hclasses := atLeast_iff.mp h.numClasses
    have htruths := atLeast_one_iff.mp h.maxTruths
    have hsizes := all_above_iff.mp h.mapSizes
    have hstrides := all_above_iff.mp h.strides
    have hanchors := all_above_iff.mp h.anchorSizes
    have hratios := all_above_iff.mp h.aspectRatios
    have hnegative := atLeast_zero_iff.mp h.negativeRatio
    have hdivider := above_zero_iff.mp h.armDivider
    have hepsilon := atLeast_zero_iff.mp h.epsilon
    exact ⟨⟨hclasses.1, htruths.1, h.mapSizes_ne_nil, ⟨h.length_strides, h.length_anchorSizes⟩, hsizes.1,
      hstrides.1, hanchors.1, h.aspectRatios_ne_nil, hratios.1, h.iouThreshold, h.backgroundThreshold,
      hnegative.1, hdivider.1, hepsilon.1⟩,
      ⟨(ne_none_iff 2).mp hclasses.2, htruths.2.1, hsizes.2, hstrides.2⟩, htruths.2.2,
      hnegative.2, hdivider.2, hepsilon.2, hanchors.2, hratios.2⟩
  · rintro ⟨⟨hclasses, htruths, hscale, ⟨hlength, hlength'⟩, hsizes, hstrides, hanchors, hratio, hratios,
      hiou, hback, hnegative, hdivider, hepsilon⟩, ⟨hclassesNaN, htruthsNaN, hsizesNaN, hstridesNaN⟩,
      hfrac, hnegativeNaN, hdividerNaN, hepsilonNaN, hanchorsNaN, hratiosNaN⟩
    exact {
      numClasses := atLeast_iff.mpr ⟨hclasses, (ne_none_iff 2).mpr hclassesNaN⟩
      maxTruths := atLeast_one_iff.mpr ⟨htruths, htruthsNaN, hfrac⟩
      mapSizes_ne_nil := hscale
      length_strides := hlength
      length_anchorSizes := hlength'
      mapSizes := all_above_iff.mpr ⟨hsizes, hsizesNaN⟩
      strides := all_above_iff.mpr ⟨hstrides, hstridesNaN⟩
      anchorSizes := all_above_iff.mpr ⟨hanchors, hanchorsNaN⟩
      aspectRatios_ne_nil := hratio
      aspectRatios := all_above_iff.mpr ⟨hratios, hratiosNaN⟩
      iouThreshold := hiou
      backgroundThreshold := hback
      negativeRatio := atLeast_zero_iff.mpr ⟨hnegative, hnegativeNaN⟩
      armDivider := above_zero_iff.mpr ⟨hdivider, hdividerNaN⟩
      epsilon := atLeast_zero_iff.mpr ⟨hepsilon, hepsilonNaN⟩ }

end Sound

theorem ordered_iff_not_isNaN {c : LossConfig Int Float} : c.Ordered ↔
    ∀ x ∈ c.negativeRatio :: c.armDivider :: c.epsilon :: c.anchorSizes ++ c.aspectRatios,
      ¬ Scalar.isNaN x := by
  have hreal (x : Float) : ¬ IsNaN x ↔ ¬ Scalar.isNaN x := not_congr isNaN_float
  constructor
  · intro h x hx
    exact (hreal x).mp (h.reals x hx)
  · intro h
    refine ⟨fun n _ => not_isNaN_int n, ?_, fun x hx => (hreal x).mpr (h x hx)⟩
    rintro ⟨hpos, hlt⟩
    have hpos := pos_of_atMost (above_iff.mp hpos).1
    have hlt : compare c.maxTruths 1 = .lt := by simpa [below, holds, against] using hlt
    rw [compare_lt_iff_lt] at hlt
    omega

end LossConfig

namespace Config

def described (document : Value) : Except ConfigError (LossConfig Int Float) := do
  let entries ← sectionEntries document
  rejectUnknown entries
  ofEntries entries

theorem read_eq_checked (document : Value) :
    read document = described document >>= fun c => c.checked.mapError .check := by
  simp only [read, described, bind_assoc]

/-- Settings are made out of a candidate. Those that are returned satisfy all conditions exactly when they
are in order, a candidate that satisfies them is returned as it is, and one in order that violates a
condition is refused by the check. -/
structure Validates {ι ρ : Type} [Measure ι] [Measure ρ]
    (candidate made : Except ConfigError (LossConfig ι ρ)) (InOrder : LossConfig ι ρ → Prop) : Prop where
  returned : ∀ c, made = .ok c → candidate = .ok c ∧ (c.Sound ↔ InOrder c)
  accepted : ∀ c, candidate = .ok c → c.Sound → made = .ok c
  refused : ∀ c, candidate = .ok c → InOrder c → ¬ c.Sound → ∃ e, made = .error (.check e)

theorem validates_checked {ι ρ : Type} [Measure ι] [Measure.LawfulCount ι] [Measure ρ]
    {candidate made : Except ConfigError (LossConfig ι ρ)} {InOrder : LossConfig ι ρ → Prop}
    (hmade : made = candidate >>= fun c => c.checked.mapError .check)
    (hord : ∀ c : LossConfig ι ρ, c.Ordered ↔ InOrder c) : Validates candidate made InOrder where
  returned c h := by
    rw [hmade] at h
    obtain ⟨c', hc', h⟩ := exists_of_bind_eq_ok h
    cases hcheck : c'.check with
    | error e =>
      rw [LossConfig.checked, hcheck] at h
      cases h
    | ok u =>
      rw [LossConfig.checked, hcheck] at h
      obtain rfl : c' = c := Except.ok.inj h
      rw [LossConfig.sound_iff, hord, hcheck]
      exact ⟨hc', and_iff_right rfl⟩
  accepted c hc h := by
    rw [hmade, hc]
    simp only [bind, Except.bind, LossConfig.checked, (LossConfig.sound_iff.mp h).1]
    rfl
  refused c hc hin h := by
    rw [LossConfig.sound_iff, hord, and_iff_left hin] at h
    rw [hmade, hc]
    cases hcheck : c.check with
    | ok u => exact absurd hcheck h
    | error e =>
      refine ⟨e, ?_⟩
      simp only [bind, Except.bind, LossConfig.checked, hcheck]
      rfl

/-- Neither way of making settings accepts one that violates a condition, as long as no quantity is given
that is not a number. -/
theorem made_sound_iff (arguments : List (Value × Value)) (document : Value) :
    Validates (given arguments) (ofArguments arguments) LossConfig.Ordered ∧
    Validates (described document) (read document) fun c =>
      ∀ x ∈ c.negativeRatio :: c.armDivider :: c.epsilon :: c.anchorSizes ++ c.aspectRatios,
        ¬ Scalar.isNaN x :=
  ⟨validates_checked rfl fun _ => Iff.rfl,
    validates_checked (read_eq_checked document) fun _ => LossConfig.ordered_iff_not_isNaN⟩

section Tiny

open Tiny

theorem made_sound_iff_tiny : Config.read config.toMap = .ok config ∧ config.Sound := by
  have hreturned := ((made_sound_iff [] config.toMap).2.returned config Binary.read_config).2
  exact ⟨Binary.read_config, hreturned.mpr (by decide +kernel)⟩

/-- A ratio of negatives that is not a number is not less than zero, and is accepted. -/
theorem read_not_sound : ∃ c, read (.map [(.ofString "negative_ratio", .float (0 / 0))]) = .ok c ∧
    ¬ c.Sound := by
  refine ⟨{ LossConfig.default with negativeRatio := 0 / 0 }, ?_, fun h => ?_⟩
  · have hcheck : ({ LossConfig.default with negativeRatio := 0 / 0 } : LossConfig Int Float).check =
        .ok () := by
      decide +kernel
    rw [read_eq_checked]
    have hd : described (.map [(.ofString "negative_ratio", .float (0 / 0))]) =
        .ok { LossConfig.default with negativeRatio := 0 / 0 } := rfl
    simp only [hd, bind, Except.bind, LossConfig.checked, hcheck]
    rfl
  · exact absurd h.negativeRatio (by decide +kernel)

end Tiny

end Config

end AnchorLoss
