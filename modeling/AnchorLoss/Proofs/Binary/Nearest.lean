import Mathlib
import AnchorLoss.Proofs.Binary.Zero

namespace AnchorLoss

namespace Binary

open Float.Model (Format UnpackedFloat totalExponent)
open Float.Model.UnpackedFloat

/-- What a mantissa with its residual bits says about the number `y` that it stands for. -/
inductive Located : ExtendedMantissa → ℚ → Prop where
  | exact (m : Nat) (y : ℚ) (h : y = m) : Located ⟨m, false, false⟩ y
  | below (m : Nat) (y : ℚ) (hl : m < y) (hr : y < m + 1 / 2) : Located ⟨m, false, true⟩ y
  | half (m : Nat) (y : ℚ) (h : y = m + 1 / 2) : Located ⟨m, true, false⟩ y
  | above (m : Nat) (y : ℚ) (hl : m + 1 / 2 < y) (hr : y < m + 1) : Located ⟨m, true, true⟩ y

theorem shiftRightOne_even (j : Nat) (r s : Bool) :
    (⟨2 * j, r, s⟩ : ExtendedMantissa).shiftRightOne = ⟨j, false, r || s⟩ := by
  simp [ExtendedMantissa.shiftRightOne]

theorem shiftRightOne_odd (j : Nat) (r s : Bool) :
    (⟨2 * j + 1, r, s⟩ : ExtendedMantissa).shiftRightOne = ⟨j, true, r || s⟩ := by
  have hdiv : (2 * j + 1) / 2 = j := by omega
  have hmod : (2 * j + 1) % 2 = 1 := by omega
  simp [ExtendedMantissa.shiftRightOne, hdiv, hmod]

theorem Located.eq_or_between {m : Nat} {r s : Bool} {y : ℚ} (h : Located ⟨m, r, s⟩ y) :
    (r || s) = false ∧ y = m ∨ (r || s) = true ∧ m < y ∧ y < m + 1 := by
  cases h with
  | exact _ _ h => exact .inl ⟨rfl, h⟩
  | below _ _ hl hr => exact .inr ⟨rfl, hl, by linarith⟩
  | half _ _ h => exact .inr ⟨rfl, by linarith, by linarith⟩
  | above _ _ hl hr => exact .inr ⟨rfl, by linarith, hr⟩

-- only whether `y` is the mantissa itself matters: the residual bits go into the sticky one
theorem located_shiftRightOne {em : ExtendedMantissa} {y : ℚ} (h : Located em y) :
    Located em.shiftRightOne (y / 2) := by
  obtain ⟨m, r, s⟩ := em
  obtain ⟨j, rfl | rfl⟩ := Nat.even_or_odd' m
  · rw [shiftRightOne_even]
    obtain ⟨hrs, h⟩ | ⟨hrs, hl, hr⟩ := h.eq_or_between
    · rw [hrs]
      apply Located.exact
      rw [h]
      push_cast
      ring
    · rw [hrs]
      push_cast at hl hr
      apply Located.below <;> linarith
  · rw [shiftRightOne_odd]
    obtain ⟨hrs, h⟩ | ⟨hrs, hl, hr⟩ := h.eq_or_between
    · rw [hrs]
      apply Located.half
      rw [h]
      push_cast
      ring
    · rw [hrs]
      push_cast at hl hr
      apply Located.above <;> linarith

theorem located_shiftRight {em : ExtendedMantissa} {y : ℚ} (h : Located em y) (k : Nat) :
    Located (em >>> k) (y / 2 ^ k) := by
  induction k with
  | zero =>
    rw [pow_zero, div_one]
    exact h
  | succ k ih =>
    have hk : y / 2 ^ (k + 1) = y / 2 ^ k / 2 := by rw [pow_succ, div_div]
    rw [hk]
    exact located_shiftRightOne ih

/-- A natural number nearest to `y`, and even if there are two. -/
structure Nearest (q : Nat) (y : ℚ) : Prop where
  low : y - 1 / 2 ≤ q
  high : q ≤ y + 1 / 2
  even_low : (q : ℚ) = y - 1 / 2 → q % 2 = 0
  even_high : (q : ℚ) = y + 1 / 2 → q % 2 = 0

theorem Nearest.mono {q r : Nat} {y z : ℚ} (hq : Nearest q y) (hr : Nearest r z) (h : y ≤ z) :
    q ≤ r := by
  by_contra hlt
  have hsucc : (r : ℚ) + 1 ≤ q := by exact_mod_cast Nat.lt_of_not_le hlt
  have hlow := hr.low
  have hhigh := hq.high
  -- two numbers that differ are nearest to one point only half-way between them
  have hqeq : (q : ℚ) = y + 1 / 2 := by linarith
  have hreq : (r : ℚ) = z - 1 / 2 := by linarith
  have hqr : (q : ℚ) = r + 1 := by linarith
  have hnat : q = r + 1 := by exact_mod_cast hqr
  have hqe := hq.even_high hqeq
  have hre := hr.even_low hreq
  omega

theorem Nearest.of_nat (q : Nat) : Nearest q q :=
  ⟨by linarith, by linarith, fun h => by linarith, fun h => by linarith⟩

theorem nearest_of_located {em : ExtendedMantissa} {y : ℚ} (h : Located em y) :
    Nearest em.roundedMantissa y := by
  cases h with
  | exact m y h =>
    rw [h]
    exact Nearest.of_nat m
  | below m y hl hr =>
    change Nearest m y
    exact ⟨by linarith, by linarith, fun h => by linarith, fun h => by linarith⟩
  | half m y h =>
    change Nearest (m + m % 2) y
    obtain hm | hm := Nat.mod_two_eq_zero_or_one m
    · rw [h, hm]
      exact ⟨by norm_num, by push_cast; linarith, fun _ => hm, fun _ => hm⟩
    · have hs : (m + 1) % 2 = 0 := by omega
      rw [h, hm]
      exact ⟨by push_cast; linarith, by push_cast; linarith, fun _ => hs, fun _ => hs⟩
  | above m y hl hr =>
    change Nearest (m + 1) y
    refine ⟨?_, ?_, fun h => ?_, fun h => ?_⟩ <;> push_cast at * <;> linarith

def scaled (m : Nat) (e : Int) : ℚ := m * 2 ^ e

theorem scaled_pos {m : Nat} (hm : 0 < m) (e : Int) : 0 < scaled m e :=
  mul_pos (Nat.cast_pos.mpr hm) (zpow_pos two_pos e)

theorem scaled_mul (m n : Nat) (e f : Int) : scaled (m * n) (e + f) = scaled m e * scaled n f := by
  rw [scaled, scaled, scaled, zpow_add₀ two_ne_zero]
  push_cast
  ring

section Grid

variable (spec : Format) {m n : Nat} {e f : Int}

/-- The exponent that a number has once it is rounded. -/
def grid (m : Nat) (e : Int) : Int := spec.targetExponent (totalExponent m e)

theorem minExponent_le_grid (m : Nat) (e : Int) : spec.minExponent ≤ grid spec m e :=
  le_max_right _ _

theorem scaled_lt (m : Nat) (e : Int) : scaled m e < 2 ^ (grid spec m e + spec.mantissaBits) := by
  have hlog : (m : ℚ) < 2 ^ ((m.log2 + 1 : Nat) : Int) := by
    rw [zpow_natCast]
    exact_mod_cast Nat.lt_log2_self
  have hexp : ((m.log2 + 1 : Nat) : Int) + e ≤ grid spec m e + spec.mantissaBits := by
    simp only [grid, Format.targetExponent, totalExponent]
    omega
  calc scaled m e < 2 ^ ((m.log2 + 1 : Nat) : Int) * 2 ^ e :=
        mul_lt_mul_of_pos_right hlog (zpow_pos two_pos e)
    _ = 2 ^ (((m.log2 + 1 : Nat) : Int) + e) := (zpow_add₀ two_ne_zero _ _).symm
    _ ≤ 2 ^ (grid spec m e + spec.mantissaBits) := zpow_le_zpow_right₀ one_le_two hexp

theorem le_scaled (hm : 0 < m) (h : grid spec m e ≠ spec.minExponent) :
    2 ^ (grid spec m e + spec.mantissaBits - 1) ≤ scaled m e := by
  have hlog : (2 : ℚ) ^ (m.log2 : Int) ≤ m := by
    rw [zpow_natCast]
    exact_mod_cast Nat.log2_self_le hm.ne'
  have hexp : grid spec m e + spec.mantissaBits - 1 = (m.log2 : Int) + e := by
    simp only [grid, Format.targetExponent, totalExponent] at h ⊢
    omega
  rw [hexp, zpow_add₀ two_ne_zero]
  exact mul_le_mul_of_nonneg_right hlog (zpow_pos two_pos e).le

theorem grid_mono (hm : 0 < m) (h : scaled m e ≤ scaled n f) : grid spec m e ≤ grid spec n f := by
  by_contra hlt
  have hmin := minExponent_le_grid spec n f
  have hne : grid spec m e ≠ spec.minExponent := by omega
  have hexp : grid spec n f + spec.mantissaBits ≤ grid spec m e + spec.mantissaBits - 1 := by omega
  have hpow : (2 : ℚ) ^ (grid spec n f + spec.mantissaBits) ≤
      2 ^ (grid spec m e + spec.mantissaBits - 1) := zpow_le_zpow_right₀ one_le_two hexp
  have hlow := le_scaled spec hm hne
  have hhigh := scaled_lt spec n f
  linarith

theorem located_shiftToTargetExponent (h : e ≤ grid spec m e) :
    Located (shiftToTargetExponent spec m e .exact).1 (scaled m e / 2 ^ grid spec m e) ∧
      (shiftToTargetExponent spec m e .exact).2 = grid spec m e := by
  obtain ⟨k, hk⟩ := Int.le.dest h
  have hshift : (grid spec m e - e).toNat = k := by omega
  have hy : scaled m e / 2 ^ grid spec m e = m / 2 ^ k := by
    rw [scaled, ← hk, zpow_add₀ two_ne_zero, zpow_natCast, mul_comm,
      mul_div_mul_left _ _ (zpow_pos two_pos e).ne']
  unfold grid at hshift hk
  constructor
  · rw [hy]
    simp only [shiftToTargetExponent, shiftToExponent, hshift]
    exact located_shiftRight (.exact m m rfl) k
  · simp only [shiftToTargetExponent, shiftToExponent, hshift]
    exact hk

def carried (s : Sign) (q : Nat) (t : Int) : UnpackedFloat :=
  if h : q = 0 then .zero s
  else if q = 2 ^ spec.mantissaBits then
    .finite s (2 ^ spec.mantissaBitsWithoutImplicit) (t + 1) (Nat.two_pow_pos _)
  else .finite s q t (Nat.pos_of_ne_zero h)

theorem shiftToTargetExponent_of_lt {q : Nat} {t : Int} (hq : q < 2 ^ spec.mantissaBits)
    (ht : spec.minExponent ≤ t) :
    shiftToTargetExponent spec q t .exact = (⟨q, false, false⟩, t) := by
  have hlog : q.log2 < spec.mantissaBits := by
    by_cases h0 : q = 0
    · rw [h0, Nat.log2_zero, Format.mantissaBits]
      omega
    · exact (Nat.log2_lt h0).mpr hq
  have hshift : (spec.targetExponent (totalExponent q t) - t).toNat = 0 := by
    simp only [Format.targetExponent, totalExponent]
    omega
  simp only [shiftToTargetExponent, shiftToExponent, hshift]
  rw [Nat.cast_zero, add_zero]
  rfl

theorem shiftToTargetExponent_two_pow {t : Int} (ht : spec.minExponent ≤ t) :
    shiftToTargetExponent spec (2 ^ spec.mantissaBits) t .exact =
      (⟨2 ^ spec.mantissaBitsWithoutImplicit, false, false⟩, t + 1) := by
  have hshift : (spec.targetExponent (totalExponent (2 ^ spec.mantissaBits) t) - t).toNat = 1 := by
    simp only [Format.targetExponent, totalExponent, Nat.log2_two_pow]
    omega
  have heven : 2 ^ spec.mantissaBits = 2 * 2 ^ spec.mantissaBitsWithoutImplicit := by
    rw [Format.mantissaBits, pow_add, pow_one]
  simp only [shiftToTargetExponent, shiftToExponent, hshift]
  rw [heven]
  exact congrArg (·, t + 1) (shiftRightOne_even _ false false)

/-- Rounding takes a nearest mantissa on the grid of the number. -/
theorem roundWithAccuracy_eq (s : Sign) (hm : 0 < m) (h : e ≤ grid spec m e) :
    ∃ q, Nearest q (scaled m e / 2 ^ grid spec m e) ∧ q ≤ 2 ^ spec.mantissaBits ∧
      (grid spec m e = spec.minExponent ∨ 2 ^ spec.mantissaBitsWithoutImplicit ≤ q) ∧
      roundWithAccuracy spec s m e .exact = carried spec s q (grid spec m e) := by
  obtain ⟨hloc, hexp⟩ := located_shiftToTargetExponent spec h
  have hq := nearest_of_located hloc
  have hpos := zpow_pos (two_pos : (0 : ℚ) < 2) (grid spec m e)
  have hle : (shiftToTargetExponent spec m e .exact).1.roundedMantissa ≤ 2 ^ spec.mantissaBits := by
    apply hq.mono (Nearest.of_nat _)
    rw [div_le_iff₀ hpos, Nat.cast_pow, Nat.cast_ofNat, ← zpow_natCast, ← zpow_add₀ two_ne_zero,
      add_comm]
    exact (scaled_lt spec m e).le
  refine ⟨_, hq, hle, ?_, ?_⟩
  · by_cases hmin : grid spec m e = spec.minExponent
    · exact .inl hmin
    · apply Or.inr
      apply (Nearest.of_nat _).mono hq
      have hbits : grid spec m e + spec.mantissaBits - 1 =
          spec.mantissaBitsWithoutImplicit + grid spec m e := by
        simp only [Format.mantissaBits]
        omega
      rw [le_div_iff₀ hpos, Nat.cast_pow, Nat.cast_ofNat, ← zpow_natCast, ← zpow_add₀ two_ne_zero,
        ← hbits]
      exact le_scaled spec hm hmin
  · -- a second shift takes place only if rounding has carried into a new bit
    have hmin : spec.minExponent ≤ (shiftToTargetExponent spec m e .exact).2 := by
      rw [hexp]
      exact minExponent_le_grid spec m e
    simp only [roundWithAccuracy]
    rw [hexp] at hmin ⊢
    generalize (shiftToTargetExponent spec m e .exact).1.roundedMantissa = q at hle ⊢
    obtain hlt | rfl := Nat.lt_or_eq_of_le hle
    · simp only [shiftToTargetExponent_of_lt spec hlt hmin, carried, hlt.ne, if_false]
    · have h0 : (2 : Nat) ^ spec.mantissaBits ≠ 0 := (Nat.two_pow_pos _).ne'
      have h1 : (2 : Nat) ^ spec.mantissaBitsWithoutImplicit ≠ 0 := (Nat.two_pow_pos _).ne'
      simp only [shiftToTargetExponent_two_pow spec hmin, carried, h0, h1, dite_false, if_true]

end Grid

end Binary

end AnchorLoss
