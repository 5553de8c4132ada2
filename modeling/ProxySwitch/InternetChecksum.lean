import Mathlib.Algebra.BigOperators.Intervals
import Mathlib.Data.Nat.ModEq
import Mathlib.Tactic.Linarith
import Mathlib.Tactic.Ring

set_option autoImplicit false

namespace ProxySwitch.InternetChecksum

section Carries
variable {B : ℕ}

theorem carries_lt (hB : 2 ≤ B) {s : ℕ} (h : B ≤ s) : s % B + s / B < s := by
  have hsplit := Nat.mod_add_div s B
  have hpos : 0 < s / B := Nat.div_pos h (by omega)
  have hle : 2 * (s / B) ≤ B * (s / B) := Nat.mul_le_mul_right _ hB
  omega

/-- The carries are added to the lowest digit until there are none. -/
def fold (B : ℕ) [hB : B.AtLeastTwo] (s : ℕ) : ℕ :=
  if s < B then s else fold B (s % B + s / B)
termination_by s
decreasing_by exact carries_lt hB.prop (by omega)

instance word_atLeastTwo : Nat.AtLeastTwo 65536 := ⟨by decide⟩

variable [hB : B.AtLeastTwo] {s t x : ℕ}

theorem fold_of_lt (h : s < B) : fold B s = s := by
  rw [fold, if_pos h]

theorem fold_of_le (h : B ≤ s) : fold B s = fold B (s % B + s / B) := by
  rw [fold, if_neg (by omega)]

/-- The digital root in base `B`. -/
theorem fold_eq (s : ℕ) : fold B s = if s = 0 then 0 else (s - 1) % (B - 1) + 1 := by
  have htwo : 2 ≤ B := hB.prop
  induction s using Nat.strong_induction_on with
  | _ s ih =>
    by_cases h : s < B
    · rw [fold_of_lt h]
      split
      · assumption
      · rw [Nat.mod_eq_of_lt (by omega)]
        omega
    · have hle : B ≤ s := by omega
      have hsplit := Nat.mod_add_div s B
      have hpos : 0 < s / B := Nat.div_pos hle (by omega)
      have hstep : s - 1 = s % B + s / B - 1 + (B - 1) * (s / B) := by
        rw [Nat.sub_mul, one_mul]
        have hmul : s / B ≤ B * (s / B) := Nat.le_mul_of_pos_left _ (by omega)
        omega
      rw [fold_of_le hle, ih _ (carries_lt htwo hle), if_neg (by omega), if_neg (by omega), hstep,
        Nat.add_mul_mod_self_left]

theorem fold_lt (s : ℕ) : fold B s < B := by
  have htwo : 2 ≤ B := hB.prop
  have hmod := Nat.mod_lt (s - 1) (show 0 < B - 1 by omega)
  rw [fold_eq]
  split <;> omega

theorem fold_eq_zero : fold B s = 0 ↔ s = 0 := by
  rw [fold_eq]
  split <;> omega

theorem fold_modEq (s : ℕ) : fold B s ≡ s [MOD B - 1] := by
  rw [fold_eq]
  split
  · simp_all [Nat.ModEq]
  · have hs : s = s - 1 + 1 := by omega
    conv_rhs => rw [hs]
    exact (Nat.mod_modEq _ _).add_right 1

theorem fold_unique (hlt : x < B) (hmod : x ≡ s [MOD B - 1]) (hzero : x = 0 ↔ s = 0) :
    x = fold B s := by
  have htwo : 2 ≤ B := hB.prop
  have hfold := fold_lt (B := B) s
  have hfold0 := fold_eq_zero (B := B) (s := s)
  have hsame : x ≡ fold B s [MOD B - 1] := hmod.trans (fold_modEq s).symm
  by_cases h0 : s = 0
  · rw [hzero.mpr h0, hfold0.mpr h0]
  · have hx : 1 ≤ x := by omega
    have hf : 1 ≤ fold B s := by omega
    have hsub : x - 1 ≡ fold B s - 1 [MOD B - 1] := by
      apply Nat.ModEq.add_right_cancel' 1
      rwa [Nat.sub_add_cancel hx, Nat.sub_add_cancel hf]
    have heq : x - 1 = fold B s - 1 := Nat.ModEq.eq_of_lt_of_lt hsub (by omega) (by omega)
    omega

theorem fold_congr (hmod : s ≡ t [MOD B - 1]) (hzero : s = 0 ↔ t = 0) : fold B s = fold B t :=
  fold_unique (fold_lt s) ((fold_modEq s).trans hmod) (fold_eq_zero.trans hzero)

/-- A word is accepted when its sum is all ones. -/
theorem fold_eq_top : fold B s = B - 1 ↔ 0 < s ∧ B - 1 ∣ s := by
  have htwo : 2 ≤ B := hB.prop
  constructor
  · intro h
    refine ⟨?_, ?_⟩
    · rw [Nat.pos_iff_ne_zero]
      intro h0
      rw [fold_eq_zero.mpr h0] at h
      omega
    · have hmod := fold_modEq (B := B) s
      rw [h] at hmod
      exact (Nat.modEq_zero_iff_dvd.mp (hmod.symm.trans (Nat.modEq_zero_iff_dvd.mpr dvd_rfl)))
  · rintro ⟨hpos, hdvd⟩
    have hmod : B - 1 ≡ s [MOD B - 1] :=
      (Nat.modEq_zero_iff_dvd.mpr dvd_rfl).trans (Nat.modEq_zero_iff_dvd.mpr hdvd).symm
    exact (fold_unique (by omega) hmod (by omega)).symm

/-- A sum together with the complement of what is left of it is accepted. -/
theorem fold_complement (s : ℕ) : fold B (s + (B - 1 - fold B s)) = B - 1 := by
  have hlt := fold_lt (B := B) s
  have hzero := fold_eq_zero (B := B) (s := s)
  have htwo : 2 ≤ B := hB.prop
  have hmod : s + (B - 1 - fold B s) ≡ fold B s + (B - 1 - fold B s) [MOD B - 1] :=
    (fold_modEq s).symm.add_right _
  rw [Nat.add_sub_cancel' (by omega)] at hmod
  refine fold_eq_top.mpr ⟨by omega, ?_⟩
  exact Nat.modEq_zero_iff_dvd.mp (hmod.trans (Nat.modEq_zero_iff_dvd.mpr dvd_rfl))

end Carries

/-! ### Sums of words -/

section Words
variable (b : ℕ)

/-- The sum of `n` digits of which every other one counts `u` and `v` times. -/
def pairSum (u v : ℕ) (m : ℕ → ℕ) (n : ℕ) : ℕ := ∑ i ∈ Finset.range n, m i * if i % 2 = 0 then u else v

/-- The sum of the two-digit words among `n` digits in base `b`, the first digit of a word being the
    higher one; a last word of one digit is filled up with a zero. -/
def wordSum (m : ℕ → ℕ) (n : ℕ) : ℕ := pairSum b 1 m n

variable {b} {m m' : ℕ → ℕ} {n k j u v : ℕ}

theorem pairSum_congr (h : ∀ i < n, m i = m' i) : pairSum u v m n = pairSum u v m' n := by
  apply Finset.sum_congr rfl
  intro i hi
  rw [h i (Finset.mem_range.mp hi)]

theorem wordSum_even (m : ℕ → ℕ) (k : ℕ) :
    wordSum b m (2 * k) = ∑ i ∈ Finset.range k, (m (2 * i) * b + m (2 * i + 1)) := by
  induction k with
  | zero => rfl
  | succ k ih =>
    rw [Finset.sum_range_succ, ← ih, wordSum, pairSum, show 2 * (k + 1) = 2 * k + 1 + 1 by ring,
      Finset.sum_range_succ, Finset.sum_range_succ, ← pairSum, ← wordSum, if_pos (by omega), if_neg (by omega),
      mul_one, add_assoc]

theorem wordSum_pad (h : ∀ i, n ≤ i → i < n + k → m i = 0) : wordSum b m (n + k) = wordSum b m n := by
  unfold wordSum pairSum
  rw [Finset.sum_range_add, Nat.add_eq_left]
  apply Finset.sum_eq_zero
  intro i hi
  have hlt := Finset.mem_range.mp hi
  rw [h _ (by omega) (by omega), zero_mul]

theorem wordSum_le (h : ∀ i < 2 * k, m i < b) : wordSum b m (2 * k) ≤ k * (b * b - 1) := by
  rw [wordSum_even]
  induction k with
  | zero => simp
  | succ k ih =>
    have hhi := h (2 * k) (by omega)
    have hlo := h (2 * k + 1) (by omega)
    have hmul : (m (2 * k) + 1) * b ≤ b * b := Nat.mul_le_mul_right b hhi
    have hrec := ih fun i hi => h i (by omega)
    rw [add_mul, one_mul] at hmul
    rw [Finset.sum_range_succ, add_mul, one_mul]
    omega

theorem wordSum_set (hj : 2 * j + 1 < n) (hhi : m (2 * j) = 0) (hlo : m (2 * j + 1) = 0)
    (h : ∀ i < n, i ≠ 2 * j → i ≠ 2 * j + 1 → m' i = m i) :
    wordSum b m' n = wordSum b m n + (m' (2 * j) * b + m' (2 * j + 1)) := by
  have hdigit : ∀ i ∈ Finset.range n, m' i * (if i % 2 = 0 then b else 1) =
      m i * (if i % 2 = 0 then b else 1) +
        ((if i = 2 * j then m' (2 * j) * b else 0) + if i = 2 * j + 1 then m' (2 * j + 1) else 0) := by
    intro i hi
    by_cases hfst : i = 2 * j
    · rw [hfst, hhi, if_pos (by omega), if_pos rfl, if_neg (by omega)]
      ring
    · by_cases hsnd : i = 2 * j + 1
      · rw [hsnd, hlo, if_neg (by omega), if_neg (by omega), if_pos rfl]
        ring
      · rw [h i (Finset.mem_range.mp hi) hfst hsnd, if_neg hfst, if_neg hsnd]
        ring
  unfold wordSum pairSum
  rw [Finset.sum_congr rfl hdigit, Finset.sum_add_distrib, Finset.sum_add_distrib,
    Finset.sum_ite_eq', Finset.sum_ite_eq', if_pos (Finset.mem_range.mpr (by omega)),
    if_pos (Finset.mem_range.mpr (by omega))]

end Words

/-! ### Byte order -/

section Swap
variable {b : ℕ} {m : ℕ → ℕ} {n s x : ℕ}

def swap (b x : ℕ) : ℕ := x % b * b + x / b

end Swap

end ProxySwitch.InternetChecksum
