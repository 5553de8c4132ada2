import Mathlib.Data.BitVec
import Mathlib.Tactic.Common
import Mathlib.Tactic.IntervalCases

set_option autoImplicit false

namespace ProxySwitch.PrefixMasks

def leadingOnes (w : ℕ) : ℕ → BitVec w
  | 0 => 0
  | n + 1 => (leadingOnes w n >>> 1) ||| BitVec.twoPow w (w - 1)

theorem getLsbD_leadingOnes {w n i : ℕ} (hn : n ≤ w) (hi : i < w) :
    (leadingOnes w n).getLsbD i = decide (w - n ≤ i) := by
  induction n generalizing i with
  | zero =>
    simp [leadingOnes, hi]
  | succ n ih =>
    rw [leadingOnes, BitVec.getLsbD_or, BitVec.getLsbD_ushiftRight, BitVec.getLsbD_twoPow]
    by_cases hlast : i = w - 1
    · subst i
      have hmem : w - (n + 1) ≤ w - 1 := by omega
      simp [hi, hmem]
    · have hnext : 1 + i < w := by omega
      rw [ih (by omega) hnext]
      have hne : ¬ w - 1 = i := fun h => hlast h.symm
      have hshift : w - n ≤ 1 + i ↔ w - (n + 1) ≤ i := by omega
      simp [hne, hshift]

theorem and_leadingOnes_eq_iff {w n : ℕ} (hn : n ≤ w) (a b : BitVec w) :
    a &&& leadingOnes w n = b &&& leadingOnes w n ↔ a >>> (w - n) = b >>> (w - n) := by
  constructor
  · intro h
    apply BitVec.eq_of_getLsbD_eq
    intro i hi
    rw [BitVec.getLsbD_ushiftRight, BitVec.getLsbD_ushiftRight]
    by_cases hin : w - n + i < w
    · have hbit := congrArg (fun x => x.getLsbD (w - n + i)) h
      simpa [getLsbD_leadingOnes hn hin] using hbit
    · rw [BitVec.getLsbD_of_ge _ _ (by omega), BitVec.getLsbD_of_ge _ _ (by omega)]
  · intro h
    apply BitVec.eq_of_getLsbD_eq
    intro i hi
    rw [BitVec.getLsbD_and, BitVec.getLsbD_and, getLsbD_leadingOnes hn hi]
    by_cases hin : w - n ≤ i
    · have hbit := congrArg (fun x => x.getLsbD (i - (w - n))) h
      simp only [BitVec.getLsbD_ushiftRight] at hbit
      rw [show w - n + (i - (w - n)) = i by omega] at hbit
      rw [hbit]
    · simp [hin]

def swapBytes (x : BitVec 32) : BitVec 32 :=
  x.extractLsb' 0 8 ++ x.extractLsb' 8 8 ++ x.extractLsb' 16 8 ++ x.extractLsb' 24 8

theorem getLsbD_swapBytes (x : BitVec 32) {i : ℕ} (hi : i < 32) :
    (swapBytes x).getLsbD i = x.getLsbD (8 * (3 - i / 8) + i % 8) := by
  simp only [swapBytes, BitVec.getLsbD_append, BitVec.getLsbD_extractLsb']
  interval_cases i <;> rfl

@[simp] theorem swapBytes_swapBytes (x : BitVec 32) : swapBytes (swapBytes x) = x := by
  apply BitVec.eq_of_getLsbD_eq
  intro i hi
  rw [getLsbD_swapBytes _ hi, getLsbD_swapBytes _ (by omega)]
  congr 1
  omega

theorem swapBytes_injective : Function.Injective swapBytes :=
  Function.LeftInverse.injective swapBytes_swapBytes

theorem swapBytes_and (x y : BitVec 32) : swapBytes (x &&& y) = swapBytes x &&& swapBytes y := by
  apply BitVec.eq_of_getLsbD_eq
  intro i hi
  simp only [BitVec.getLsbD_and, getLsbD_swapBytes _ hi]

theorem and_swapBytes_leadingOnes_eq_iff {n : ℕ} (hn : n ≤ 32) (a b : BitVec 32) :
    a &&& swapBytes (leadingOnes 32 n) = b &&& swapBytes (leadingOnes 32 n) ↔
      swapBytes a >>> (32 - n) = swapBytes b >>> (32 - n) := by
  have hswap : ∀ x : BitVec 32, x &&& swapBytes (leadingOnes 32 n) =
      swapBytes (swapBytes x &&& leadingOnes 32 n) := by
    intro x
    rw [swapBytes_and, swapBytes_swapBytes]
  rw [hswap a, hswap b, swapBytes_injective.eq_iff]
  exact and_leadingOnes_eq_iff hn _ _

end ProxySwitch.PrefixMasks
