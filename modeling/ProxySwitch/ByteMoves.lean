import Mathlib.Logic.Function.Basic
import Mathlib.Tactic.Common

set_option autoImplicit false

namespace ProxySwitch.ByteMoves

variable {β : Type*} (m : ℕ → β)

/-- `memmove`: the `n` elements from `src` on are copied to `dst`; the ranges may overlap. -/
def move (dst src n : ℕ) : ℕ → β := fun i =>
  if dst ≤ i ∧ i < dst + n then m (src + (i - dst)) else m i

def store (elements : List β) : ℕ → β := fun i => elements[i]?.getD (m i)

variable {m}

theorem move_inside {dst src n i : ℕ} (h : i < n) : move m dst src n (dst + i) = m (src + i) := by
  have hinside : dst ≤ dst + i ∧ dst + i < dst + n := ⟨Nat.le_add_right _ _, by omega⟩
  rw [move, if_pos hinside, Nat.add_sub_cancel_left]

theorem store_inside {elements : List β} {i : ℕ} (h : i < elements.length) :
    store m elements i = elements[i] := by
  rw [store, List.getElem?_eq_getElem h, Option.getD_some]

theorem store_outside {elements : List β} {i : ℕ} (h : elements.length ≤ i) :
    store m elements i = m i := by
  rw [store, List.getElem?_eq_none h, Option.getD_none]

theorem store_move_behind {elements : List β} {n i : ℕ} (h : i < n) :
    store (move m elements.length 0 n) elements (elements.length + i) = m i := by
  rw [store_outside (Nat.le_add_right _ _), move_inside h, Nat.zero_add]

theorem move_front {k n i : ℕ} (h : i < n) : move m 0 k n i = m (k + i) := by
  have hmove : move m 0 k n (0 + i) = m (k + i) := move_inside h
  rwa [Nat.zero_add] at hmove

end ProxySwitch.ByteMoves
