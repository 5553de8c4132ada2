import Mathlib.Data.List.Basic
import Mathlib.Tactic.Common

set_option autoImplicit false

namespace ProxySwitch.RingWindows

variable {β : Type*}

def wrap (size offset : ℕ) : ℕ := if offset < size then offset else offset - size

/-- The addresses of `count` cells from the offset `head` on. -/
def slots (base size head count : ℕ) : List ℕ :=
  (List.range count).map fun i => base + wrap size (head + i)

def store (memory : ℕ → β) (address : ℕ) (block : List β) : ℕ → β := fun a =>
  if address ≤ a then (block[a - address]?).getD (memory a) else memory a

variable {base size head count : ℕ}

theorem wrap_cases (size offset : ℕ) :
    (offset < size ∧ wrap size offset = offset) ∨
      (size ≤ offset ∧ wrap size offset = offset - size) := by
  unfold wrap
  split
  · exact .inl ⟨‹_›, rfl⟩
  · exact .inr ⟨by omega, rfl⟩

theorem wrap_lt {offset : ℕ} (h : offset < 2 * size) : wrap size offset < size := by
  have hwrap := wrap_cases size offset
  omega

theorem wrap_wrap_add {offset more : ℕ} (h : offset + more < 2 * size) :
    wrap size (wrap size offset + more) = wrap size (offset + more) := by
  have hfirst := wrap_cases size offset
  have hboth := wrap_cases size (offset + more)
  have hnext := wrap_cases size (wrap size offset + more)
  omega

/-- A block that fits before the end of the ring leaves the next one behind it, or at the start. -/
theorem wrap_add_block {head count n : ℕ} (hhead : head < size)
    (hfit : wrap size (head + count) + n ≤ size) (hfree : n + count ≤ size) :
    wrap size (head + (count + n)) =
      if wrap size (head + count) + n = size then 0 else wrap size (head + count) + n := by
  have hold := wrap_cases size (head + count)
  have hnew := wrap_cases size (head + (count + n))
  split <;> omega

@[simp] theorem slots_zero : slots base size head 0 = [] := rfl

@[simp] theorem length_slots : (slots base size head count).length = count := by
  simp [slots]

theorem mem_slots {a : ℕ} :
    a ∈ slots base size head count ↔ ∃ i < count, a = base + wrap size (head + i) := by
  simp only [slots, List.mem_map, List.mem_range, eq_comm]

/-- A window is one window followed by another that starts where the first one ends. -/
theorem slots_add {m n : ℕ} (hhead : head < size) (hfit : m + n ≤ size) :
    slots base size head (m + n) =
      slots base size head m ++ slots base size (wrap size (head + m)) n := by
  have htail : (List.range n).map (fun i => base + wrap size (head + (m + i))) =
      (List.range n).map fun i => base + wrap size (wrap size (head + m) + i) := by
    refine List.map_congr_left fun i hi => ?_
    have hlt := List.mem_range.mp hi
    rw [wrap_wrap_add (by omega), Nat.add_assoc]
  simp only [slots, List.range_add, List.map_append, List.map_map, Function.comp_def]
  rw [htail]

theorem slots_eq_range (hfit : head + count ≤ size) :
    slots base size head count = (List.range count).map fun i => base + head + i := by
  refine List.map_congr_left fun i hi => ?_
  have hlt := List.mem_range.mp hi
  rw [wrap, if_pos (by omega), Nat.add_assoc]

theorem slots_avoid {len a : ℕ} (hcount : len + count ≤ size)
    (ha : a ∈ slots base size head count) :
    a < base + wrap size (head + count) ∨ base + wrap size (head + count) + len ≤ a := by
  obtain ⟨i, hi, rfl⟩ := mem_slots.mp ha
  have hslot := wrap_cases size (head + i)
  have hend := wrap_cases size (head + count)
  omega

theorem map_store_of_avoid {memory : ℕ → β} {address : ℕ} {block : List β} {l : List ℕ}
    (h : ∀ a ∈ l, a < address ∨ address + block.length ≤ a) :
    l.map (store memory address block) = l.map memory := by
  refine List.map_congr_left fun a ha => ?_
  unfold store
  rcases h a ha with hlt | hle
  · rw [if_neg (by omega)]
  · rw [List.getElem?_eq_none (by omega), Option.getD_none, ite_self]

theorem map_store_block (memory : ℕ → β) (address : ℕ) (block : List β) :
    (List.range block.length).map (fun i => store memory address block (address + i)) = block := by
  apply List.ext_getElem
  · simp
  · intro i h _
    have hi : i < block.length := by simpa using h
    simp [store, hi]

theorem map_slots_store_free {memory : ℕ → β} {offset len : ℕ} {cell : β} (hoffset : offset < len)
    (hcount : len + count ≤ size) :
    (slots base size head count).map
        (store memory (base + wrap size (head + count) + offset) [cell]) =
      (slots base size head count).map memory := by
  refine map_store_of_avoid fun a ha => ?_
  have havoid := slots_avoid hcount ha
  simp only [List.length_singleton]
  omega

variable (base count) in
theorem map_slots_store (memory : ℕ → β) (block : List β) (hhead : head < size)
    (hcount : block.length + count ≤ size)
    (hfit : wrap size (head + count) + block.length ≤ size) :
    (slots base size head (count + block.length)).map
        (store memory (base + wrap size (head + count)) block) =
      (slots base size head count).map memory ++ block := by
  rw [slots_add hhead (by omega), List.map_append,
    map_store_of_avoid fun a ha => slots_avoid hcount ha, slots_eq_range hfit, List.map_map]
  exact congrArg _ (map_store_block memory _ block)

end ProxySwitch.RingWindows
