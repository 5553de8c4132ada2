import Mathlib.Data.List.Basic
import Mathlib.Tactic.Common

set_option autoImplicit false

namespace ProxySwitch.OptionalFilters

variable {ε ρ ν : Type*} (parse : ε → Option ρ) (mem : ρ → ν → Prop) (valid : ε → ν → Prop)

def Admits (ranges : List ρ) (v : ν) : Prop := ranges = [] ∨ ∃ r ∈ ranges, mem r v

/-- Some text gives a value by its own meaning, and what the reader makes of the texts that
    have no meaning lies in those that have one. -/
structure Bounded (texts : List ε) : Prop where
  read : ∃ e ∈ texts, parse e ≠ none
  malformed : ∀ e ∈ texts, (∀ v, ¬ valid e v) → ∀ r, parse e = some r → ∀ v, mem r v →
    ∃ e' ∈ texts, valid e' v

variable {parse mem valid}

theorem admits_of_mem {ranges : List ρ} {r : ρ} {v : ν} (hr : r ∈ ranges) (hv : mem r v) :
    Admits mem ranges v := .inr ⟨r, hr, hv⟩

theorem exists_admits [Nonempty ν] {ranges : List ρ} (h : ∀ r ∈ ranges, ∃ v, mem r v) :
    ∃ v, Admits mem ranges v := by
  cases ranges with
  | nil => exact ⟨Classical.arbitrary ν, .inl rfl⟩
  | cons r ranges =>
    obtain ⟨v, hv⟩ := h r List.mem_cons_self
    exact ⟨v, admits_of_mem List.mem_cons_self hv⟩

theorem admits_subset_iff [Nonempty ν] {texts : List ε}
    (nonempty : ∀ e r, parse e = some r → ∃ v, mem r v)
    (sound : ∀ e v, valid e v → ∃ r, parse e = some r)
    (agree : ∀ e r v v', parse e = some r → valid e v' → (mem r v ↔ valid e v)) :
    (∀ v, Admits mem (texts.filterMap parse) v → ∃ e ∈ texts, valid e v) ↔
      Bounded parse mem valid texts := by
  constructor
  · intro h
    refine ⟨?_, fun e he _ r hr v hv => h v (admits_of_mem (List.mem_filterMap.mpr ⟨e, he, hr⟩) hv)⟩
    obtain ⟨v, hv⟩ : ∃ v, Admits mem (texts.filterMap parse) v :=
      exists_admits fun r hr => by
        obtain ⟨e, _, he⟩ := List.mem_filterMap.mp hr
        exact nonempty e r he
    obtain ⟨e, he, hev⟩ := h v hv
    obtain ⟨r, hr⟩ := sound e v hev
    exact ⟨e, he, by simp [hr]⟩
  · rintro ⟨⟨e₀, he₀, hread⟩, hmal⟩ v (hnil | ⟨r, hr, hv⟩)
    · -- a text that is read leaves a range
      obtain ⟨r, hr⟩ := Option.ne_none_iff_exists'.mp hread
      exact absurd (List.mem_filterMap.mpr ⟨e₀, he₀, hr⟩) (by simp [hnil])
    · obtain ⟨e, he, hread⟩ := List.mem_filterMap.mp hr
      by_cases hvalid : ∃ v', valid e v'
      · obtain ⟨v', hv'⟩ := hvalid
        exact ⟨e, he, (agree e r v v' hread hv').mp hv⟩
      · exact hmal e he (not_exists.mp hvalid) r hread v hv

/-- Two filters side by side are bounded when each is, as each admits something. -/
theorem forall_admits_and_iff {ρ' ν' : Type*} {mem' : ρ' → ν' → Prop} {A : List ρ}
    {A' : List ρ'} {P : ν → Prop} {P' : ν' → Prop} (hA : ∃ v, Admits mem A v)
    (hA' : ∃ v, Admits mem' A' v) :
    (∀ v v', Admits mem A v → Admits mem' A' v' → P v ∧ P' v') ↔
      (∀ v, Admits mem A v → P v) ∧ ∀ v, Admits mem' A' v → P' v := by
  obtain ⟨w, hw⟩ := hA
  obtain ⟨w', hw'⟩ := hA'
  constructor
  · intro h
    exact ⟨fun v hv => (h v w' hv hw').1, fun v hv => (h w v hw hv).2⟩
  · rintro ⟨h, h'⟩ v v' hv hv'
    exact ⟨h v hv, h' v' hv'⟩

end ProxySwitch.OptionalFilters
