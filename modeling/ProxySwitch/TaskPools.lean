import Mathlib.Algebra.BigOperators.Group.List.Basic
import Mathlib.Algebra.GroupWithZero.Nat
import ProxySwitch.TransitionRuns

set_option autoImplicit false

/-!
# Pools of tasks over a shared state

Tasks take turns in any order. A turn changes the shared state and replaces the task by
what is left of it and by the tasks it started.
-/
namespace ProxySwitch.TaskPools

variable {σ τ ι ε ω : Type*}

structure Pool (σ τ : Type*) where
  shared : σ
  tasks : List τ

/-- A task enters, the task at an index takes a turn, or the shared state changes on its own. -/
inductive Label (ι ε ω : Type*)
  | start (entry : ι)
  | run (index : ℕ) (choice : ε)
  | change (event : ω)

variable (enter : ι → τ) (turn : Pool σ τ → τ → ε → Option (σ × List τ))
  (outside : σ → ω → Option σ)

def Pool.others (p : Pool σ τ) (index : ℕ) : List τ := p.tasks.take index ++ p.tasks.drop (index + 1)

def step (p : Pool σ τ) : Label ι ε ω → Option (Pool σ τ)
  | .start entry => some { p with tasks := enter entry :: p.tasks }
  | .run index choice =>
    match p.tasks[index]? with
    | none => none
    | some t => (turn p t choice).map fun next =>
        { shared := next.1, tasks := next.2 ++ p.others index }
  | .change event => (outside p.shared event).map fun s => { p with shared := s }

variable {enter turn outside}

theorem tasks_perm {p : Pool σ τ} {index : ℕ} {t : τ} (h : p.tasks[index]? = some t) :
    p.tasks.Perm (t :: p.others index) := by
  obtain ⟨hlt, rfl⟩ := List.getElem?_eq_some_iff.mp h
  have hsplit : p.tasks = p.tasks.take index ++ p.tasks[index] :: p.tasks.drop (index + 1) := by
    rw [← List.drop_eq_getElem_cons hlt, List.take_append_drop]
  conv_lhs => rw [hsplit]
  exact List.perm_middle

theorem mem_tasks_iff {p : Pool σ τ} {index : ℕ} {t : τ} (h : p.tasks[index]? = some t) (u : τ) :
    u ∈ p.tasks ↔ u = t ∨ u ∈ p.others index := by
  rw [(tasks_perm h).mem_iff, List.mem_cons]

theorem sum_tasks {p : Pool σ τ} {index : ℕ} {t : τ} (h : p.tasks[index]? = some t)
    (weight : τ → ℕ) :
    (p.tasks.map weight).sum = weight t + ((p.others index).map weight).sum := by
  rw [((tasks_perm h).map weight).sum_eq, List.map_cons, List.sum_cons]

theorem step_run {p q : Pool σ τ} {index : ℕ} {choice : ε}
    (h : step enter turn outside p (.run index choice) = some q) :
    ∃ t next, p.tasks[index]? = some t ∧ turn p t choice = some next ∧
      q = { shared := next.1, tasks := next.2 ++ p.others index } := by
  simp only [step] at h
  cases ht : p.tasks[index]? with
  | none => rw [ht] at h; cases h
  | some t =>
    rw [ht] at h
    obtain ⟨next, hturn, hq⟩ := Option.map_eq_some_iff.mp h
    exact ⟨t, next, rfl, hturn, hq.symm⟩

theorem forall_tasks_of_turn {p : Pool σ τ} {index : ℕ} {t : τ} {left : List τ} {A : τ → Prop}
    (ht : p.tasks[index]? = some t) (h : ∀ u ∈ p.tasks, A u) (hleft : ∀ u ∈ left, A u) :
    ∀ u ∈ left ++ p.others index, A u := by
  intro u hu
  rcases List.mem_append.mp hu with hnew | hother
  · exact hleft u hnew
  · exact h u ((mem_tasks_iff ht u).mpr (.inr hother))

end ProxySwitch.TaskPools
