import Mathlib.Logic.Function.Basic
import Mathlib.Tactic.Common

set_option autoImplicit false

/-!
# Runs of a partial step function

A system is a step function `σ → α → Option σ`; the label carries every choice of
the environment. `Always` speaks about the states of a run, `Meets` about its steps,
each taken in the state the run has reached. A run stops at a label that is not enabled.
-/
namespace ProxySwitch.TransitionRuns

variable {σ α : Type*} (step : σ → α → Option σ)

def exec : σ → List α → Option σ
  | s, [] => some s
  | s, a :: as => (step s a).bind fun t => exec t as

/-- `P` holds in every state of the run, the first and the last one included. -/
def Always (P : σ → Prop) : σ → List α → Prop
  | s, [] => P s
  | s, a :: as => P s ∧ match step s a with
    | some t => Always P t as
    | none => True

/-- `ok` holds of every label of the run in the state in which it is taken. -/
def Meets (ok : σ → α → Prop) : σ → List α → Prop
  | _, [] => True
  | s, a :: as => match step s a with
    | some t => ok s a ∧ Meets ok t as
    | none => True

variable {step}

instance decidableMeets {ok : σ → α → Prop} [∀ s a, Decidable (ok s a)] (s : σ) :
    (as : List α) → Decidable (Meets step ok s as)
  | [] => isTrue trivial
  | a :: as =>
    match h : step s a with
    | some t =>
      have : Decidable (Meets step ok t as) := decidableMeets t as
      decidable_of_iff (ok s a ∧ Meets step ok t as) (by simp only [Meets, h])
    | none => isTrue (by simp only [Meets, h])

@[simp] theorem exec_nil (s : σ) : exec step s [] = some s := rfl

@[simp] theorem exec_cons (s : σ) (a : α) (as : List α) :
    exec step s (a :: as) = (step s a).bind fun t => exec step t as := rfl

theorem exec_append {s t u : σ} {as bs : List α} (h : exec step s as = some t)
    (h' : exec step t bs = some u) : exec step s (as ++ bs) = some u := by
  induction as generalizing s with
  | nil => exact Option.some.inj h ▸ h'
  | cons a as ih =>
    obtain ⟨v, hv, hrest⟩ := Option.bind_eq_some_iff.mp h
    exact Option.bind_eq_some_iff.mpr ⟨v, hv, ih hrest⟩

/-- The forward simulation rule, for a step that is answered by a run of the other system. -/
theorem exec_of_simulation {τ β : Type*} {step' : τ → β → Option τ} {R : σ → τ → Prop}
    (simulates : ∀ s a t u, R s u → step s a = some t → ∃ bs v, exec step' u bs = some v ∧ R t v)
    {s t : σ} {u : τ} {as : List α} (hs : R s u) (h : exec step s as = some t) :
    ∃ bs v, exec step' u bs = some v ∧ R t v := by
  induction as generalizing s u with
  | nil => exact ⟨[], u, rfl, Option.some.inj h ▸ hs⟩
  | cons a as ih =>
    obtain ⟨s', hs', hrest⟩ := Option.bind_eq_some_iff.mp h
    obtain ⟨first, u', hfirst, hsame⟩ := simulates s a s' u hs hs'
    obtain ⟨rest, v, hlast, hend⟩ := ih hsame hrest
    exact ⟨first ++ rest, v, exec_append hfirst hlast, hend⟩

/-- The ranking rule: where every state of `I` is at the goal or has an allowed step to a state of
    `I` of a smaller rank, allowed steps reach the goal. -/
theorem exists_run_of_rank {I goal : σ → Prop} (allowed : α → Prop) (rank : σ → ℕ)
    (progress : ∀ s, I s →
      goal s ∨ ∃ a t, allowed a ∧ step s a = some t ∧ I t ∧ rank t < rank s)
    {s : σ} (hs : I s) : ∃ as t, (∀ a ∈ as, allowed a) ∧ exec step s as = some t ∧ goal t := by
  induction hrank : rank s using Nat.strongRecOn generalizing s with
  | ind n ih =>
    obtain hgoal | ⟨a, t, ha, ht, htI, hlt⟩ := progress s hs
    · exact ⟨[], s, List.forall_mem_nil _, rfl, hgoal⟩
    · obtain ⟨as, u, has, hrun, hgoal⟩ := ih (rank t) (hrank ▸ hlt) htI rfl
      refine ⟨a :: as, u, List.forall_mem_cons.mpr ⟨ha, has⟩, ?_, hgoal⟩
      rw [exec_cons, ht]
      exact hrun

/-- The counting rule: until the goal, every step of the party that meets the guard lowers the rank
    and no other step raises it. Then as many steps of the party as the rank tells reach the goal,
    however they are interleaved with the others. -/
theorem goal_of_count_of_meets {I goal : σ → Prop} {ok : σ → α → Prop} (mine : α → Bool)
    (rank : σ → ℕ) (keep : ∀ s a t, I s → ok s a → step s a = some t → I t)
    (settled : ∀ s a t, goal s → ok s a → step s a = some t → goal t)
    (served : ∀ s a t, I s → ok s a → step s a = some t →
      goal t ∨ rank t + (mine a).toNat ≤ rank s)
    {s t : σ} {as : List α} (hs : I s) (hok : Meets step ok s as) (hrun : exec step s as = some t)
    (hcount : rank s < as.countP mine) : goal t := by
  have hgoal : ∀ {as : List α} {s : σ}, goal s → Meets step ok s as → exec step s as = some t →
      goal t := by
    intro as
    induction as with
    | nil => exact fun hs _ hrun => Option.some.inj hrun ▸ hs
    | cons a as ih =>
      intro s hs hok hrun
      obtain ⟨u, hu, hrun⟩ := Option.bind_eq_some_iff.mp hrun
      simp only [Meets, hu] at hok
      exact ih (settled s a u hs hok.1 hu) hok.2 hrun
  induction as generalizing s with
  | nil => exact absurd hcount (Nat.not_lt_zero _)
  | cons a as ih =>
    obtain ⟨u, hu, hrun⟩ := Option.bind_eq_some_iff.mp hrun
    simp only [Meets, hu] at hok
    obtain hdone | hrank := served s a u hs hok.1 hu
    · exact hgoal hdone hok.2 hrun
    · apply ih (keep s a u hs hok.1 hu) hok.2 hrun
      rw [List.countP_cons] at hcount
      cases hmine : mine a <;> simp only [hmine, Bool.toNat_true, Bool.toNat_false] at hcount hrank
      · simpa using Nat.lt_of_le_of_lt hrank hcount
      · simp only [if_true] at hcount
        omega

theorem always_head {P : σ → Prop} {s : σ} {as : List α} (h : Always step P s as) : P s := by
  cases as with
  | nil => exact h
  | cons a as => exact h.1

theorem always_cons {P : σ → Prop} {s t : σ} {a : α} {as : List α} (h : step s a = some t) :
    Always step P s (a :: as) ↔ P s ∧ Always step P t as := by
  simp only [Always, h]

theorem meets_cons {ok : σ → α → Prop} {s t : σ} {a : α} {as : List α}
    (h : step s a = some t) : Meets step ok s (a :: as) ↔ ok s a ∧ Meets step ok t as := by
  simp only [Meets, h]

/-- `Always` is a statement about the reachable states: those a prefix of the run ends in. -/
theorem always_iff_reached {P : σ → Prop} (s : σ) (as : List α) :
    Always step P s as ↔
      ∀ pre rest t, as = pre ++ rest → exec step s pre = some t → P t := by
  induction as generalizing s with
  | nil =>
    constructor
    · intro h pre rest t hsplit hrun
      obtain ⟨rfl, rfl⟩ := List.append_eq_nil_iff.mp hsplit.symm
      exact Option.some.inj hrun ▸ h
    · intro h
      exact h [] [] s rfl rfl
  | cons a as ih =>
    constructor
    · intro h pre rest t hsplit hrun
      cases pre with
      | nil => exact Option.some.inj hrun ▸ always_head h
      | cons b pre =>
        obtain ⟨rfl, rfl⟩ := List.cons_eq_cons.mp hsplit
        obtain ⟨u, hu, hrun⟩ := Option.bind_eq_some_iff.mp hrun
        exact (ih u).mp ((always_cons hu).mp h).2 pre rest t rfl hrun
    · intro h
      refine ⟨h [] (a :: as) s rfl rfl, ?_⟩
      cases hu : step s a with
      | none => trivial
      | some u =>
        refine (ih u).mpr fun pre rest t hsplit hrun => ?_
        refine h (a :: pre) rest t (by rw [hsplit]; rfl) ?_
        simpa only [exec_cons, hu, Option.bind_some] using hrun

/-- The guarded invariant rule: what the guarded steps keep holds along a run that
    meets the guard. -/
theorem always_of_meets {I : σ → Prop} {ok : σ → α → Prop}
    (keep : ∀ s a t, I s → ok s a → step s a = some t → I t)
    {s : σ} {as : List α} (hs : I s) (hok : Meets step ok s as) : Always step I s as := by
  induction as generalizing s with
  | nil => exact hs
  | cons a as ih =>
    cases hu : step s a with
    | none => simp only [Always, hu]; exact ⟨hs, trivial⟩
    | some u =>
      have htail := (meets_cons hu).mp hok
      exact (always_cons hu).mpr ⟨hs, ih (keep s a u hs htail.1 hu) htail.2⟩

/-- The invariant rule: what every step keeps holds along every run. -/
theorem always_of_invariant {I : σ → Prop} (keep : ∀ s a t, I s → step s a = some t → I t)
    {s : σ} (as : List α) (hs : I s) : Always step I s as := by
  induction as generalizing s with
  | nil => exact hs
  | cons a as ih =>
    cases hu : step s a with
    | none => simp only [Always, hu]; exact ⟨hs, trivial⟩
    | some u => exact (always_cons hu).mpr ⟨hs, ih (keep s a u hs hu)⟩

theorem always_mono {P Q : σ → Prop} (weaken : ∀ s, P s → Q s) {s : σ} {as : List α}
    (h : Always step P s as) : Always step Q s as := by
  rw [always_iff_reached] at h ⊢
  exact fun pre rest t hsplit hrun => weaken t (h pre rest t hsplit hrun)

theorem meets_of_always {P : σ → Prop} {ok : σ → α → Prop} (allows : ∀ s a, P s → ok s a)
    {s : σ} {as : List α} (h : Always step P s as) : Meets step ok s as := by
  induction as generalizing s with
  | nil => trivial
  | cons a as ih =>
    cases hu : step s a with
    | none => simp only [Meets, hu]
    | some u =>
      have htail := (always_cons hu).mp h
      exact (meets_cons hu).mpr ⟨allows s a htail.1, ih htail.2⟩

/-- A guard that every step into a good state meets is met along a run of good states. -/
theorem meets_of_always_next {I P : σ → Prop} {ok : σ → α → Prop}
    (keep : ∀ s a t, I s → step s a = some t → I t)
    (meets : ∀ s a t, I s → step s a = some t → P t → ok s a)
    {s : σ} {as : List α} (hs : I s) (h : Always step P s as) : Meets step ok s as := by
  induction as generalizing s with
  | nil => trivial
  | cons a as ih =>
    cases hu : step s a with
    | none => simp only [Meets, hu]
    | some u =>
      have htail := ((always_cons hu).mp h).2
      exact (meets_cons hu).mpr ⟨meets s a u hs hu (always_head htail), ih (keep s a u hs hu) htail⟩

theorem meets_of_meets {I : σ → Prop} {ok good : σ → α → Prop}
    (keep : ∀ s a t, I s → ok s a → step s a = some t → I t)
    (gives : ∀ s a, I s → ok s a → good s a)
    {s : σ} {as : List α} (hs : I s) (hok : Meets step ok s as) : Meets step good s as := by
  induction as generalizing s with
  | nil => trivial
  | cons a as ih =>
    cases hu : step s a with
    | none => simp only [Meets, hu]
    | some u =>
      have htail := (meets_cons hu).mp hok
      exact (meets_cons hu).mpr ⟨gives s a hs htail.1, ih (keep s a u hs htail.1 hu) htail.2⟩

theorem meets_of_forall {ok : α → Prop} {as : List α} (h : ∀ a ∈ as, ok a) (s : σ) :
    Meets step (fun _ a => ok a) s as := by
  induction as generalizing s with
  | nil => trivial
  | cons a as ih =>
    obtain ⟨ha, has⟩ := List.forall_mem_cons.mp h
    cases ht : step s a with
    | some t => exact (meets_cons ht).mpr ⟨ha, ih has t⟩
    | none => simp only [Meets, ht]

/-- The counting rule without a guard. -/
theorem goal_of_count {I goal : σ → Prop} (mine : α → Bool) (rank : σ → ℕ)
    (keep : ∀ s a t, I s → step s a = some t → I t)
    (settled : ∀ s a t, goal s → step s a = some t → goal t)
    (served : ∀ s a t, I s → step s a = some t → goal t ∨ rank t + (mine a).toNat ≤ rank s)
    {s t : σ} {as : List α} (hs : I s) (hrun : exec step s as = some t)
    (hcount : rank s < as.countP mine) : goal t :=
  goal_of_count_of_meets mine rank (fun s a t h _ => keep s a t h)
    (fun s a t h _ => settled s a t h) (fun s a t h _ => served s a t h) hs
    (meets_of_forall (fun _ _ => trivial) s) hrun hcount

theorem meets_and {ok ok' : σ → α → Prop} {s : σ} {as : List α} (h : Meets step ok s as)
    (h' : Meets step ok' s as) : Meets step (fun s a => ok s a ∧ ok' s a) s as := by
  induction as generalizing s with
  | nil => trivial
  | cons a as ih =>
    cases hu : step s a with
    | none => simp only [Meets, hu]
    | some u =>
      rw [meets_cons hu] at h h' ⊢
      exact ⟨⟨h.1, h'.1⟩, ih h.2 h'.2⟩

/-- The exact guard rule. If in the states of `I` a step from a good state ends in a good
    state precisely when the guard holds, a run is good throughout precisely when all its
    steps meet the guard. -/
theorem always_iff_meets {I P : σ → Prop} {ok : σ → α → Prop}
    (keep : ∀ s a t, I s → step s a = some t → I t)
    (exact_guard : ∀ s a t, I s → P s → step s a = some t → (P t ↔ ok s a))
    {s : σ} (as : List α) (hs : I s) (hp : P s) :
    Always step P s as ↔ Meets step ok s as := by
  induction as generalizing s with
  | nil => exact ⟨fun _ => trivial, fun _ => hp⟩
  | cons a as ih =>
    cases hu : step s a with
    | none =>
      simp only [Always, Meets, hu]
      exact ⟨fun _ => trivial, fun _ => ⟨hp, trivial⟩⟩
    | some u =>
      have hg := exact_guard s a u hs hp hu
      rw [always_cons hu, meets_cons hu]
      constructor
      · rintro ⟨_, h⟩
        have hpu := always_head h
        exact ⟨hg.mp hpu, (ih (keep s a u hs hu) hpu).mp h⟩
      · rintro ⟨hok, h⟩
        have hpu := hg.mpr hok
        exact ⟨hp, (ih (keep s a u hs hu) hpu).mpr h⟩

/-- Two guards that agree on every enabled step. -/
theorem meets_congr_of_step {I : σ → Prop} {ok ok' : σ → α → Prop}
    (keep : ∀ s a t, I s → step s a = some t → I t)
    (agree : ∀ s a t, I s → step s a = some t → (ok s a ↔ ok' s a)) {s : σ} (as : List α)
    (hs : I s) : Meets step ok s as ↔ Meets step ok' s as := by
  induction as generalizing s with
  | nil => rfl
  | cons a as ih =>
    cases hu : step s a with
    | none => simp only [Meets, hu]
    | some u => rw [meets_cons hu, meets_cons hu, agree s a u hs hu, ih (keep s a u hs hu)]

theorem meets_congr {I : σ → Prop} {ok ok' : σ → α → Prop}
    (keep : ∀ s a t, I s → step s a = some t → I t)
    (agree : ∀ s a, I s → (ok s a ↔ ok' s a)) {s : σ} (as : List α) (hs : I s) :
    Meets step ok s as ↔ Meets step ok' s as :=
  meets_congr_of_step keep (fun s a _ hs _ => agree s a hs) as hs

end ProxySwitch.TransitionRuns
