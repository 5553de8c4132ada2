import Mathlib.Algebra.BigOperators.Group.Finset.Piecewise
import Mathlib.Algebra.BigOperators.Group.Multiset.Defs
import Mathlib.Algebra.Order.Group.Multiset
import Mathlib.Algebra.Order.Group.Nat
import Mathlib.Data.Fintype.Basic
import Mathlib.Tactic.Abel
import Mathlib.Tactic.Common

set_option autoImplicit false

/-!
# Stages that hand items on through locked queues

Every stage has a queue with its lock and its condition variable, takes items from the front
of its queue, works on one at a time and appends it to the queue of the next stage. A consumer
waits until there is an item or the line has been told to stop. Whether the line runs is
read without a lock, so it may change between any two steps; a queue changes only under its
lock, so an append is one step that needs the consumer to be outside its locked section.
-/
namespace ProxySwitch.StagedQueues

variable {ι β κ γ M : Type*}

/-- Where the consumer of a queue stands. It holds the lock from `testing` on until it
    sleeps, leaves or has taken an item. -/
inductive Place (κ : Type*)
  | looping
  | entering
  | testing
  | parking
  | asleep
  | woken
  | deciding
  | taking
  | holding (job : κ)
  | exited

namespace Place

def job : Place κ → Option κ
  | .holding job => some job
  | _ => none

def locked : Place κ → Bool
  | .testing | .parking | .deciding | .taking => true
  | _ => false

def wake : Place κ → Place κ
  | .asleep => .woken
  | p => p

def awake : Place κ → Prop
  | .parking | .asleep => False
  | _ => True

def isParking : Place κ → Bool
  | .parking => true
  | _ => false

@[simp] theorem job_holding (job : κ) : (Place.holding job).job = some job := rfl

@[simp] theorem job_taking : (Place.taking : Place κ).job = none := rfl

@[simp] theorem job_looping : (Place.looping : Place κ).job = none := rfl

@[simp] theorem job_wake (p : Place κ) : p.wake.job = p.job := by
  cases p <;> rfl

theorem wake_exited {p : Place κ} : p.wake = .exited ↔ p = .exited := by
  cases p <;> simp [wake]

theorem wake_awake {p : Place κ} (h : p.awake) : p.wake.awake := by
  cases p <;> first | exact h | trivial

end Place

/-- What differs between stages: who comes next, whether an item that is there is taken without
    the test of the flag, and what an item becomes when it is taken and when it is done. -/
structure Plan (ι β κ : Type*) where
  next : ι → ι
  eager : ι → Bool
  start : ι → β → κ
  finish : ι → κ → Option β

structure Line (ι β κ : Type*) where
  queue : ι → List β
  place : ι → Place κ

variable [DecidableEq ι]

namespace Line

def goto (l : Line ι β κ) (i : ι) (p : Place κ) : Line ι β κ :=
  { l with place := Function.update l.place i p }

def notify (l : Line ι β κ) (i : ι) : Line ι β κ := l.goto i (l.place i).wake

def take (l : Line ι β κ) (plan : Plan ι β κ) (i : ι) (b : β) (rest : List β) : Line ι β κ :=
  { queue := Function.update l.queue i rest
    place := Function.update l.place i (.holding (plan.start i b)) }

/-- The append, the notification and the release of the next queue's lock. -/
def push (l : Line ι β κ) (plan : Plan ι β κ) (i : ι) (b : β) : Line ι β κ :=
  { queue := Function.update l.queue (plan.next i) (l.queue (plan.next i) ++ [b])
    place := Function.update
      (Function.update l.place (plan.next i) (l.place (plan.next i)).wake) i .looping }

@[simp] theorem goto_queue (l : Line ι β κ) (i : ι) (p : Place κ) : (l.goto i p).queue = l.queue := rfl

@[simp] theorem goto_place_self (l : Line ι β κ) (i : ι) (p : Place κ) : (l.goto i p).place i = p :=
  Function.update_self ..

theorem goto_place_of_ne (l : Line ι β κ) {i j : ι} (p : Place κ) (h : j ≠ i) :
    (l.goto i p).place j = l.place j := Function.update_of_ne h ..

@[simp] theorem notify_queue (l : Line ι β κ) (i : ι) : (l.notify i).queue = l.queue := rfl

@[simp] theorem notify_place_self (l : Line ι β κ) (i : ι) :
    (l.notify i).place i = (l.place i).wake := Function.update_self ..

theorem notify_place_of_ne (l : Line ι β κ) {i j : ι} (h : j ≠ i) :
    (l.notify i).place j = l.place j := Function.update_of_ne h ..

end Line

def Plan.move (plan : Plan ι β κ) (running : Bool) (i : ι) (q : List β) : Place κ → Option (Place κ)
  | .looping => some (if running then .entering else .exited)
  | .entering => some (if plan.eager i && !q.isEmpty then .taking else .testing)
  | .testing => some (if running && q.isEmpty then .parking else .deciding)
  | .parking => some .asleep
  | .woken => some .testing
  | .deciding => some (if running then .taking else .exited)
  | .asleep | .taking | .holding _ | .exited => none

def advance (plan : Plan ι β κ) (running : Bool) (l : Line ι β κ) (i : ι) : Option (Line ι β κ) :=
  match l.place i, l.queue i with
  | .taking, b :: rest => some (l.take plan i b rest)
  | .holding job, _ => (plan.finish i job).bind fun b =>
    if (l.place (plan.next i)).locked then none else some (l.push plan i b)
  | p, q => (plan.move running i q p).map (l.goto i)

section Cases

variable {plan : Plan ι β κ} {running : Bool} {l l' : Line ι β κ} {i : ι}

/-- A step of a consumer moves no item, takes the front item or hands its item on. -/
theorem advance_cases (h : advance plan running l i = some l') :
    (∃ p, plan.move running i (l.queue i) (l.place i) = some p ∧ l' = l.goto i p) ∨
    (∃ b rest, l.place i = .taking ∧ l.queue i = b :: rest ∧ l' = l.take plan i b rest) ∨
    (∃ job b, l.place i = .holding job ∧ plan.finish i job = some b ∧
      (l.place (plan.next i)).locked = false ∧ l' = l.push plan i b) := by
  unfold advance at h
  split at h
  · next b rest hp hq => exact .inr (.inl ⟨b, rest, hp, hq, (Option.some.inj h).symm⟩)
  · next job hp =>
    obtain ⟨b, hb, hpush⟩ := Option.bind_eq_some_iff.mp h
    split at hpush
    · cases hpush
    · next hfree =>
      exact .inr (.inr ⟨job, b, hp, hb, Bool.eq_false_of_not_eq_true hfree,
        (Option.some.inj hpush).symm⟩)
  · obtain ⟨p, hp, hl⟩ := Option.map_eq_some_iff.mp h
    exact .inl ⟨p, hp, hl.symm⟩

theorem advance_of_move {p : Place κ}
    (h : plan.move running i (l.queue i) (l.place i) = some p) :
    advance plan running l i = some (l.goto i p) := by
  unfold advance
  split
  · next hp _ => rw [hp] at h; cases h
  · next hp => rw [hp] at h; cases h
  · rw [h]; rfl

omit [DecidableEq ι] in
theorem move_job {q : List β} {p p' : Place κ} (h : plan.move running i q p = some p') :
    p.job = none ∧ p'.job = none := by
  cases p with
  | asleep | taking | holding _ | exited => cases h
  | looping | entering | testing | deciding =>
    obtain rfl := Option.some.inj h
    refine ⟨rfl, ?_⟩
    split_ifs <;> rfl
  | parking | woken =>
    obtain rfl := Option.some.inj h
    exact ⟨rfl, rfl⟩

end Cases

omit [DecidableEq ι] in
/-- A stage that is not eager takes only after it has seen the line run. -/
theorem move_taking {plan : Plan ι β κ} {running : Bool} {i : ι} {q : List β} {p : Place κ}
    (heager : plan.eager i = false) (h : plan.move running i q p = some .taking) : running = true := by
  cases p with
  | asleep | taking | holding _ | exited => cases h
  | looping | testing =>
    have := Option.some.inj h
    split_ifs at this
  | deciding =>
    have := Option.some.inj h
    split_ifs at this with hrun
    exact hrun
  | entering => simp [Plan.move, heager] at h
  | parking | woken => simp [Plan.move] at h

theorem advance_exited {plan : Plan ι β κ} {running : Bool} {l l' : Line ι β κ} {i j : ι}
    (hj : l.place j = .exited) (h : advance plan running l i = some l') : l'.place j = .exited := by
  obtain ⟨p, hp, rfl⟩ | ⟨b, rest, hp, hq, rfl⟩ | ⟨job, b, hp, hb, hfree, rfl⟩ := advance_cases h
  · by_cases hij : j = i
    · subst hij
      rw [hj] at hp
      cases hp
    · rw [Line.goto_place_of_ne l p hij, hj]
  · have hij : j ≠ i := by
      rintro rfl
      rw [hj] at hp
      cases hp
    simp [Line.take, Function.update_of_ne hij, hj]
  · have hij : j ≠ i := by
      rintro rfl
      rw [hj] at hp
      cases hp
    by_cases hn : j = plan.next i
    · subst hn
      simp [Line.push, Function.update_of_ne hij, hj, Place.wake]
    · simp [Line.push, Function.update_of_ne hij, Function.update_of_ne hn, hj]

theorem advance_not_exited {plan : Plan ι β κ} {l l' : Line ι β κ} {i j : ι}
    (hj : l.place j ≠ .exited) (h : advance plan true l i = some l') : l'.place j ≠ .exited := by
  obtain ⟨p, hp, rfl⟩ | ⟨b, rest, hp, hq, rfl⟩ | ⟨job, b, hp, hb, hfree, rfl⟩ := advance_cases h
  · by_cases hij : j = i
    · subst hij
      rw [Line.goto_place_self]
      rintro rfl
      cases hc : l.place j with
      | asleep | taking | holding _ | exited => rw [hc] at hp; cases hp
      | looping | deciding | parking | woken => rw [hc] at hp; cases hp
      | entering | testing =>
        rw [hc] at hp
        have := Option.some.inj hp
        split_ifs at this
    · rwa [Line.goto_place_of_ne l p hij]
  · by_cases hij : j = i
    · subst hij
      simp [Line.take]
    · simpa [Line.take, Function.update_of_ne hij] using hj
  · by_cases hij : j = i
    · subst hij
      simp [Line.push]
    · by_cases hn : j = plan.next i
      · subst hn
        simp only [Line.push, Function.update_self, Function.update_of_ne hij]
        exact fun h => hj (Place.wake_exited.mp h)
      · simpa [Line.push, Function.update_of_ne hij, Function.update_of_ne hn] using hj

theorem advance_awake {plan : Plan ι β κ} {l l' : Line ι β κ} {i j : ι} (hj : (l.place j).awake)
    (h : advance plan false l i = some l') : (l'.place j).awake := by
  obtain ⟨p, hp, rfl⟩ | ⟨b, rest, hp, hq, rfl⟩ | ⟨job, b, hp, hb, hfree, rfl⟩ := advance_cases h
  · by_cases hij : j = i
    · subst hij
      rw [Line.goto_place_self]
      cases hc : l.place j with
      | asleep | taking | holding _ | exited => rw [hc] at hp; cases hp
      | parking => rw [hc] at hj; exact hj.elim
      | looping | testing | woken | deciding =>
        rw [hc] at hp
        obtain rfl := Option.some.inj hp
        trivial
      | entering =>
        rw [hc] at hp
        obtain rfl := Option.some.inj hp
        split_ifs <;> trivial
    · rwa [Line.goto_place_of_ne l p hij]
  · by_cases hij : j = i
    · subst hij
      simp [Line.take, Place.awake]
    · simpa [Line.take, Function.update_of_ne hij] using hj
  · by_cases hij : j = i
    · subst hij
      simp [Line.push, Place.awake]
    · by_cases hn : j = plan.next i
      · subst hn
        simp only [Line.push, Function.update_self, Function.update_of_ne hij]
        exact Place.wake_awake hj
      · simpa [Line.push, Function.update_of_ne hij, Function.update_of_ne hn] using hj

theorem notify_exited {l : Line ι β κ} {i j : ι} (hj : l.place j = .exited) :
    (l.notify i).place j = .exited := by
  by_cases hij : j = i
  · subst hij
    rw [Line.notify_place_self, hj]
    rfl
  · rw [Line.notify_place_of_ne l hij, hj]

theorem advance_none_of_exited {plan : Plan ι β κ} {running : Bool} {l : Line ι β κ} {i : ι}
    (h : l.place i = .exited) : advance plan running l i = none := by
  simp [advance, h, Plan.move]

/-! ### The lock and the condition variable -/

/-- What the place of the consumer tells about its queue: it sleeps, or is about to, only on an
    empty queue, and takes only from one with an item. -/
def Settled (running : Bool) (q : List β) : Place κ → Prop
  | .parking | .asleep => q = []
  | .taking => q ≠ []
  | .deciding => running = true → q ≠ []
  | _ => True

def Synced (running : Bool) (l : Line ι β κ) : Prop := ∀ i, Settled running (l.queue i) (l.place i)

section Synced

variable {plan : Plan ι β κ} {running : Bool} {l l' : Line ι β κ} {i : ι}

omit [DecidableEq ι] in
theorem synced_of_stop {running' : Bool} (h : Synced running l) (hstop : running' = true → running = true) :
    Synced running' l := by
  intro i
  have := h i
  cases hp : l.place i with
  | deciding =>
    rw [hp] at this
    exact fun hrun => this (hstop hrun)
  | _ => rw [hp] at this; exact this

omit [DecidableEq ι] in
theorem move_settled {q : List β} {p p' : Place κ} (hp : Settled running q p)
    (h : plan.move running i q p = some p') : Settled running q p' := by
  cases p with
  | asleep | taking | holding _ | exited => cases h
  | looping =>
    obtain rfl := Option.some.inj h
    split_ifs <;> trivial
  | entering =>
    obtain rfl := Option.some.inj h
    split_ifs with hc
    · simp only [Bool.and_eq_true, Bool.not_eq_true', List.isEmpty_eq_false_iff] at hc
      exact hc.2
    · trivial
  | testing =>
    obtain rfl := Option.some.inj h
    split_ifs with hc
    · exact List.isEmpty_iff.mp ((Bool.and_eq_true _ _).mp hc).2
    · rintro rfl rfl
      exact hc rfl
  | parking =>
    obtain rfl := Option.some.inj h
    exact hp
  | woken =>
    obtain rfl := Option.some.inj h
    trivial
  | deciding =>
    obtain rfl := Option.some.inj h
    split_ifs with hc
    · exact hp hc
    · trivial

theorem goto_synced {p : Place κ} (h : Synced running l) (hp : Settled running (l.queue i) p) :
    Synced running (l.goto i p) := by
  intro j
  by_cases hj : j = i
  · subst hj
    simpa using hp
  · simpa [Line.goto_place_of_ne l p hj] using h j

theorem notify_synced (h : Synced running l) : Synced running (l.notify i) := by
  apply goto_synced h
  have := h i
  cases hp : l.place i with
  | asleep => trivial
  | _ => rw [hp] at this; exact this

theorem advance_synced (h : Synced running l) (hstep : advance plan running l i = some l') :
    Synced running l' := by
  obtain ⟨p, hp, rfl⟩ | ⟨b, rest, hp, hq, rfl⟩ | ⟨job, b, hp, hb, hfree, rfl⟩ := advance_cases hstep
  · exact goto_synced h (move_settled (h i) hp)
  · intro j
    by_cases hj : j = i
    · subst hj
      simp [Line.take, Settled]
    · simpa [Line.take, Function.update_of_ne hj] using h j
  · intro j
    by_cases hj : j = i
    · subst hj
      simp [Line.push, Settled]
    · by_cases hn : j = plan.next i
      · subst hn
        -- the consumer is outside its locked section, so it looks at the queue again
        simp only [Line.push, Function.update_self, Function.update_of_ne hj]
        cases hc : l.place (plan.next i) with
        | testing | parking | deciding | taking => rw [hc] at hfree; cases hfree
        | _ => trivial
      · simpa [Line.push, Function.update_of_ne hj, Function.update_of_ne hn] using h j

/-- Where no consumer can step, every one sleeps on an empty queue, has left, or holds an item that
    is not done. -/
theorem place_of_blocked (h : Synced running l) (hblocked : ∀ i, advance plan running l i = none)
    (i : ι) : l.place i = .asleep ∧ l.queue i = [] ∨ l.place i = .exited ∨
      ∃ job, l.place i = .holding job ∧ plan.finish i job = none := by
  have hfree : ∀ j, (l.place j).locked = false := by
    intro j
    have hj := h j
    have hmove : plan.move running j (l.queue j) (l.place j) = none := by
      cases hm : plan.move running j (l.queue j) (l.place j) with
      | none => rfl
      | some p => exact absurd (hblocked j) (by simp [advance_of_move hm])
    cases hp : l.place j with
    | testing | parking | deciding => rw [hp] at hmove; cases hmove
    | taking =>
      rw [hp] at hj
      obtain ⟨b, rest, hq⟩ := List.exists_cons_of_ne_nil hj
      exact absurd (hblocked j) (by simp [advance, hp, hq])
    | _ => rfl
  have hi := h i
  have hb := hblocked i
  cases hp : l.place i with
  | asleep => rw [hp] at hi; exact .inl ⟨rfl, hi⟩
  | exited => exact .inr (.inl rfl)
  | holding job =>
    refine .inr (.inr ⟨job, rfl, ?_⟩)
    cases hf : plan.finish i job with
    | none => rfl
    | some b => simp [advance, hp, hf, hfree] at hb
  | testing | parking | deciding | taking => exact absurd (hfree i) (by simp [hp, Place.locked])
  | looping | entering | woken => simp [advance, hp, Plan.move] at hb

end Synced

/-! ### What holds of every item -/

/-- `A` holds of what is queued at a stage and `B` of what its consumer works on. -/
structure Kept (A : ι → β → Prop) (B : ι → κ → Prop) (l : Line ι β κ) : Prop where
  items : ∀ i, ∀ b ∈ l.queue i, A i b
  jobs : ∀ i job, l.place i = .holding job → B i job

section Kept

variable {plan : Plan ι β κ} {running : Bool} {l l' : Line ι β κ} {i : ι}
  {A : ι → β → Prop} {B : ι → κ → Prop}

theorem goto_kept {p : Place κ} (h : Kept A B l) (hp : ∀ job, p = .holding job → B i job) :
    Kept A B (l.goto i p) where
  items := h.items
  jobs j job hj := by
    by_cases hij : j = i
    · subst hij
      exact hp job (by simpa using hj)
    · exact h.jobs j job (by simpa [Line.goto_place_of_ne l p hij] using hj)

theorem notify_kept (h : Kept A B l) : Kept A B (l.notify i) := by
  refine goto_kept h fun job hp => h.jobs i job ?_
  cases hc : l.place i with
  | holding job' => rwa [hc] at hp
  | _ => rw [hc] at hp; cases hp

theorem advance_kept (hstart : ∀ i b, A i b → B i (plan.start i b))
    (hfinish : ∀ i job b, B i job → plan.finish i job = some b → A (plan.next i) b)
    (h : Kept A B l) (hstep : advance plan running l i = some l') : Kept A B l' := by
  obtain ⟨p, hp, rfl⟩ | ⟨b, rest, hp, hq, rfl⟩ | ⟨job, b, hp, hb, hfree, rfl⟩ := advance_cases hstep
  · exact goto_kept h fun job hjob => by simp [hjob] at hp; exact absurd (move_job hp).2 (by simp)
  · have hall := h.items i
    rw [hq, List.forall_mem_cons] at hall
    constructor
    · intro j c hc
      by_cases hij : j = i
      · subst hij
        exact hall.2 c (by simpa [Line.take] using hc)
      · exact h.items j c (by simpa [Line.take, Function.update_of_ne hij] using hc)
    · intro j job hj
      by_cases hij : j = i
      · subst hij
        obtain rfl : plan.start j b = job := by simpa [Line.take] using hj
        exact hstart j b hall.1
      · exact h.jobs j job (by simpa [Line.take, Function.update_of_ne hij] using hj)
  · constructor
    · intro j c hc
      by_cases hn : j = plan.next i
      · subst hn
        simp only [Line.push, Function.update_self, List.mem_append, List.mem_singleton] at hc
        obtain hc | rfl := hc
        · exact h.items _ c hc
        · exact hfinish i job c (h.jobs i job hp) hb
      · exact h.items j c (by simpa [Line.push, Function.update_of_ne hn] using hc)
    · intro j job' hj
      by_cases hij : j = i
      · subst hij
        simp [Line.push] at hj
      · by_cases hn : j = plan.next i
        · subst hn
          simp only [Line.push, Function.update_self, Function.update_of_ne hij] at hj
          refine h.jobs _ job' ?_
          cases hc : l.place (plan.next i) with
          | holding _ => rwa [hc] at hj
          | _ => rw [hc] at hj; cases hj
        · exact h.jobs j job' (by
            simpa [Line.push, Function.update_of_ne hij, Function.update_of_ne hn] using hj)

end Kept

/-! ### What the items owe, in the order of the line -/

/-- A view of the line: what an item still owes while it is queued and while it is worked on. -/
structure Debt (ι β κ γ : Type*) where
  item : ι → β → List γ
  job : ι → κ → List γ

namespace Debt

variable (d : Debt ι β κ γ)

def due (l : Line ι β κ) (i : ι) : List γ :=
  (l.place i).job.toList.flatMap (d.job i) ++ (l.queue i).flatMap (d.item i)

/-- All that is owed, the oldest debt first: `order` lists the stages from the last to the first. -/
def owed (order : List ι) (l : Line ι β κ) : List γ := order.flatMap (d.due l)

variable {d} {l l' : Line ι β κ} {i j : ι}

omit [DecidableEq ι] in
theorem due_of_job {job : κ} (h : l.place i = .holding job) :
    d.due l i = d.job i job ++ (l.queue i).flatMap (d.item i) := by
  simp [due, h]

omit [DecidableEq ι] in
theorem due_of_no_job (h : (l.place i).job = none) : d.due l i = (l.queue i).flatMap (d.item i) := by
  simp [due, h]

omit [DecidableEq ι] in
theorem due_congr (hq : l'.queue i = l.queue i) (hp : (l'.place i).job = (l.place i).job) :
    d.due l' i = d.due l i := by
  rw [due, due, hq, hp]

omit [DecidableEq ι] in
theorem owed_congr {order : List ι} (h : ∀ i ∈ order, d.due l' i = d.due l i) :
    d.owed order l' = d.owed order l := List.flatMap_congr h

theorem due_goto_of_ne {p : Place κ} (h : j ≠ i) : d.due (l.goto i p) j = d.due l j :=
  due_congr rfl (by rw [Line.goto_place_of_ne l p h])

omit [DecidableEq ι] in
theorem owed_of_job {older younger : List ι} {job : κ} (hp : l.place i = .holding job) :
    d.owed (older ++ i :: younger) l = d.owed older l ++
      (d.job i job ++ ((l.queue i).flatMap (d.item i) ++ d.owed younger l)) := by
  rw [owed, List.flatMap_append, List.flatMap_cons, due_of_job hp, List.append_assoc]
  rfl

theorem owed_goto_job {older younger : List ι} {job : κ} (hnodup : (older ++ i :: younger).Nodup) :
    d.owed (older ++ i :: younger) (l.goto i (.holding job)) = d.owed older l ++
      (d.job i job ++ ((l.queue i).flatMap (d.item i) ++ d.owed younger l)) := by
  obtain ⟨-, hyounger, hapart⟩ := List.nodup_append.mp hnodup
  rw [owed_of_job (Line.goto_place_self ..)]
  have hold : d.owed older (l.goto i (.holding job)) = d.owed older l :=
    owed_congr fun j hj => due_goto_of_ne (hapart j hj i List.mem_cons_self)
  have hyoung : d.owed younger (l.goto i (.holding job)) = d.owed younger l :=
    owed_congr fun j hj => due_goto_of_ne fun h =>
      (List.nodup_cons.mp hyounger).1 (h ▸ hj)
  rw [hold, hyoung, Line.goto_queue]

theorem owed_goto_same {order : List ι} {job job' : κ} (hp : l.place i = .holding job)
    (hjob : d.job i job' = d.job i job) : d.owed order (l.goto i (.holding job')) = d.owed order l := by
  refine owed_congr fun j _ => ?_
  by_cases hj : j = i
  · subst hj
    rw [due_of_job (Line.goto_place_self ..), due_of_job hp, hjob, Line.goto_queue]
  · exact due_goto_of_ne hj

theorem due_notify : d.due (l.notify i) j = d.due l j := by
  refine due_congr rfl ?_
  by_cases h : j = i
  · subst h
    rw [Line.notify_place_self, Place.job_wake]
  · rw [Line.notify_place_of_ne l h]

end Debt

omit [DecidableEq ι] in
theorem exists_split_of_chain {next : ι → ι} {e i : ι} {order : List ι}
    (hchain : (e :: order).IsChain fun j i => next i = j) (hi : i ∈ order) :
    ∃ older younger, e :: order = older ++ next i :: i :: younger := by
  induction order generalizing e with
  | nil => cases hi
  | cons k order ih =>
    obtain ⟨hk, htail⟩ := List.isChain_cons_cons.mp hchain
    rcases List.mem_cons.mp hi with rfl | hi
    · exact ⟨[], order, by rw [hk]; rfl⟩
    · obtain ⟨older, younger, hsplit⟩ := ih htail hi
      exact ⟨e :: older, younger, by rw [hsplit]; rfl⟩

section Owed

variable {plan : Plan ι β κ} {running : Bool} {l l' : Line ι β κ} {i : ι} {d : Debt ι β κ γ}
  {A : ι → β → Prop} {B : ι → κ → Prop} {e : ι} {order : List ι}

/-- Handing over keeps what is owed and its order, if taking and finishing an item do: only an item
    that owes nothing may leave the last stage. -/
theorem owed_advance (hall : ∀ i, i ∈ e :: order) (hnodup : (e :: order).Nodup)
    (hchain : (e :: order).IsChain fun j i => plan.next i = j) (hring : plan.next e ≠ e)
    (hstart : ∀ i b, A i b → d.job i (plan.start i b) = d.item i b)
    (hfinish : ∀ i job b, i ≠ e → B i job → plan.finish i job = some b →
      d.item (plan.next i) b = d.job i job)
    (hlast : ∀ job b, B e job → plan.finish e job = some b →
      d.job e job = [] ∧ d.item (plan.next e) b = [])
    (h : Kept A B l) (hstep : advance plan running l i = some l') :
    d.owed (e :: order) l' = d.owed (e :: order) l := by
  obtain ⟨p, hp, rfl⟩ | ⟨b, rest, hp, hq, rfl⟩ | ⟨job, b, hp, hb, hfree, rfl⟩ := advance_cases hstep
  · refine Debt.owed_congr fun j _ => Debt.due_congr rfl ?_
    by_cases hij : j = i
    · subst hij
      rw [Line.goto_place_self, (move_job hp).1, (move_job hp).2]
    · rw [Line.goto_place_of_ne l p hij]
  · refine Debt.owed_congr fun j _ => ?_
    by_cases hij : j = i
    · subst hij
      have hb : A j b := h.items j b (hq ▸ List.mem_cons_self)
      have hnone : (l.place j).job = none := by rw [hp]; rfl
      rw [Debt.due_of_job (Function.update_self ..), Debt.due_of_no_job hnone, hstart j b hb, hq]
      simp [Line.take]
    · exact Debt.due_congr (Function.update_of_ne hij ..)
        (congrArg Place.job (Function.update_of_ne hij ..))
  · have hjob : B i job := h.jobs i job hp
    have hother : ∀ j, j ≠ i → j ≠ plan.next i → d.due (l.push plan i b) j = d.due l j :=
      fun j hij hn => Debt.due_congr (Function.update_of_ne hn ..) (by
        simp [Line.push, Function.update_of_ne hij, Function.update_of_ne hn])
    have hgiver : plan.next i ≠ i → d.due l i = d.job i job ++ d.due (l.push plan i b) i := by
      intro hne
      rw [Debt.due_of_job hp, Debt.due_of_no_job (by simp [Line.push, Place.job])]
      simp [Line.push, Function.update_of_ne (Ne.symm hne)]
    have htaker : plan.next i ≠ i → d.due (l.push plan i b) (plan.next i) =
        d.due l (plan.next i) ++ d.item (plan.next i) b := by
      intro hne
      simp [Debt.due, Line.push, Function.update_of_ne hne]
    by_cases hie : i = e
    · subst hie
      obtain ⟨hjob', hitem⟩ := hlast job b hjob hb
      refine Debt.owed_congr fun j _ => ?_
      by_cases hij : j = i
      · subst hij
        rw [hgiver hring, hjob', List.nil_append]
      · by_cases hn : j = plan.next i
        · subst hn
          rw [htaker hring, hitem, List.append_nil]
        · exact hother j hij hn
    · obtain ⟨older, younger, hsplit⟩ :=
        exists_split_of_chain hchain (List.mem_of_ne_of_mem hie (hall i))
      rw [hsplit] at hnodup ⊢
      obtain ⟨-, hpair, hapart⟩ := List.nodup_append.mp hnodup
      obtain ⟨hnext, hself⟩ := List.nodup_cons.mp hpair
      have hne : plan.next i ≠ i := List.ne_of_not_mem_cons hnext
      have hfar : ∀ j ∈ older ++ younger, d.due (l.push plan i b) j = d.due l j := by
        intro j hj
        rcases List.mem_append.mp hj with hold | hyoung
        · exact hother j (hapart j hold i (by simp)) (hapart j hold _ (by simp))
        · refine hother j ?_ ?_
          · rintro rfl
            exact (List.nodup_cons.mp hself).1 hyoung
          · rintro rfl
            exact hnext (List.mem_cons_of_mem _ hyoung)
      have holder : older.flatMap (d.due (l.push plan i b)) = older.flatMap (d.due l) :=
        List.flatMap_congr fun j hj => hfar j (List.mem_append_left _ hj)
      have hyounger : younger.flatMap (d.due (l.push plan i b)) = younger.flatMap (d.due l) :=
        List.flatMap_congr fun j hj => hfar j (List.mem_append_right _ hj)
      simp only [Debt.owed, List.flatMap_append, List.flatMap_cons, holder, hyounger, htaker hne,
        hgiver hne, hfinish i job b hie hjob hb, List.append_assoc]

end Owed

/-! ### Sums over the line -/

section Total

variable [Fintype ι] [AddCommMonoid M] (f : ι → List β → M) (g : ι → Place κ → M)

def total (l : Line ι β κ) : M := ∑ i, f i (l.queue i) + ∑ i, g i (l.place i)

variable {f g} {plan : Plan ι β κ} {l : Line ι β κ} {i : ι}

theorem sum_update {δ : Type*} (w : ι → δ → M) (c : ι → δ) (i : ι) (x : δ) :
    ∑ j, w j (Function.update c i x j) + w i (c i) = ∑ j, w j (c j) + w i x := by
  have hupdate : ∀ j, w j (Function.update c i x j) =
      Function.update (fun j => w j (c j)) i (w i x) j := fun j => Function.apply_update w c i x j
  rw [Finset.sum_congr rfl fun j _ => hupdate j, Finset.sum_update_of_mem (Finset.mem_univ i),
    ← Finset.add_sum_erase _ _ (Finset.mem_univ i), Finset.sdiff_singleton_eq_erase]
  abel

theorem total_goto (p : Place κ) : total f g (l.goto i p) + g i (l.place i) = total f g l + g i p := by
  rw [total, total, add_assoc, add_assoc]
  exact congrArg _ (sum_update g l.place i p)

theorem total_take (plan : Plan ι β κ) {b : β} {rest : List β} (hp : l.place i = .taking) (hq : l.queue i = b :: rest) :
    total f g (l.take plan i b rest) + (f i (b :: rest) + g i .taking) =
      total f g l + (f i rest + g i (.holding (plan.start i b))) := by
  have hqueue := sum_update f l.queue i rest
  have hplace := sum_update g l.place i (.holding (plan.start i b))
  rw [hq] at hqueue
  rw [hp] at hplace
  rw [total, total, add_add_add_comm, add_add_add_comm (∑ i, f i (l.queue i))]
  exact congrArg₂ (· + ·) hqueue hplace

theorem total_push {job : κ} {b : β} (hne : plan.next i ≠ i) (hp : l.place i = .holding job) :
    total f g (l.push plan i b) + (f (plan.next i) (l.queue (plan.next i)) +
        (g (plan.next i) (l.place (plan.next i)) + g i (.holding job))) =
      total f g l + (f (plan.next i) (l.queue (plan.next i) ++ [b]) +
        (g (plan.next i) (l.place (plan.next i)).wake + g i .looping)) := by
  have hqueue := sum_update f l.queue (plan.next i) (l.queue (plan.next i) ++ [b])
  have hnext := sum_update g l.place (plan.next i) (l.place (plan.next i)).wake
  have hself := sum_update g (Function.update l.place (plan.next i) (l.place (plan.next i)).wake) i
    .looping
  rw [Function.update_of_ne (Ne.symm hne), hp] at hself
  rw [total, total, add_add_add_comm, add_add_add_comm (∑ i, f i (l.queue i))]
  refine congrArg₂ (· + ·) hqueue ?_
  calc ∑ j, g j ((l.push plan i b).place j) + (g (plan.next i) (l.place (plan.next i)) + g i (.holding job))
      = (∑ j, g j (Function.update l.place (plan.next i) (l.place (plan.next i)).wake j) + g i .looping)
          + g (plan.next i) (l.place (plan.next i)) := by
        rw [← hself]
        simp only [Line.push]
        abel
    _ = ∑ j, g j (l.place j) + (g (plan.next i) (l.place (plan.next i)).wake + g i .looping) := by
        rw [add_right_comm, hnext, add_assoc]

end Total

section Tokens

variable [Fintype ι] {δ : Type*} (ident : β → δ) (identJob : κ → δ)

def tokens (l : Line ι β κ) : Multiset δ :=
  total (fun _ q => ((q.map ident : List δ) : Multiset δ))
    (fun _ p => ((p.job.toList.map identJob : List δ) : Multiset δ)) l

variable {ident identJob} {plan : Plan ι β κ} {running : Bool} {l l' : Line ι β κ} {i : ι}

theorem tokens_goto {p : Place κ} (h : p.job.map identJob = (l.place i).job.map identJob) :
    tokens ident identJob (l.goto i p) = tokens ident identJob l := by
  have hmap : p.job.toList.map identJob = (l.place i).job.toList.map identJob := by
    rw [← Option.toList_map, ← Option.toList_map, h]
  have := total_goto (f := fun (_ : ι) q => ((q.map ident : List δ) : Multiset δ))
    (g := fun _ p => ((p.job.toList.map identJob : List δ) : Multiset δ)) (l := l) (i := i) p
  simp only [hmap] at this
  exact add_right_cancel this

/-- Handing over neither loses nor copies an item. -/
theorem tokens_advance (hring : ∀ i, plan.next i ≠ i)
    (hstart : ∀ i b, identJob (plan.start i b) = ident b)
    (hfinish : ∀ i job b, plan.finish i job = some b → ident b = identJob job)
    (hstep : advance plan running l i = some l') :
    tokens ident identJob l' = tokens ident identJob l := by
  obtain ⟨p, hp, rfl⟩ | ⟨b, rest, hp, hq, rfl⟩ | ⟨job, b, hp, hb, hfree, rfl⟩ := advance_cases hstep
  · exact tokens_goto (by rw [(move_job hp).1, (move_job hp).2])
  · have := total_take (f := fun (_ : ι) q => ((q.map ident : List δ) : Multiset δ))
      (g := fun _ p => ((p.job.toList.map identJob : List δ) : Multiset δ)) plan hp hq
    simp only [Place.job_taking, Place.job_holding, Option.toList_none, Option.toList_some,
      List.map_nil, List.map_cons, hstart, Multiset.coe_nil, add_zero] at this
    rw [← Multiset.cons_coe, ← Multiset.singleton_add, add_comm {ident b},
      Multiset.coe_singleton] at this
    exact add_right_cancel this
  · have := total_push (f := fun (_ : ι) q => ((q.map ident : List δ) : Multiset δ))
      (g := fun _ p => ((p.job.toList.map identJob : List δ) : Multiset δ)) (b := b) (hring i) hp
    simp only [Place.job_wake, Place.job_holding, Place.job_looping, Option.toList_some,
      Option.toList_none, List.map_append, List.map_cons, List.map_nil, ← Multiset.coe_add,
      Multiset.coe_nil, add_zero, hfinish i job b hb] at this
    rw [add_right_comm, add_assoc] at this
    exact add_right_cancel this

end Tokens

/-! ### How long the line can go on -/

section Rank

def Place.rank (weight : κ → ℕ) : Place κ → ℕ
  | .looping => 5
  | .entering | .woken => 4
  | .testing => 3
  | .deciding => 2
  | .parking | .taking => 1
  | .asleep | .exited => 0
  | .holding job => weight job

/-- The same once the line has been told to stop; `most` bounds the weight of an item just taken. -/
def Place.closingRank (most : ℕ) (weight : κ → ℕ) : Place κ → ℕ
  | .entering => most + 3
  | .taking => most + 1
  | .woken => 3
  | .testing => 2
  | .deciding | .parking | .looping => 1
  | .asleep | .exited => 0
  | .holding job => weight job

@[simp] theorem rank_looping (weight : κ → ℕ) : (Place.looping : Place κ).rank weight = 5 := rfl

@[simp] theorem rank_taking (weight : κ → ℕ) : (Place.taking : Place κ).rank weight = 1 := rfl

@[simp] theorem rank_holding (weight : κ → ℕ) (job : κ) :
    (Place.holding job).rank weight = weight job := rfl

@[simp] theorem closingRank_looping (most : ℕ) (weight : κ → ℕ) :
    (Place.looping : Place κ).closingRank most weight = 1 := rfl

@[simp] theorem closingRank_taking (most : ℕ) (weight : κ → ℕ) :
    (Place.taking : Place κ).closingRank most weight = most + 1 := rfl

@[simp] theorem closingRank_holding (most : ℕ) (weight : κ → ℕ) (job : κ) :
    (Place.holding job).closingRank most weight = weight job := rfl

variable [Fintype ι] {plan : Plan ι β κ} {running : Bool} {l l' : Line ι β κ} {i : ι}
  {A : ι → β → Prop} {B : ι → κ → Prop}

def rank (weight : ι → β → ℕ) (weightJob : ι → κ → ℕ) (l : Line ι β κ) : ℕ :=
  total (fun i q => (q.map (weight i)).sum) (fun i p => p.rank (weightJob i)) l

def closingRank (most : ι → ℕ) (weightJob : ι → κ → ℕ) (l : Line ι β κ) : ℕ :=
  total (fun (_ : ι) (_ : List β) => 0) (fun i p => p.closingRank (most i) (weightJob i)) l

theorem rank_goto_job (weight : ι → β → ℕ) (weightJob : ι → κ → ℕ) {job : κ} (job' : κ)
    (hp : l.place i = .holding job) : rank weight weightJob (l.goto i (.holding job')) + weightJob i job =
      rank weight weightJob l + weightJob i job' := by
  have hsum := total_goto (f := fun i q => (q.map (weight i)).sum)
    (g := fun i p => p.rank (weightJob i)) (l := l) (i := i) (.holding job')
  rwa [hp] at hsum

theorem closingRank_goto_job (most : ι → ℕ) (weightJob : ι → κ → ℕ) {job : κ} (job' : κ)
    (hp : l.place i = .holding job) :
    closingRank most weightJob (l.goto i (.holding job')) + weightJob i job =
      closingRank most weightJob l + weightJob i job' := by
  have hsum := total_goto (f := fun (_ : ι) (_ : List β) => 0)
    (g := fun i p => p.closingRank (most i) (weightJob i)) (l := l) (i := i) (.holding job')
  rwa [hp] at hsum

omit [DecidableEq ι] [Fintype ι] in
theorem move_rank (weight : κ → ℕ) {q : List β} {p p' : Place κ}
    (h : plan.move running i q p = some p') : p'.rank weight < p.rank weight := by
  cases p with
  | asleep | taking | holding _ | exited => cases h
  | looping | entering | testing | deciding =>
    obtain rfl := Option.some.inj h
    split_ifs <;> simp [Place.rank]
  | parking | woken =>
    obtain rfl := Option.some.inj h
    simp [Place.rank]

omit [DecidableEq ι] in
theorem wake_rank_le (p : Place κ) (weight : κ → ℕ) : p.wake.rank weight ≤ p.rank weight + 4 := by
  cases p <;> simp [Place.wake, Place.rank]

/-- Every step of a consumer lowers the rank, where an item is worth what is left to do with it. -/
theorem advance_rank {weight : ι → β → ℕ} {weightJob : ι → κ → ℕ} (hring : ∀ i, plan.next i ≠ i)
    (hstart : ∀ i b, A i b → weightJob i (plan.start i b) ≤ weight i b)
    (hfinish : ∀ i job b, B i job → plan.finish i job = some b →
      weight (plan.next i) b + 10 ≤ weightJob i job)
    (h : Kept A B l) (hstep : advance plan running l i = some l') :
    rank weight weightJob l' < rank weight weightJob l := by
  obtain ⟨p, hp, rfl⟩ | ⟨b, rest, hp, hq, rfl⟩ | ⟨job, b, hp, hb, hfree, rfl⟩ := advance_cases hstep
  · have hsum := total_goto (f := fun i q => (q.map (weight i)).sum)
      (g := fun i p => p.rank (weightJob i)) (l := l) (i := i) p
    have hless := move_rank (weightJob i) hp
    simp only [rank] at hsum ⊢
    omega
  · have hsum := total_take (f := fun i q => (q.map (weight i)).sum)
      (g := fun i p => p.rank (weightJob i)) plan hp hq
    have hb := hstart i b (h.items i b (hq ▸ List.mem_cons_self))
    simp only [List.map_cons, List.sum_cons, rank_taking, rank_holding] at hsum
    simp only [rank]
    omega
  · have hsum := total_push (f := fun i q => (q.map (weight i)).sum)
      (g := fun i p => p.rank (weightJob i)) (b := b) (hring i) hp
    have hjob := hfinish i job b (h.jobs i job hp) hb
    have hwake := wake_rank_le (l.place (plan.next i)) (weightJob (plan.next i))
    simp only [List.map_append, List.map_cons, List.map_nil, List.sum_append, List.sum_cons,
      List.sum_nil, add_zero, rank_holding, rank_looping] at hsum
    simp only [rank]
    omega

omit [DecidableEq ι] [Fintype ι] in
theorem move_closingRank (most : ℕ) (weight : κ → ℕ) {q : List β} {p p' : Place κ}
    (h : plan.move false i q p = some p') : p'.closingRank most weight < p.closingRank most weight := by
  cases p with
  | asleep | taking | holding _ | exited => cases h
  | entering =>
    obtain rfl := Option.some.inj h
    split_ifs <;> simp [Place.closingRank]
  | looping | testing | deciding | parking | woken =>
    obtain rfl := Option.some.inj h
    simp [Place.closingRank]

omit [DecidableEq ι] in
theorem wake_closingRank_le (p : Place κ) (most : ℕ) (weight : κ → ℕ) :
    p.wake.closingRank most weight ≤ p.closingRank most weight + 3 := by
  cases p <;> simp [Place.wake, Place.closingRank]

theorem notify_closingRank_le (most : ι → ℕ) (weightJob : ι → κ → ℕ) (l : Line ι β κ) (i : ι) :
    closingRank most weightJob (l.notify i) ≤ closingRank most weightJob l + 3 := by
  have hsum := total_goto (f := fun (_ : ι) (_ : List β) => 0)
    (g := fun i p => p.closingRank (most i) (weightJob i)) (l := l) (i := i) (l.place i).wake
  have hwake := wake_closingRank_le (l.place i) (most i) (weightJob i)
  simp only [closingRank, Line.notify] at hsum ⊢
  omega

theorem advance_closingRank {most : ι → ℕ} {weightJob : ι → κ → ℕ} (hring : ∀ i, plan.next i ≠ i)
    (hstart : ∀ i b, A i b → weightJob i (plan.start i b) ≤ most i)
    (hfinish : ∀ i job b, B i job → plan.finish i job = some b → 5 ≤ weightJob i job)
    (h : Kept A B l) (hstep : advance plan false l i = some l') :
    closingRank most weightJob l' < closingRank most weightJob l := by
  obtain ⟨p, hp, rfl⟩ | ⟨b, rest, hp, hq, rfl⟩ | ⟨job, b, hp, hb, hfree, rfl⟩ := advance_cases hstep
  · have hsum := total_goto (f := fun (_ : ι) (_ : List β) => 0)
      (g := fun i p => p.closingRank (most i) (weightJob i)) (l := l) (i := i) p
    have hless := move_closingRank (most i) (weightJob i) hp
    simp only [closingRank] at hsum ⊢
    omega
  · have hsum := total_take (f := fun (_ : ι) (_ : List β) => 0)
      (g := fun i p => p.closingRank (most i) (weightJob i)) plan hp hq
    have hb := hstart i b (h.items i b (hq ▸ List.mem_cons_self))
    simp only [closingRank_taking, closingRank_holding] at hsum
    simp only [closingRank]
    omega
  · have hsum := total_push (f := fun (_ : ι) (_ : List β) => 0)
      (g := fun i p => p.closingRank (most i) (weightJob i)) (b := b) (hring i) hp
    have hjob := hfinish i job b (h.jobs i job hp) hb
    have hwake := wake_closingRank_le (l.place (plan.next i)) (most (plan.next i))
      (weightJob (plan.next i))
    simp only [closingRank_holding, closingRank_looping] at hsum
    simp only [closingRank]
    omega

end Rank

end ProxySwitch.StagedQueues
