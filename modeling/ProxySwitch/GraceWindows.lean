import ProxySwitch.SessionLifecycle

set_option autoImplicit false

namespace ProxySwitch.GraceWindows
open SessionLifecycle TaskPools TransitionRuns

/-- The code starts the grace window or finalises the session unasked, and tests nothing
    before. -/
def commits : Code → Bool
  | .choose a b => commits a && commits b
  | .setStatus status byUser _ => status == .waitingForRestart || status == .exited && !byUser
  | _ => false

def reattaches : Code → Bool
  | .setStatus status _ next => status == .running && next.inLock
  | _ => false

def finalizesUnasked : Code → Bool
  | .setStatus status byUser _ => status == .exited && !byUser
  | _ => false

def addition : Code → Option (TrackedProcess × Code)
  | .add p fresh _ => some (p, fresh)
  | _ => none

def FinalizesIdle (w : World) : Event → Prop
  | .start _ | .change _ => True
  | .run index _ => ∀ code ∈ w.tasks[index]?, finalizesUnasked code = true →
      w.shared.hasLiveProcesses = false

instance (w : World) : (event : Event) → Decidable (FinalizesIdle w event)
  | .start _ | .change _ => isTrue trivial
  | .run index _ => inferInstanceAs (Decidable (∀ code ∈ w.tasks[index]?, _ → _))

/-- Outside a `lock (_sessions)` block a session that waits for a restart has no live process. -/
def WaitsIdle (w : World) : Prop :=
  (∀ code ∈ w.tasks, code.inLock = false) → w.shared.status = .waitingForRestart →
    w.shared.hasLiveProcesses = false

/-- A turn commits a task only when no process is live, and a process is added only when no
    other task is committed and, in the grace window, by the task that ends it in its lock. -/
def DecidesIdle (w : World) : Event → Prop
  | .start _ | .change _ => True
  | .run index choice =>
    ∀ code ∈ w.tasks[index]?,
      (∀ next ∈ turn w code choice, ∀ c ∈ next.2, commits c = true →
        next.1.hasLiveProcesses = false) ∧
      ∀ added ∈ addition code, w.shared.tracks added.1.processId = false →
        (∀ other ∈ w.others index, commits other = false) ∧
        (w.shared.status = .waitingForRestart → reattaches added.2 = true)

instance (w : World) : (event : Event) → Decidable (DecidesIdle w event)
  | .start _ | .change _ => isTrue trivial
  | .run index choice =>
    inferInstanceAs (Decidable (∀ code ∈ w.tasks[index]?,
      (∀ next ∈ turn w code choice, ∀ c ∈ next.2, commits c = true →
        next.1.hasLiveProcesses = false) ∧
      ∀ added ∈ addition code, w.shared.tracks added.1.processId = false →
        (∀ other ∈ w.others index, commits other = false) ∧
        (w.shared.status = .waitingForRestart → reattaches added.2 = true)))

structure Inv (w : World) : Prop where
  committed : ∀ code ∈ w.tasks, commits code = true → w.shared.hasLiveProcesses = false
  waiting : w.shared.status = .waitingForRestart → w.shared.hasLiveProcesses = true →
    ∃ code ∈ w.tasks, reattaches code = true

theorem inLock_of_reattaches {code : Code} (h : reattaches code = true) : code.inLock = true := by
  cases code with
  | setStatus status byUser next =>
    simp only [reattaches, Bool.and_eq_true] at h
    exact h.2
  | _ => cases h

theorem commits_entry (handler : Handler) : commits handler.code = false := by
  cases handler <;> rfl

theorem waitsIdle_of_inv {w : World} (hw : Inv w) : WaitsIdle w := by
  intro hfree hwaiting
  by_contra hlive
  obtain ⟨code, hcode, hreattach⟩ := hw.waiting hwaiting (by simpa using hlive)
  have hlocked := inLock_of_reattaches hreattach
  rw [hfree code hcode] at hlocked
  cases hlocked

theorem finalizesIdle_of_inv {w : World} (hw : Inv w) (event : Event) : FinalizesIdle w event := by
  cases event with
  | start handler => trivial
  | run index choice =>
    intro code hcode hfinal
    refine hw.committed code ((mem_tasks_iff hcode code).mpr (.inl rfl)) ?_
    cases code with
    | setStatus status byUser next =>
      simp only [finalizesUnasked] at hfinal
      simp [commits, hfinal]
    | _ => cases hfinal
  | change event => cases event

theorem turn_live {w : World} {code : Code} {choice : Choice} {next : LaunchSession × List Code}
    (hturn : turn w code choice = some next) (hlive : next.1.hasLiveProcesses = true) :
    w.shared.hasLiveProcesses = true ∨
      ∃ p fresh, addition code = some (p, fresh) ∧ w.shared.tracks p.processId = false ∧
        next.2 = [fresh] := by
  by_cases hadd : ∃ p fresh known, code = .add p fresh known
  · obtain ⟨p, fresh, known, rfl⟩ := hadd
    simp only [turn] at hturn
    split at hturn
    · obtain rfl := Option.some.inj hturn
      exact .inl hlive
    · rename_i hnew
      obtain rfl := Option.some.inj hturn
      exact .inr ⟨p, fresh, rfl, by simpa using hnew, rfl⟩
  · exact .inl ((turn_frame hturn).2.2 (fun p fresh known h => hadd ⟨p, fresh, known, h⟩) hlive)

theorem inv_run {w : World} {index : ℕ} {code : Code} {choice : Choice}
    {next : LaunchSession × List Code} (hw : Inv w) (hok : DecidesIdle w (.run index choice))
    (hcode : w.tasks[index]? = some code) (hturn : turn w code choice = some next) :
    Inv { shared := next.1, tasks := next.2 ++ w.others index } := by
  obtain ⟨hcommit, hadd⟩ := hok code hcode
  have hmem := mem_tasks_iff hcode
  have hown : code ∈ w.tasks := (hmem code).mpr (.inl rfl)
  constructor
  · intro c hc hcommits
    rcases List.mem_append.mp hc with hnew | hold
    · exact hcommit next hturn c hnew hcommits
    · by_contra hlive
      rcases turn_live hturn (by simpa using hlive) with hbefore | ⟨p, fresh, haddition, hnew, _⟩
      · have hidle := hw.committed c ((hmem c).mpr (.inr hold)) hcommits
        rw [hbefore] at hidle
        cases hidle
      · have hfree := (hadd (p, fresh) haddition hnew).1 c hold
        rw [hcommits] at hfree
        cases hfree
  · intro hwaiting hlive
    by_cases hassign : ∃ status byUser rest, code = .setStatus status byUser rest
    · -- a task that assigns the status was committed while no process was live
      obtain ⟨status, byUser, rest, rfl⟩ := hassign
      obtain rfl := Option.some.inj hturn
      obtain rfl : status = .waitingForRestart := hwaiting
      have hidle := hw.committed _ hown rfl
      have hbefore : w.shared.hasLiveProcesses = true := hlive
      rw [hbefore] at hidle
      cases hidle
    · have hsame := (turn_frame hturn).1 fun status byUser rest h => hassign ⟨status, byUser, rest, h⟩
      have hstill : w.shared.status = .waitingForRestart := hsame.symm.trans hwaiting
      rcases turn_live hturn hlive with hbefore | ⟨p, fresh, haddition, hnew, hnext⟩
      · obtain ⟨c, hc, hreattach⟩ := hw.waiting hstill hbefore
        rcases (hmem c).mp hc with rfl | hother
        · cases c with
          | setStatus status byUser rest => exact absurd ⟨status, byUser, rest, rfl⟩ hassign
          | _ => cases hreattach
        · exact ⟨c, List.mem_append.mpr (.inr hother), hreattach⟩
      · have hreattach := (hadd (p, fresh) haddition hnew).2 hstill
        exact ⟨fresh, List.mem_append.mpr (.inl (hnext ▸ List.mem_singleton.mpr rfl)), hreattach⟩

theorem inv_step {w t : World} {event : Event} (hw : Inv w) (hok : DecidesIdle w event)
    (hstep : step w event = some t) : Inv t := by
  cases event with
  | start handler =>
    obtain rfl := Option.some.inj hstep
    constructor
    · intro code hcode hcommits
      rcases List.mem_cons.mp hcode with rfl | hold
      · rw [commits_entry] at hcommits
        cases hcommits
      · exact hw.committed code hold hcommits
    · intro hwaiting hlive
      obtain ⟨code, hcode, hreattach⟩ := hw.waiting hwaiting hlive
      exact ⟨code, List.mem_cons_of_mem _ hcode, hreattach⟩
  | run index choice =>
    obtain ⟨code, next, hcode, hturn, rfl⟩ := step_run hstep
    exact inv_run hw hok hcode hturn
  | change event => cases event

theorem inv_launched (processes : List TrackedProcess) : Inv (launched processes) :=
  ⟨fun _ hcode => (List.not_mem_nil hcode).elim, fun hwaiting => (by cases hwaiting)⟩

/-- A session whose decisions find no live process is finalised and waits without one. -/
theorem finalized_idle (processes : List TrackedProcess) (events : List Event)
    (h : Meets step DecidesIdle (launched processes) events) :
    Meets step FinalizesIdle (launched processes) events ∧
      Always step WaitsIdle (launched processes) events := by
  have hkept := always_of_meets (fun _ _ _ hw hok hstep => inv_step hw hok hstep)
    (inv_launched processes) h
  exact ⟨meets_of_always (fun w event hw => finalizesIdle_of_inv hw event) hkept,
    always_mono (fun _ => waitsIdle_of_inv) hkept⟩

/-- The root of an attached session exits, a process restarts in the grace window and exits
    again, and the next window passes. -/
def restartInWindow : List Event :=
  [.start (.attachedRootExited 10), .run 0 {}, .run 0 {}, .run 0 {}, .run 0 { branch := false },
    .run 0 {}, .run 0 {},
    .start (.processStarted ⟨20, .descendant, false⟩), .run 0 {}, .run 0 {},
    .run 0 { branch := false }, .run 0 {}, .run 0 {}, .run 0 {}, .run 0 {}, .run 0 {}, .run 0 {},
    .run 0 {}, .run 0 {},
    .run 1 {}, .run 0 {}, .run 0 {}, .run 0 { branch := false }, .run 0 {}, .run 0 {},
    .run 1 {}, .run 0 {}, .run 0 {}]

theorem finalized_idle_after_restart :
    Meets step FinalizesIdle (launched [⟨10, .root, false⟩]) restartInWindow ∧
      Always step WaitsIdle (launched [⟨10, .root, false⟩]) restartInWindow :=
  finalized_idle _ _ (by decide)

/-- A process is merged while a correlated search is under way; the search finds no candidate of
    its own and the grace window ends the session over the live process. -/
theorem merged_during_search :
    ¬ ∀ (processes : List TrackedProcess) (events : List Event),
      Meets step FinalizesIdle (launched processes) events ∧
        Always step WaitsIdle (launched processes) events := by
  intro h
  have hrun := (h [⟨10, .root, false⟩]
    [.start (.rootExited 10 ⟨30, .descendant, false⟩), .run 0 {}, .run 0 {}, .run 0 {}, .run 0 {},
      .run 0 {}, .run 0 {}, .run 0 {}, .run 0 { branch := false }, .run 0 {},
      .start (.processStarted ⟨20, .descendant, false⟩), .run 0 {}, .run 0 {},
      .run 0 { branch := false }, .run 0 {}, .run 0 {}, .run 0 {}, .run 0 {}, .run 0 {}, .run 0 {},
      .run 0 {}, .run 2 {}, .run 0 { branch := false }, .run 0 {}, .run 0 {}, .run 1 {},
      .run 0 {}]).1
  revert hrun
  decide

end ProxySwitch.GraceWindows
