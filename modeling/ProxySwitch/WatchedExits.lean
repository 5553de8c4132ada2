import ProxySwitch.ExitMonitors

set_option autoImplicit false

namespace ProxySwitch.WatchedExits
open SessionLifecycle (LaunchSession TrackedProcess Status Choice ended)
open ExitMonitors FormsTimers KeyedLists TaskPools TransitionRuns

def ahead (tasks : List Task) (kind : Action → Bool) : Bool := tasks.any fun task => task.any kind

def registered (s : Watch) (status : Status) (pid : ℕ) : Bool :=
  s.tracked.any fun entry => entry.1 == pid && entry.2.heeds status

def inspects (token : ℕ) : Action → Bool
  | .loop t | .poll t => t == token
  | _ => false

/-- The session's descendant monitor is in its loop and will stay there. -/
def inspecting (w : World) : Bool :=
  !w.shared.cancelled && ahead w.tasks (inspects w.shared.token)

def isMonitor : Action → Bool
  | .loop _ | .poll _ | .leave => true
  | _ => false

def monitors (tasks : List Task) : ℕ := (tasks.map (List.countP isMonitor)).sum

def reports : Action → Bool
  | .tick | .exited _ _ | .mark _ | .loop _ | .poll _ => true
  | _ => false

/-- The timer of `ProcessMonitor` ticks, or the exit callbacks or the descendant monitor go on. -/
def Reports (w : World) : Event → Prop
  | .start handler => handler = .tick
  | .run index _ => ∃ action rest, w.tasks[index]? = some (action :: rest) ∧ reports action = true
  | .change _ => False

def ReportsTo (w : World) (events : List Event) (kind : World → Prop) : Prop :=
  ∃ t, Meets step Reports w events ∧ exec step w events = some t ∧ kind t

def Marked (pid : ℕ) (t : World) : Prop :=
  ∀ q ∈ t.shared.session.processes, q.processId = pid → q.exited = true

/-- The action leads to the exit callback of the PID, or is on its way to mark the process. -/
def answers (status : Status) (pid : ℕ) : Action → Bool
  | .track p callback | .exited p callback => p == pid && callback.heeds status
  | .mark p => p == pid
  | _ => false

def ends : Action → Bool
  | .setStatus status => ended.contains status
  | _ => false

def ofBrowser : Action → Bool
  | .track _ callback | .exited _ callback => callback == .browser
  | _ => false

def handled (w : World) (status : Status) (pid : ℕ) : Bool :=
  registered w.shared status pid || ahead w.tasks (answers status pid)

def monitored (w : World) : Bool := inspecting w || ahead w.tasks (· == .startMonitor)

/-- The session has ended, or `StopSession` is about to end it. -/
def quits (w : World) : Bool := w.shared.session.hasEnded || ahead w.tasks ends

def covers (w : World) (p : TrackedProcess) : Bool :=
  handled w w.shared.session.status p.processId || LaunchSession.polled p && monitored w

def dispensable (w : World) : Bool :=
  w.shared.session.processes.all fun p =>
    p.exited || handled w w.shared.session.status p.processId

def usesBrowser (w : World) : Bool :=
  w.shared.tracked.any (·.2 == .browser) || ahead w.tasks ofBrowser

/-- The status ends the session; or the session has not ended, or has no live process, and the
    callback of a browser, which heeds no status but `running`, is not in use. -/
def assignable (w : World) (status : Status) : Bool :=
  ended.contains status ||
    (!w.shared.session.hasEnded || !w.shared.session.hasLiveProcesses) &&
      (status == .running || !usesBrowser w)

def relies (s : Watch) : Bool := s.tracked.any (·.2 != .other)

def starting (w : World) : Bool := w.tasks.any (·.head? == some .ensureTimer)

/-- The timer ticks once a thread that pumps messages or does not has made sure of it, unless
    the session does not rely on it. -/
def startable (s : Watch) (pumps : Bool) : Bool :=
  !relies s || if s.timer.enabled then s.timer.pumped else pumps

def keeps (w : World) (choice : Choice) : Action → Bool
  | .add p => w.shared.session.tracks p.processId || covers w p || quits w
  | .setStatus status => assignable w status
  | .track _ callback => callback.heeds w.shared.session.status || quits w
  | .startMonitor =>
    (if w.shared.active then inspecting w else !w.shared.cancelled) || dispensable w || quits w
  | .ensureTimer => startable w.shared choice.branch
  | .stopTimer => !relies w.shared || starting w
  | _ => true

/-- A process is added with its callback ahead of it, or in a role that a monitor inspects; a
    monitor is started when the last one is gone; no other session takes over the callback of a
    live process; no session is revived over live processes; and the timer is started by threads
    that pump messages, and not stopped over a callback registered since it was tested. -/
def KeepsWatch (w : World) : Event → Prop
  | .start _ => True
  | .run index choice =>
    ∀ task ∈ w.tasks[index]?, ∀ action ∈ task.head?, keeps w choice action = true
  | .change (.assign status) => assignable w status = true
  | .change (.track pid) => quits w = true ∨ ∀ p ∈ w.shared.session.processes, p.exited = false →
      p.processId = pid → ahead w.tasks (answers w.shared.session.status pid) = true ∨
        LaunchSession.polled p = true ∧ monitored w = true
  | .change .remove => w.shared.session.hasEnded = true ∨ dispensable w = true
  | .change (.ensureTimer pumps) => startable w.shared pumps = true

instance (w : World) : (event : Event) → Decidable (KeepsWatch w event)
  | .start _ => isTrue trivial
  | .run index choice =>
    inferInstanceAs (Decidable
      (∀ task ∈ w.tasks[index]?, ∀ action ∈ task.head?, keeps w choice action = true))
  | .change (.assign status) => inferInstanceAs (Decidable (assignable w status = true))
  | .change (.track pid) =>
    inferInstanceAs (Decidable (quits w = true ∨ ∀ p ∈ w.shared.session.processes,
      p.exited = false → p.processId = pid → _ ∨ _))
  | .change .remove =>
    inferInstanceAs (Decidable (w.shared.session.hasEnded = true ∨ dispensable w = true))
  | .change (.ensureTimer pumps) => inferInstanceAs (Decidable (startable w.shared pumps = true))

structure Inv (w : World) : Prop where
  distinct : (w.shared.session.processes.map TrackedProcess.processId).Nodup
  keyed : (w.shared.tracked.map Prod.fst).Nodup
  first : ∀ task ∈ w.tasks, ∀ action ∈ task.tail, isMonitor action = false
  alone : monitors w.tasks ≤ w.shared.active.toNat
  watched : quits w = false → ∀ p ∈ w.shared.session.processes, p.exited = false →
    covers w p = true
  timed : relies w.shared = true → w.shared.timer.ticks = true ∨ starting w = true

theorem ahead_iff {tasks : List Task} {kind : Action → Bool} :
    ahead tasks kind = true ↔ ∃ task ∈ tasks, ∃ action ∈ task, kind action = true := by
  simp [ahead, List.any_eq_true]

theorem ahead_append {xs ys : List Task} {kind : Action → Bool} :
    ahead (xs ++ ys) kind = (ahead xs kind || ahead ys kind) := List.any_append

theorem ahead_at {w : World} {index : ℕ} {task : Task} (htask : w.tasks[index]? = some task)
    {kind : Action → Bool} (h : ahead w.tasks kind = true) :
    task.any kind = true ∨ ahead (w.others index) kind = true := by
  obtain ⟨other, hother, action, haction, hkind⟩ := ahead_iff.mp h
  rcases (mem_tasks_iff htask other).mp hother with rfl | hrest
  · exact .inl (List.any_eq_true.mpr ⟨action, haction, hkind⟩)
  · exact .inr (ahead_iff.mpr ⟨other, hrest, action, haction, hkind⟩)

section Turns
variable {s : Watch} {choice : Choice} {rest : Task} {action : Action} {kind : Action → Bool}

theorem act_tick (hticks : s.timer.ticks = true) :
    act s choice rest .tick =
      ({ s with tracked := s.tracked.filter fun entry => !choice.dead.contains entry.1 },
        [(s.tracked.filter fun entry => choice.dead.contains entry.1).map
          (fun entry => .exited entry.1 entry.2) ++ .testTracked :: rest]) := if_pos hticks

theorem act_tick_silent (hsilent : s.timer.ticks = false) :
    act s choice rest .tick = (s, [rest]) := if_neg (by simp [hsilent])

/-- A turn leaves the rest of its task ahead, unless the handler finds the session ended. -/
theorem ahead_rest (hgoes : action = .unlessEnded → s.session.hasEnded = false)
    (hrest : rest.any kind = true) : ahead (act s choice rest action).2 kind = true := by
  cases action with
  | unlessEnded => simp [act, ahead, hgoes rfl, hrest]
  | merge hit =>
    simp only [act]
    split
    · simp [ahead, hrest]
    · split <;> simp [ahead, hrest]
  | reattach | startMonitor | loop | poll | exited | testTracked | testBrowsers =>
    simp only [act]
    split <;> simp [ahead, hrest]
  | tick =>
    simp only [act]
    split <;> simp [ahead, List.any_append, hrest]
  | kill => simp [act, ahead, List.any_append, hrest]
  | _ => simp [act, ahead, hrest]

theorem tracked_act (htrack : ∀ pid callback, action ≠ .track pid callback)
    (htick : action ≠ .tick) : (act s choice rest action).1.tracked = s.tracked := by
  cases action with
  | track pid callback => exact absurd rfl (htrack pid callback)
  | tick => exact absurd rfl htick
  | add p => simp only [act, Watch.add]; split <;> rfl
  | merge hit =>
    simp only [act]
    split
    · rfl
    · split <;> rfl
  | renewToken | startMonitor | poll | killed => simp only [act]; split <;> rfl
  | _ => rfl

theorem timer_act (hensure : action ≠ .ensureTimer) (hstop : action ≠ .stopTimer) :
    (act s choice rest action).1.timer = s.timer := by
  cases action with
  | ensureTimer => exact absurd rfl hensure
  | stopTimer => exact absurd rfl hstop
  | add p => simp only [act, Watch.add]; split <;> rfl
  | merge hit =>
    simp only [act]
    split
    · rfl
    · split <;> rfl
  | renewToken | startMonitor | poll | killed | tick => simp only [act]; split <;> rfl
  | _ => rfl

theorem relies_act (htrack : ∀ pid callback, action ≠ .track pid callback)
    (h : relies (act s choice rest action).1 = true) : relies s = true := by
  by_cases htick : action = .tick
  · subst htick
    cases hticks : s.timer.ticks with
    | false => rwa [act_tick_silent hticks] at h
    | true =>
      rw [act_tick hticks] at h
      obtain ⟨entry, hentry, hmine⟩ := List.any_eq_true.mp h
      exact List.any_eq_true.mpr ⟨entry, (List.mem_filter.mp hentry).1, hmine⟩
  · rwa [relies, tracked_act htrack htick] at h

variable (choice rest) in
/-- A token that is in use is neither replaced nor cancelled, except by `StopSession`. -/
theorem token_act (hstop : action ≠ .stop) (h : s.cancelled = false) :
    (act s choice rest action).1.cancelled = false ∧
      (act s choice rest action).1.token = s.token := by
  cases action with
  | stop => exact absurd rfl hstop
  | add p => simp only [act, Watch.add]; split <;> exact ⟨h, rfl⟩
  | merge hit =>
    simp only [act]
    split
    · exact ⟨h, rfl⟩
    · split <;> exact ⟨h, rfl⟩
  | renewToken => simp [act, h]
  | startMonitor | poll | killed | tick => simp only [act]; split <;> exact ⟨h, rfl⟩
  | _ => exact ⟨h, rfl⟩

end Turns

def after (w : World) (index : ℕ) (choice : Choice) (action : Action) (rest : Task) : World :=
  { shared := (act w.shared choice rest action).1
    tasks := (act w.shared choice rest action).2 ++ w.others index }

section After
variable {w : World} {index : ℕ} {choice : Choice} {action : Action} {rest : Task}
  {status : Status} {pid : ℕ} {kind : Action → Bool}

variable (choice) in
theorem ahead_after (htask : w.tasks[index]? = some (action :: rest))
    (hgoes : action = .unlessEnded → w.shared.session.hasEnded = false)
    (h : ahead w.tasks kind = true) :
    kind action = true ∨ ahead (after w index choice action rest).tasks kind = true := by
  simp only [after, ahead_append, Bool.or_eq_true]
  rcases ahead_at htask h with hown | hother
  · rcases Bool.or_eq_true _ _ ▸ hown with hnow | hrest
    · exact .inl hnow
    · exact .inr (.inl (ahead_rest hgoes hrest))
  · exact .inr (.inr hother)

variable (index) in
theorem ahead_after_of_left (h : ahead (act w.shared choice rest action).2 kind = true) :
    ahead (after w index choice action rest).tasks kind = true := by
  simp only [after, ahead_append, h, Bool.true_or]

theorem registered_iff {s : Watch} :
    registered s status pid = true ↔
      ∃ callback, (pid, callback) ∈ s.tracked ∧ callback.heeds status = true := by
  simp [registered, List.any_eq_true]

/-- The callback of a PID stays registered, or is fired; a fired one that heeds the status marks
    the process. -/
theorem handled_after (htask : w.tasks[index]? = some (action :: rest))
    (hgoes : action = .unlessEnded → w.shared.session.hasEnded = false)
    (htrack : ∀ p callback, action = .track p callback → callback.heeds status = true)
    (hfired : ∀ p callback, action = .exited p callback → status = w.shared.session.status)
    (hmark : action ≠ .mark pid) (h : handled w status pid = true) :
    handled (after w index choice action rest) status pid = true := by
  simp only [handled, Bool.or_eq_true] at h ⊢
  rcases h with hreg | hahead
  · obtain ⟨callback, hentry, hheeds⟩ := registered_iff.mp hreg
    by_cases htick : action = .tick
    · subst htick
      cases hticks : w.shared.timer.ticks with
      | false =>
        left
        simp only [after, act_tick_silent hticks]
        exact hreg
      | true =>
        by_cases hdead : choice.dead.contains pid = true
        · refine .inr (ahead_after_of_left index ?_)
          rw [act_tick hticks]
          refine ahead_iff.mpr
            ⟨_, List.mem_singleton.mpr rfl, .exited pid callback, ?_, by simp [answers, hheeds]⟩
          exact List.mem_append.mpr (.inl (List.mem_map.mpr
            ⟨(pid, callback), List.mem_filter.mpr ⟨hentry, hdead⟩, rfl⟩))
        · left
          simp only [after, act_tick hticks]
          exact registered_iff.mpr
            ⟨callback, List.mem_filter.mpr ⟨hentry, by simpa using hdead⟩, hheeds⟩
    · left
      by_cases hnew : ∃ p new, action = .track p new
      · obtain ⟨p, new, rfl⟩ := hnew
        by_cases hpid : p = pid
        · subst hpid
          exact registered_iff.mpr ⟨new, List.mem_cons_self, htrack p new rfl⟩
        · refine registered_iff.mpr ⟨callback, List.mem_cons_of_mem _ ?_, hheeds⟩
          exact List.mem_filter.mpr ⟨hentry, by simpa using fun heq => hpid heq.symm⟩
      · refine registered_iff.mpr ⟨callback, ?_, hheeds⟩
        simp only [after, tracked_act (fun p new heq => hnew ⟨p, new, heq⟩) htick]
        exact hentry
  · rcases ahead_after choice htask hgoes hahead with hnow | hlater
    · cases action with
      | track p callback =>
        simp only [answers, Bool.and_eq_true, beq_iff_eq] at hnow
        obtain ⟨rfl, hheeds⟩ := hnow
        exact .inl (registered_iff.mpr ⟨callback, List.mem_cons_self, hheeds⟩)
      | exited p callback =>
        simp only [answers, Bool.and_eq_true, beq_iff_eq] at hnow
        obtain ⟨rfl, hheeds⟩ := hnow
        rw [hfired p callback rfl] at hheeds
        refine .inr (ahead_after_of_left index ?_)
        simp [act, ahead, hheeds, answers]
      | mark p =>
        simp only [answers, beq_iff_eq] at hnow
        exact absurd (congrArg Action.mark hnow) hmark
      | _ => cases hnow
    · exact .inr hlater

theorem inspecting_iff :
    inspecting w = true ↔
      w.shared.cancelled = false ∧ ahead w.tasks (inspects w.shared.token) = true := by
  simp [inspecting]

/-- A monitor whose token is in use goes round its loop while the session has a live process. -/
theorem inspecting_after (htask : w.tasks[index]? = some (action :: rest))
    (hended : w.shared.session.hasEnded = false) (hstop : action ≠ .stop)
    (hlive : ∀ token, action = .loop token → w.shared.session.hasLiveProcesses = true)
    (h : inspecting w = true) : inspecting (after w index choice action rest) = true := by
  obtain ⟨huse, hahead⟩ := inspecting_iff.mp h
  obtain ⟨hstill, htoken⟩ := token_act choice rest hstop huse
  refine inspecting_iff.mpr ⟨hstill, ?_⟩
  simp only [after] at htoken ⊢
  rw [htoken]
  rcases ahead_after choice htask (fun _ => hended) hahead with hnow | hlater
  · refine ahead_after_of_left index ?_
    cases action with
    | loop token =>
      simp only [inspects, beq_iff_eq] at hnow
      subst hnow
      simp [act, ahead, Watch.isCancelled, huse, hlive _ rfl, hended, inspects]
    | poll token =>
      simp only [inspects, beq_iff_eq] at hnow
      subst hnow
      simp [act, ahead, Watch.isCancelled, huse, inspects]
    | _ => cases hnow
  · exact hlater

theorem monitored_after (htask : w.tasks[index]? = some (action :: rest))
    (hended : w.shared.session.hasEnded = false) (hstop : action ≠ .stop)
    (hlive : ∀ token, action = .loop token → w.shared.session.hasLiveProcesses = true)
    (hstart : action = .startMonitor →
      (if w.shared.active then inspecting w else !w.shared.cancelled) = true)
    (h : monitored w = true) : monitored (after w index choice action rest) = true := by
  simp only [monitored, Bool.or_eq_true] at h ⊢
  rcases h with hinspecting | hahead
  · exact .inl (inspecting_after htask hended hstop hlive hinspecting)
  · rcases ahead_after choice htask (fun _ => hended) hahead with hnow | hlater
    · obtain rfl : action = .startMonitor := by simpa using hnow
      left
      have hready := hstart rfl
      split at hready
      · exact inspecting_after htask hended hstop hlive hready
      · rename_i hidle
        have huse : w.shared.cancelled = false := by simpa using hready
        refine inspecting_iff.mpr ⟨?_, ahead_after_of_left index ?_⟩
        · simp only [after, act, if_neg hidle]
          exact huse
        · simp [after, act, if_neg hidle, ahead, inspects]
    · exact .inr hlater

theorem covers_iff {p : TrackedProcess} :
    covers w p = true ↔ handled w w.shared.session.status p.processId = true ∨
      LaunchSession.polled p = true ∧ monitored w = true := by
  simp [covers]

theorem quits_iff :
    quits w = true ↔ w.shared.session.hasEnded = true ∨ ahead w.tasks ends = true := by
  simp [quits]

theorem handled_assign {new : Status} (hnew : ended.contains new = false)
    (hbrowser : new = .running ∨ usesBrowser w = false) (h : handled w status pid = true) :
    handled w new pid = true := by
  simp only [usesBrowser, Bool.or_eq_false_iff] at hbrowser
  simp only [handled, Bool.or_eq_true] at h ⊢
  have hheeds : ∀ callback : Callback, callback.heeds status = true →
      (new = .running ∨ callback ≠ .browser) → callback.heeds new = true := by
    rintro (_ | _ | _) hold hor
    · simpa [Callback.heeds] using hnew
    · rcases hor with rfl | hne
      · rfl
      · exact absurd rfl hne
    · cases hold
  rcases h with hreg | hahead
  · obtain ⟨callback, hentry, hold⟩ := registered_iff.mp hreg
    refine .inl (registered_iff.mpr ⟨callback, hentry, hheeds callback hold ?_⟩)
    refine hbrowser.imp id fun hnone hcallback => ?_
    have := List.any_eq_false.mp hnone.1 _ hentry
    simp [hcallback] at this
  · obtain ⟨task, htask, action, haction, hanswers⟩ := ahead_iff.mp hahead
    have hother : new = .running ∨ ofBrowser action = false := by
      refine hbrowser.imp id fun hnone => ?_
      by_contra hof
      have := ahead_iff.mpr ⟨task, htask, action, haction, by simpa using hof⟩
      rw [hnone.2] at this
      cases this
    refine .inr (ahead_iff.mpr ⟨task, htask, action, haction, ?_⟩)
    cases action with
    | track p callback | exited p callback =>
      simp only [answers, Bool.and_eq_true] at hanswers ⊢
      exact ⟨hanswers.1, hheeds callback hanswers.2 (hother.imp id (by simp [ofBrowser]))⟩
    | mark p => exact hanswers
    | _ => cases hanswers

theorem covers_after {p : TrackedProcess} (htask : w.tasks[index]? = some (action :: rest))
    (hended : w.shared.session.hasEnded = false) (hquits : quits w = false)
    (hok : keeps w choice action = true) (hset : ∀ new, action ≠ .setStatus new)
    (hstop : action ≠ .stop) (hmark : action ≠ .mark p.processId)
    (hlive : ∀ token, action = .loop token → w.shared.session.hasLiveProcesses = true)
    (hneeds : action = .startMonitor → p ∈ w.shared.session.processes ∧ p.exited = false)
    (hcovers : covers w p = true) :
    covers (after w index choice action rest) p = true := by
  have hstatus : (after w index choice action rest).shared.session.status =
      w.shared.session.status := status_act hset
  have hcarry : handled w w.shared.session.status p.processId = true →
      handled (after w index choice action rest) w.shared.session.status p.processId = true := by
    refine handled_after htask (fun _ => hended) ?_ (fun _ _ _ => rfl) hmark
    rintro pid callback rfl
    simpa [keeps, hquits] using hok
  rw [covers_iff, hstatus]
  rcases covers_iff.mp hcovers with hhandled | ⟨hpolled, hmonitored⟩
  · exact .inl (hcarry hhandled)
  · by_cases hrelies : action = .startMonitor ∧ dispensable w = true
    · -- the monitor that is not started is not needed either
      obtain ⟨hp, hnot⟩ := hneeds hrelies.1
      have hcallback := List.all_eq_true.mp hrelies.2 p hp
      rw [hnot, Bool.false_or] at hcallback
      exact .inl (hcarry hcallback)
    · refine .inr ⟨hpolled, monitored_after htask hended hstop hlive ?_ hmonitored⟩
      rintro rfl
      have hneeded : dispensable w = false := by simpa using hrelies
      simpa only [keeps, hneeded, hquits, Bool.or_false] using hok

theorem quits_after (htask : w.tasks[index]? = some (action :: rest))
    (hset : ∀ new, action ≠ .setStatus new) (h : quits w = true) :
    quits (after w index choice action rest) = true := by
  have hstatus : (after w index choice action rest).shared.session.status =
      w.shared.session.status := status_act hset
  by_cases hended : w.shared.session.hasEnded = true
  · exact quits_iff.mpr (.inl (by simpa only [LaunchSession.hasEnded, hstatus] using hended))
  · have hahead := (quits_iff.mp h).resolve_left hended
    rcases ahead_after choice htask (fun _ => by simpa using hended) hahead with
      hnow | hlater
    · cases action with
      | setStatus new => exact absurd rfl (hset new)
      | _ => cases hnow
    · exact quits_iff.mpr (.inr hlater)

/-- What an assignable status leaves of the cover: it ends the session, or it is heeded by what
    the session's callbacks are. -/
theorem covers_of_assignable {new : Status} (hw : Inv w) (hok : assignable w new = true)
    (hnew : ended.contains new = false) (hends : ahead w.tasks ends = false) {p : TrackedProcess}
    (hp : p ∈ w.shared.session.processes) (hlive : p.exited = false) :
    w.shared.session.hasEnded = false ∧
      (handled w new p.processId = true ∨
        LaunchSession.polled p = true ∧ monitored w = true) := by
  have hsome : w.shared.session.hasLiveProcesses = true :=
    SessionLifecycle.hasLiveProcesses_iff.mpr ⟨p, hp, hlive⟩
  simp only [assignable, hnew, hsome, Bool.false_or, Bool.not_true, Bool.or_false,
    Bool.and_eq_true, Bool.not_eq_true', Bool.or_eq_true, beq_iff_eq] at hok
  obtain ⟨hended, hbrowser⟩ := hok
  have hquits : quits w = false := by simp only [quits, hended, hends, Bool.or_self]
  refine ⟨hended, ?_⟩
  rcases covers_iff.mp (hw.watched hquits p hp hlive) with hhandled | hmonitored
  · exact .inl (handled_assign hnew hbrowser hhandled)
  · exact .inr hmonitored

theorem watched_setStatus {new : Status} (hw : Inv w) (hok : assignable w new = true)
    (htask : w.tasks[index]? = some (.setStatus new :: rest))
    (hquits : quits (after w index choice (.setStatus new) rest) = false) {p : TrackedProcess}
    (hp : p ∈ w.shared.session.processes) (hlive : p.exited = false) :
    covers (after w index choice (.setStatus new) rest) p = true := by
  obtain ⟨hnew, hlater⟩ := Bool.or_eq_false_iff.mp hquits
  have hnew : ended.contains new = false := hnew
  have hends : ahead w.tasks ends = false := by
    by_contra hahead
    have hgoes : Action.setStatus new = .unlessEnded → w.shared.session.hasEnded = false :=
      fun h => (by cases h)
    rcases ahead_after choice htask hgoes (by simpa using hahead) with hnow | hstill
    · rw [ends, hnew] at hnow
      cases hnow
    · rw [hlater] at hstill
      cases hstill
  obtain ⟨hended, hcovers⟩ := covers_of_assignable hw hok hnew hends hp hlive
  refine covers_iff.mpr ?_
  rcases hcovers with hhandled | ⟨hpolled, hmonitored⟩
  · exact .inl (handled_after htask (fun _ => hended) (fun _ _ h => by cases h)
      (fun _ _ h => by cases h) (fun h => by cases h) hhandled)
  · exact .inr ⟨hpolled, monitored_after htask hended (fun h => by cases h)
      (fun _ h => by cases h) (fun h => by cases h) hmonitored⟩

theorem watched_run (hw : Inv w) (hok : keeps w choice action = true)
    (htask : w.tasks[index]? = some (action :: rest))
    (hquits : quits (after w index choice action rest) = false) {p : TrackedProcess}
    (hp : p ∈ (after w index choice action rest).shared.session.processes)
    (hlive : p.exited = false) : covers (after w index choice action rest) p = true := by
  by_cases hassign : ∃ new, action = .setStatus new
  · obtain ⟨new, rfl⟩ := hassign
    exact watched_setStatus hw hok htask hquits hp hlive
  have hset : ∀ new, action ≠ .setStatus new := fun new h => hassign ⟨new, h⟩
  have hbefore : quits w = false := by
    by_contra h
    rw [quits_after htask hset (by simpa using h)] at hquits
    cases hquits
  have hended : w.shared.session.hasEnded = false := (Bool.or_eq_false_iff.mp hbefore).1
  have hstop : action ≠ .stop := by
    rintro rfl
    rw [quits_iff.mpr (.inr (ahead_after_of_left index (by rfl)))] at hquits
    cases hquits
  have hmark : action ≠ .mark p.processId := by
    rintro rfl
    have hexited := exited_markProcessExited hw.distinct hp
    rw [hlive] at hexited
    cases hexited
  have carry : ∀ hcovers : covers w p = true,
      (∀ token, action = .loop token → w.shared.session.hasLiveProcesses = true) →
      (action = .startMonitor → p ∈ w.shared.session.processes ∧ p.exited = false) →
      covers (after w index choice action rest) p = true := fun hcovers hloop hneeds =>
    covers_after htask hended hbefore hok hset hstop hmark hloop hneeds hcovers
  rcases live_act hp hlive with hold | rfl | ⟨hit, rfl, hpid, hfresh⟩
  · exact carry (hw.watched hbefore p hold hlive)
      (fun _ _ => SessionLifecycle.hasLiveProcesses_iff.mpr ⟨p, hold, hlive⟩)
      (fun _ => ⟨hold, hlive⟩)
  · by_cases htracked : w.shared.session.tracks p.processId = true
    · have hold : p ∈ w.shared.session.processes := by
        simpa only [after, act, Watch.add, if_pos htracked] using hp
      exact carry (hw.watched hbefore p hold hlive) (fun _ h => by cases h) (fun h => by cases h)
    · refine carry ?_ (fun _ h => by cases h) (fun h => by cases h)
      simpa only [keeps, htracked, hbefore, Bool.false_or, Bool.or_false] using hok
  · -- the hit's callback is the next thing its handler registers
    have hheeds : Callback.heeds w.shared.session.status .session = true := by
      simpa only [Callback.heeds, LaunchSession.hasEnded, Bool.not_eq_true'] using hended
    have hstatus : (after w index choice (.merge hit) rest).shared.session.status =
        w.shared.session.status := status_act hset
    refine covers_iff.mpr (.inl ?_)
    simp only [handled, Bool.or_eq_true]
    refine .inr (ahead_after_of_left index ?_)
    rw [hstatus, hpid]
    simp only [act, hfresh, Bool.false_eq_true, if_false]
    split <;> simp [ahead, answers, hheeds]

end After

section Monitors
variable {s : Watch} {choice : Choice} {rest : Task} {action : Action}

theorem countP_of_forall {l : Task} (h : ∀ a ∈ l, isMonitor a = false) :
    List.countP isMonitor (l ++ rest) = List.countP isMonitor rest := by
  rw [List.countP_append, List.countP_eq_zero.mpr fun a ha => by simp [h a ha], Nat.zero_add]

variable (s choice rest) in
theorem monitors_act (hstart : action ≠ .startMonitor) (hleave : action ≠ .leave) :
    (act s choice rest action).1.active = s.active ∧
      monitors (act s choice rest action).2 ≤ List.countP isMonitor (action :: rest) := by
  cases action with
  | startMonitor => exact absurd rfl hstart
  | leave => exact absurd rfl hleave
  | unlessEnded =>
    refine ⟨rfl, ?_⟩
    simp only [act]
    split <;> simp [monitors, isMonitor]
  | add p =>
    simp only [act, Watch.add]
    split <;> simp [monitors, isMonitor]
  | merge hit =>
    simp only [act]
    split
    · simp [monitors, isMonitor]
    · split <;> simp [monitors, isMonitor]
  | reattach | renewToken | exited | killed | testTracked | testBrowsers =>
    simp only [act]
    split <;> simp [monitors, isMonitor]
  | loop | poll =>
    simp only [act]
    split <;> simp [monitors, isMonitor, List.countP_cons]
  | tick =>
    cases hticks : s.timer.ticks with
    | false => rw [act_tick_silent hticks]; exact ⟨rfl, by simp [monitors, isMonitor]⟩
    | true =>
      rw [act_tick hticks]
      refine ⟨rfl, ?_⟩
      simp only [monitors, List.map_cons, List.map_nil, List.sum_cons, List.sum_nil]
      rw [countP_of_forall fun a ha => by obtain ⟨_, _, rfl⟩ := List.mem_map.mp ha; rfl]
      simp [isMonitor]
  | kill =>
    refine ⟨rfl, ?_⟩
    simp only [act, monitors, List.map_cons, List.map_nil, List.sum_cons, List.sum_nil]
    rw [countP_of_forall fun a ha => by obtain ⟨_, _, rfl⟩ := List.mem_map.mp ha; rfl]
    simp [List.countP_cons]
  | _ => exact ⟨rfl, by simp [act, monitors, isMonitor]⟩

/-- A monitor is started when none is active, and the session's place is free again only when
    the monitor is gone. -/
theorem alone_act {others : ℕ}
    (h : List.countP isMonitor (action :: rest) + others ≤ s.active.toNat) :
    monitors (act s choice rest action).2 + others ≤
      (act s choice rest action).1.active.toNat := by
  by_cases hstart : action = .startMonitor
  · subst hstart
    cases hactive : s.active with
    | true => simpa [act, hactive, monitors, isMonitor] using h
    | false =>
      have hcount : List.countP isMonitor (.startMonitor :: rest) = List.countP isMonitor rest :=
        List.countP_cons_of_neg (by decide)
      have hleft : monitors (act s choice rest .startMonitor).2 =
          List.countP isMonitor rest + 1 := by
        simp [act, hactive, monitors, isMonitor]
      rw [hleft]
      simp only [act, hactive, Bool.false_eq_true, if_false, Bool.toNat_true]
      rw [hactive, Bool.toNat_false] at h
      omega
  · by_cases hleave : action = .leave
    · subst hleave
      have hone := Bool.toNat_le s.active
      have hcount : List.countP isMonitor (.leave :: rest) = List.countP isMonitor rest + 1 :=
        List.countP_cons_of_pos rfl
      have hleft : monitors (act s choice rest .leave).2 = List.countP isMonitor rest :=
        Nat.add_zero _
      rw [hleft]
      simp only [act, Bool.toNat_false]
      omega
    · obtain ⟨hactive, hcount⟩ := monitors_act s choice rest hstart hleave
      rw [hactive]
      omega

theorem first_act (hrest : ∀ a ∈ rest, isMonitor a = false) :
    ∀ task ∈ (act s choice rest action).2, ∀ a ∈ task.tail, isMonitor a = false := by
  have htail : ∀ a ∈ rest.tail, isMonitor a = false := fun a ha => hrest a (List.mem_of_mem_tail ha)
  have hmap : ∀ xs ys : Task, (∀ a ∈ xs, isMonitor a = false) → (∀ a ∈ ys, isMonitor a = false) →
      ∀ a ∈ (xs ++ ys).tail, isMonitor a = false := by
    intro xs ys hxs hys a ha
    rcases List.mem_append.mp (List.mem_of_mem_tail ha) with hnew | hold
    · exact hxs a hnew
    · exact hys a hold
  cases action with
  | unlessEnded =>
    simp only [act, List.forall_mem_singleton]
    split
    · simp
    · exact htail
  | merge hit =>
    simp only [act]
    split
    · simpa using htail
    · split <;> simpa [isMonitor] using hrest
  | reattach | exited | testTracked | testBrowsers =>
    simp only [act, List.forall_mem_singleton]
    split
    · exact hrest
    · exact htail
  | startMonitor =>
    simp only [act]
    split <;> simpa using htail
  | loop token =>
    simp only [act, List.forall_mem_singleton]
    split <;> exact hrest
  | poll token =>
    simp only [act]
    split <;> simpa using hrest
  | tick =>
    cases hticks : s.timer.ticks with
    | false => rw [act_tick_silent hticks]; exact List.forall_mem_singleton.mpr htail
    | true =>
      rw [act_tick hticks, List.forall_mem_singleton]
      refine hmap _ _ (fun a ha => ?_) (List.forall_mem_cons.mpr ⟨rfl, hrest⟩)
      obtain ⟨_, _, rfl⟩ := List.mem_map.mp ha
      rfl
  | kill =>
    simp only [act, List.forall_mem_singleton]
    exact hmap _ _ (fun a ha => by obtain ⟨_, _, rfl⟩ := List.mem_map.mp ha; rfl) hrest
  | stop | track => simpa [act, isMonitor] using hrest
  | _ => simpa [act] using htail

theorem keyed_trackPid {pid : ℕ} {callback : Callback} (h : (s.tracked.map Prod.fst).Nodup) :
    ((s.trackPid pid callback).tracked.map Prod.fst).Nodup := by
  simp only [Watch.trackPid, List.map_cons, List.nodup_cons]
  refine ⟨fun hmem => ?_, h.sublist (List.filter_sublist.map _)⟩
  obtain ⟨entry, hentry, rfl⟩ := List.mem_map.mp hmem
  simpa using (List.mem_filter.mp hentry).2

theorem keyed_act (h : (s.tracked.map Prod.fst).Nodup) :
    ((act s choice rest action).1.tracked.map Prod.fst).Nodup := by
  by_cases htrack : ∃ pid callback, action = .track pid callback
  · obtain ⟨pid, callback, rfl⟩ := htrack
    exact keyed_trackPid h
  · by_cases htick : action = .tick
    · subst htick
      cases hticks : s.timer.ticks with
      | false => rw [act_tick_silent hticks]; exact h
      | true => rw [act_tick hticks]; exact h.sublist (List.filter_sublist.map _)
    · rw [tracked_act (fun pid callback heq => htrack ⟨pid, callback, heq⟩) htick]
      exact h

end Monitors

section Timer
variable {w : World} {index : ℕ} {choice : Choice} {action : Action} {rest : Task}

theorem relies_startable {s : Watch} {pumps : Bool} (hok : startable s pumps = true)
    (h : relies s = true) : (s.timer.ensureStarted pumps).ticks = true := by
  rw [ticks_ensureStarted]
  simpa [startable, h] using hok

theorem starting_after (htask : w.tasks[index]? = some (action :: rest))
    (hensure : action ≠ .ensureTimer) (h : starting w = true) :
    starting (after w index choice action rest) = true := by
  obtain ⟨task, hmem, hhead⟩ := List.any_eq_true.mp h
  refine List.any_eq_true.mpr ⟨task, List.mem_append.mpr (.inr ?_), hhead⟩
  rcases (mem_tasks_iff htask task).mp hmem with rfl | hother
  · exact absurd (by simpa using hhead) hensure
  · exact hother

/-- Whoever registers a callback comes to the timer, and finds it ticking or starts it. -/
theorem timed_run (hw : Inv w) (hok : keeps w choice action = true)
    (htask : w.tasks[index]? = some (action :: rest))
    (hrelies : relies (after w index choice action rest).shared = true) :
    (after w index choice action rest).shared.timer.ticks = true ∨
      starting (after w index choice action rest) = true := by
  by_cases htrack : ∃ pid callback, action = .track pid callback
  · obtain ⟨pid, callback, rfl⟩ := htrack
    exact .inr (by simp [starting, after, act])
  have hbefore : relies w.shared = true :=
    relies_act (fun pid callback h => htrack ⟨pid, callback, h⟩) hrelies
  by_cases hensure : action = .ensureTimer
  · subst hensure
    exact .inl (relies_startable hok hbefore)
  by_cases hstop : action = .stopTimer
  · subst hstop
    refine .inr (starting_after htask hensure ?_)
    simpa [keeps, hbefore] using hok
  · refine (hw.timed hbefore).imp (fun hticks => ?_) (starting_after htask hensure)
    exact (congrArg Timer.ticks (timer_act hensure hstop)).trans hticks

end Timer

theorem monitors_at {w : World} {index : ℕ} {task : Task} (htask : w.tasks[index]? = some task) :
    monitors w.tasks = List.countP isMonitor task + monitors (w.others index) :=
  sum_tasks htask _

theorem monitors_append (xs ys : List Task) : monitors (xs ++ ys) = monitors xs + monitors ys := by
  simp [monitors, List.map_append, List.sum_append]

/-- A world with the same state and no less ahead of it is watched no less. -/
theorem inv_of_ahead {w t : World} (hw : Inv w) (hshared : t.shared = w.shared)
    (hahead : ∀ kind, ahead w.tasks kind = true → ahead t.tasks kind = true)
    (hfirst : ∀ task ∈ t.tasks, ∀ action ∈ task.tail, isMonitor action = false)
    (halone : monitors t.tasks ≤ monitors w.tasks)
    (hstarting : starting w = true → starting t = true) : Inv t := by
  have hinspecting : inspecting w = true → inspecting t = true := by
    simp only [inspecting_iff, hshared]
    exact fun h => ⟨h.1, hahead _ h.2⟩
  refine ⟨hshared ▸ hw.distinct, hshared ▸ hw.keyed, hfirst, ?_, fun hquits p hp hlive => ?_,
    fun hrelies => ?_⟩
  · rw [hshared]
    exact Nat.le_trans halone hw.alone
  · have hbefore : quits w = false := by
      by_contra h
      rcases quits_iff.mp (by simpa using h) with hended | hends
      · rw [quits_iff.mpr (.inl (hshared ▸ hended))] at hquits
        cases hquits
      · rw [quits_iff.mpr (.inr (hahead _ hends))] at hquits
        cases hquits
    rw [covers_iff, hshared]
    rcases covers_iff.mp (hw.watched hbefore p (hshared ▸ hp) hlive) with hhandled | ⟨hrole, hmon⟩
    · simp only [handled, Bool.or_eq_true, hshared] at hhandled ⊢
      exact .inl (hhandled.imp id (hahead _))
    · simp only [monitored, Bool.or_eq_true] at hmon ⊢
      exact .inr ⟨hrole, hmon.imp hinspecting (hahead _)⟩
  · rw [hshared] at hrelies ⊢
    exact (hw.timed hrelies).imp id hstarting

theorem inv_run {w : World} {index : ℕ} {task : Task} {choice : Choice}
    {next : Watch × List Task} (hw : Inv w) (hok : KeepsWatch w (.run index choice))
    (htask : w.tasks[index]? = some task) (hturn : turn w task choice = some next) :
    Inv { shared := next.1, tasks := next.2 ++ w.others index } := by
  have halone := hw.alone
  rw [monitors_at htask] at halone
  have hothers : ∀ other ∈ w.others index, ∀ action ∈ other.tail, isMonitor action = false :=
    fun other hother => hw.first other ((mem_tasks_iff htask other).mpr (.inr hother))
  cases task with
  | nil =>
    obtain rfl := Option.some.inj hturn
    refine inv_of_ahead hw rfl (fun kind hahead => ?_) hothers ?_ fun hstarting => ?_
    · exact (ahead_at htask hahead).resolve_left (by simp)
    · rw [monitors_at htask]
      exact Nat.le_add_left _ _
    · obtain ⟨other, hmem, hhead⟩ := List.any_eq_true.mp hstarting
      rcases (mem_tasks_iff htask other).mp hmem with rfl | hother
      · cases hhead
      · exact List.any_eq_true.mpr ⟨other, hother, hhead⟩
  | cons action rest =>
    obtain rfl := Option.some.inj hturn
    have hrest : ∀ a ∈ rest, isMonitor a = false :=
      hw.first _ ((mem_tasks_iff htask _).mpr (.inl rfl))
    have hguard : keeps w choice action = true := hok _ htask action rfl
    refine ⟨distinct_act hw.distinct, keyed_act hw.keyed, ?_, ?_, fun hquits p hp hlive => ?_,
      timed_run hw hguard htask⟩
    · intro task hmem
      rcases List.mem_append.mp hmem with hnew | hold
      · exact first_act hrest task hnew
      · exact hothers task hold
    · rw [monitors_append]
      exact alone_act halone
    · exact watched_run hw hguard htask hquits hp hlive

theorem entry_first (handler : Handler) : ∀ action ∈ handler.task, isMonitor action = false := by
  cases handler with
  | discoverStoreAppProcesses | browserProcesses =>
    intro action haction
    rcases List.mem_cons.mp haction with rfl | hadd
    · rfl
    · obtain ⟨_, _, rfl⟩ := List.mem_map.mp hadd
      rfl
  | _ => simp [Handler.task, isMonitor]

theorem inv_start {w : World} (hw : Inv w) (handler : Handler) :
    Inv { w with tasks := handler.task :: w.tasks } := by
  refine inv_of_ahead hw rfl (fun kind hahead => ?_) (fun task htask => ?_) ?_ fun hstarting => ?_
  · obtain ⟨task, htask, hkind⟩ := ahead_iff.mp hahead
    exact ahead_iff.mpr ⟨task, List.mem_cons_of_mem _ htask, hkind⟩
  · rcases List.mem_cons.mp htask with rfl | hold
    · exact fun a ha => entry_first handler a (List.mem_of_mem_tail ha)
    · exact hw.first task hold
  · have hnone : List.countP isMonitor handler.task = 0 :=
      List.countP_eq_zero.mpr fun a ha => by simp [entry_first handler a ha]
    simp [monitors, hnone]
  · obtain ⟨task, htask, hhead⟩ := List.any_eq_true.mp hstarting
    exact List.any_eq_true.mpr ⟨task, List.mem_cons_of_mem _ htask, hhead⟩

theorem inv_assign {w : World} {new : Status} (hw : Inv w) (hok : assignable w new = true) :
    Inv { w with shared := w.shared.setStatus new } := by
  refine ⟨hw.distinct, hw.keyed, hw.first, hw.alone, fun hquits p hp hlive => ?_, hw.timed⟩
  obtain ⟨hnew, hends⟩ := Bool.or_eq_false_iff.mp hquits
  exact covers_iff.mpr (covers_of_assignable hw hok hnew hends hp hlive).2

/-- Another session takes a PID over; what remains is a callback of the session that is still
    ahead, or the monitor. -/
theorem inv_track {w : World} {pid : ℕ} (hw : Inv w) (hok : KeepsWatch w (.change (.track pid))) :
    Inv { w with shared := w.shared.trackPid pid .other } := by
  have hrelies : relies (w.shared.trackPid pid .other) = true → relies w.shared = true := by
    intro h
    obtain ⟨entry, hentry, hmine⟩ := List.any_eq_true.mp h
    rcases List.mem_cons.mp hentry with rfl | hold
    · cases hmine
    · exact List.any_eq_true.mpr ⟨entry, (List.mem_filter.mp hold).1, hmine⟩
  refine ⟨hw.distinct, keyed_trackPid hw.keyed, hw.first, hw.alone, fun hquits p hp hlive => ?_,
    fun h => hw.timed (hrelies h)⟩
  have hbefore : quits w = false := hquits
  refine covers_iff.mpr ?_
  by_cases hpid : p.processId = pid
  · rcases hok with hended | hother
    · rw [hbefore] at hended
      cases hended
    · refine (hother p hp hlive hpid).imp (fun hahead => ?_) id
      simp only [handled, Bool.or_eq_true, hpid]
      exact .inr hahead
  · refine (covers_iff.mp (hw.watched hbefore p hp hlive)).imp (fun hhandled => ?_) id
    simp only [handled, Bool.or_eq_true] at hhandled ⊢
    refine hhandled.imp (fun hreg => ?_) id
    obtain ⟨callback, hentry, hheeds⟩ := registered_iff.mp hreg
    refine registered_iff.mpr ⟨callback, List.mem_cons_of_mem _ ?_, hheeds⟩
    exact List.mem_filter.mpr ⟨hentry, by simpa using hpid⟩

theorem inv_remove {w : World} (hw : Inv w) (hok : KeepsWatch w (.change .remove)) :
    Inv { w with shared := { w.shared with cancelled := true } } := by
  refine ⟨hw.distinct, hw.keyed, hw.first, hw.alone, fun hquits p hp hlive => ?_, hw.timed⟩
  have hbefore : quits w = false := hquits
  rcases hok with hended | hneedless
  · rw [quits_iff.mpr (.inl hended)] at hbefore
    cases hbefore
  · have hcallback := List.all_eq_true.mp hneedless p hp
    rw [hlive, Bool.false_or] at hcallback
    exact covers_iff.mpr (.inl hcallback)

theorem inv_ensureTimer {w : World} {pumps : Bool} (hw : Inv w)
    (hok : startable w.shared pumps = true) :
    Inv { w with shared := { w.shared with timer := w.shared.timer.ensureStarted pumps } } :=
  { hw with timed := fun h => .inl (relies_startable hok h) }

theorem inv_step {w t : World} {event : Event} (hw : Inv w) (hok : KeepsWatch w event)
    (hstep : step w event = some t) : Inv t := by
  cases event with
  | start handler =>
    obtain rfl := Option.some.inj hstep
    exact inv_start hw handler
  | run index choice =>
    obtain ⟨task, next, htask, hturn, rfl⟩ := step_run hstep
    exact inv_run hw hok htask hturn
  | change event =>
    cases event <;> obtain rfl := Option.some.inj hstep
    · exact inv_assign hw hok
    · exact inv_track hw hok
    · exact inv_remove hw hok
    · exact inv_ensureTimer hw hok

/-- Every launch that starts a process registers its exit callback before it returns. -/
theorem inv_launched (launch : Launch) : Inv (launched launch) := by
  have hnone : ∀ pid, ∀ a ∈ launch.task pid, isMonitor a = false := by
    intro pid
    cases launch <;> simp [Launch.task, isMonitor]
  refine ⟨?_, List.nodup_nil, ?_, ?_, ?_, fun h => by cases h⟩
  · cases hroot : launch.root <;> simp [launched, hroot]
  · intro task htask
    obtain ⟨pid, _, rfl⟩ := List.mem_map.mp htask
    exact fun a ha => hnone pid a (List.mem_of_mem_tail ha)
  · cases hroot : launch.root with
    | none => simp [launched, hroot, monitors]
    | some pid =>
      have hzero : List.countP isMonitor (launch.task pid) = 0 :=
        List.countP_eq_zero.mpr fun a ha => by simp [hnone pid a ha]
      simp [launched, hroot, monitors, hzero]
  · intro hquits p hp hlive
    obtain ⟨pid, hpid, rfl⟩ := List.mem_map.mp hp
    have hahead : ahead (launched launch).tasks (answers .running pid) = true := by
      refine ahead_iff.mpr ⟨launch.task pid, List.mem_map.mpr ⟨pid, hpid, rfl⟩, ?_⟩
      cases launch <;> simp [Launch.task, answers, Callback.heeds] <;> decide
    refine covers_iff.mpr (.inl ?_)
    simp only [handled, Bool.or_eq_true]
    exact .inr hahead

theorem step_of_task {w : World} {index : ℕ} {choice : Choice} {action : Action} {rest : Task}
    (htask : w.tasks[index]? = some (action :: rest)) :
    step w (.run index choice) = some (after w index choice action rest) := by
  simp only [ExitMonitors.step, TaskPools.step, htask, turn, Option.map_some]
  rfl

theorem reportsTo_cons {w t : World} {event : Event} {events : List Event} {kind : World → Prop}
    (hstep : step w event = some t) (hevent : Reports w event) (h : ReportsTo t events kind) :
    ReportsTo w (event :: events) kind := by
  obtain ⟨u, hmeets, hexec, hkind⟩ := h
  exact ⟨u, (meets_cons hstep).mpr ⟨hevent, hmeets⟩, by rw [exec_cons, hstep]; exact hexec, hkind⟩

theorem reportsTo_run {w : World} {index : ℕ} (choice : Choice) (action : Action) (rest : Task)
    {events : List Event} {kind : World → Prop}
    (htask : w.tasks[index]? = some (action :: rest)) (hreports : reports action = true)
    (h : ReportsTo (after w index choice action rest) events kind) :
    ReportsTo w (.run index choice :: events) kind :=
  reportsTo_cons (step_of_task htask) ⟨action, rest, htask, hreports⟩ h

theorem look {s : Watch} {t : World} {p : TrackedProcess} (index : ℕ) (rest : Task)
    (hdistinct : (s.session.processes.map TrackedProcess.processId).Nodup)
    (hp : p ∈ s.session.processes) (hpolled : LaunchSession.polled p = true)
    (hshared : t.shared = s) (htask : t.tasks[index]? = some (.poll s.token :: rest)) :
    ReportsTo t [.run index { branch := false, dead := [p.processId] }] (Marked p.processId) := by
  refine reportsTo_run _ _ _ htask rfl ⟨_, trivial, rfl, fun q hq hsame => ?_⟩
  simp only [after, act, Bool.and_false, Bool.false_eq_true, if_false, hshared] at hq
  exact exited_reap hdistinct hp hpolled (by simp) hq hsame

end ProxySwitch.WatchedExits
