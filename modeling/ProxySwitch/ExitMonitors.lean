import Mathlib.Data.List.Nodup
import ProxySwitch.FormsTimers
import ProxySwitch.SessionLifecycle

set_option autoImplicit false

/-!
# Exit callbacks and descendant monitors

Who would notice the exit of a process of one session: the callbacks of `ProcessMonitor`, one for
each PID, and the descendant monitor, one for each session. A handler is the list of its steps
from one lock or test to the next. `Status` is tested where the source tests it; what exit
callbacks, grace timers, the search for a correlated process and its dialog assign to it comes
from outside, and so do the calls of `TrackPid` and `TrackBrowser` for other sessions.
-/
namespace ProxySwitch.ExitMonitors
open SessionLifecycle (LaunchSession TrackedProcess Status Choice ended)
open FormsTimers KeyedLists TaskPools TransitionRuns

/-- The `onExited` of a PID: a callback of the session, the one of `LaunchBrowser`, or one of
    another session. -/
inductive Callback
  | session
  | browser
  | other
  deriving DecidableEq, Repr

/-- The test of `Status` in the callback lets it mark the process. -/
def Callback.heeds (status : Status) : Callback → Bool
  | .session => !ended.contains status
  | .browser => status == .running
  | .other => false

/-- `tracked` and `timer` are those of `ProcessMonitor`, `active` the session's place in
    `_activeDescendantMonitors`, `token` its entry of `_sessionCts`, counted up when it is
    replaced. A session without an entry has a cancelled one. -/
structure Watch where
  session : LaunchSession
  tracked : List (ℕ × Callback) := []
  timer : Timer := {}
  active : Bool := false
  token : ℕ := 0
  cancelled : Bool := false
  deriving DecidableEq

inductive Action
  | unlessEnded
  | add (p : TrackedProcess)
  | forget (pids : List ℕ)
  | merge (hit : TrackedProcess)
  | reattach
  | setStatus (status : Status)
  | track (pid : ℕ) (callback : Callback)
  | ensureTimer
  | renewToken
  | startMonitor
  | loop (token : ℕ)
  | poll (token : ℕ)
  | leave
  | tick
  | testTracked
  | testBrowsers
  | stopTimer
  | exited (pid : ℕ) (callback : Callback)
  | mark (pid : ℕ)
  | stop
  | kill
  | killed (pid : ℕ)
  deriving DecidableEq, Repr

abbrev Task := List Action

abbrev World := Pool Watch Task

namespace Watch

def add (s : Watch) (p : TrackedProcess) : Watch :=
  if s.session.tracks p.processId then s else { s with session := s.session.addProcess p }

def trackPid (s : Watch) (pid : ℕ) (callback : Callback) : Watch :=
  { s with tracked := (pid, callback) :: s.tracked.filter (·.1 != pid) }

def isCancelled (s : Watch) (token : ℕ) : Bool := s.cancelled || token != s.token

def setStatus (s : Watch) (status : Status) : Watch :=
  { s with session := { s.session with status := status } }

end Watch

/-- `branch` is a delay that its token cut short, a process that was killed, a thread that pumps
    messages, or a table of browser profiles that is empty; `dead` are the PIDs that no longer
    run. -/
def act (s : Watch) (choice : Choice) (rest : Task) : Action → Watch × List Task
  | .unlessEnded => (s, [if s.session.hasEnded then [] else rest])
  | .add p => (s.add p, [rest])
  | .forget pids => ({ s with session := s.session.forgetDescendants pids }, [rest])
  | .merge hit =>
    if s.session.tracks hit.processId then (s, [rest])
    else if s.session.status = .waitingForRestart then
      ({ s with session := s.session.addProcess { hit with role := .restartedChild } },
        [.setStatus .running :: .track hit.processId .session :: .renewToken :: .startMonitor :: rest])
    else
      ({ s with session := s.session.addProcess hit }, [.track hit.processId .session :: rest])
  | .reattach =>
    (s, [if s.session.status = .waitingForRestart then .setStatus .running :: rest else rest])
  | .setStatus status => (s.setStatus status, [rest])
  | .track pid callback => (s.trackPid pid callback, [.ensureTimer :: rest])
  | .ensureTimer => ({ s with timer := s.timer.ensureStarted choice.branch }, [rest])
  | .renewToken =>
    (if s.cancelled then { s with token := s.token + 1, cancelled := false } else s, [rest])
  | .startMonitor =>
    if s.active then (s, [rest]) else ({ s with active := true }, [rest, [.loop s.token]])
  | .loop token =>
    (s, [if s.isCancelled token || !s.session.hasLiveProcesses || s.session.hasEnded then
      .leave :: rest else .poll token :: rest])
  | .poll token =>
    if s.isCancelled token && choice.branch then (s, [.leave :: rest])
    else ({ s with session := s.session.reap choice.dead }, [.loop token :: rest])
  | .leave => ({ s with active := false }, [rest])
  | .tick =>
    if s.timer.ticks then
      let dead := s.tracked.filter fun entry => choice.dead.contains entry.1
      ({ s with tracked := s.tracked.filter fun entry => !choice.dead.contains entry.1 },
        [dead.map (fun entry => .exited entry.1 entry.2) ++ .testTracked :: rest])
    else (s, [rest])
  -- the end of `OnTick` takes no lock, and tests and stops one after the other
  | .testTracked => (s, [if s.tracked = [] then .testBrowsers :: rest else rest])
  | .testBrowsers => (s, [if choice.branch then .stopTimer :: rest else rest])
  | .stopTimer => ({ s with timer := s.timer.stop }, [rest])
  | .exited pid callback =>
    (s, [if callback.heeds s.session.status then .mark pid :: rest else rest])
  | .mark pid => ({ s with session := s.session.markProcessExited pid }, [rest])
  | .stop => ({ s with cancelled := true }, [.setStatus .exited :: .kill :: rest])
  | .kill => (s, [s.session.livePids.map .killed ++ rest])
  | .killed pid =>
    (if choice.branch then { s with session := s.session.markProcessExited pid } else s, [rest])

def turn (w : World) : Task → Choice → Option (Watch × List Task)
  | [], _ => some (w.shared, [])
  | action :: rest, choice => some (act w.shared choice rest action)

/-- A hit of `processStarted` is one that matches the session; the candidates of the store
    discovery are those whose `addPid` was acknowledged. -/
inductive Handler
  | descendant (p : TrackedProcess)
  | discoverStoreAppProcesses (candidates : List TrackedProcess)
  | browserProcesses (root : ℕ) (pids : List ℕ)
  | processStarted (hit : TrackedProcess)
  | externalLaunch (hit : TrackedProcess)
  | attachCorrelated (candidate : TrackedProcess)
  | tick
  | stop

def Handler.task : Handler → Task
  | descendant p => [.add { p with role := .descendant }]
  | discoverStoreAppProcesses candidates =>
    .unlessEnded :: candidates.map fun p => .add { p with role := .descendant }
  | browserProcesses root pids =>
    .forget pids :: (pids.filter (· != root)).map fun pid => .add ⟨pid, .descendant, false⟩
  | processStarted hit => [.unlessEnded, .unlessEnded, .merge hit]
  | externalLaunch hit =>
    [.unlessEnded, .add { hit with role := .root }, .reattach, .track hit.processId .session]
  | attachCorrelated candidate =>
    [.add { candidate with role := .correlated }, .setStatus .runningViaCorrelated,
      .track candidate.processId .session]
  | tick => [.tick]
  | stop => [.unlessEnded, .stop]

/-- An assignment to `Status`, `TrackPid` of another session, `RemoveSession`, and the end of a
    `TrackPid` or `TrackBrowser` of another session, on a thread that pumps messages or not. -/
inductive Outside
  | assign (status : Status)
  | track (pid : ℕ)
  | remove
  | ensureTimer (pumps : Bool)

def outside (s : Watch) : Outside → Option Watch
  | .assign status => some (s.setStatus status)
  | .track pid => some (s.trackPid pid .other)
  | .remove => some { s with cancelled := true }
  | .ensureTimer pumps => some { s with timer := s.timer.ensureStarted pumps }

abbrev Event := Label Handler Choice Outside

def step : World → Event → Option World := TaskPools.step Handler.task turn outside

/-- How the session came to be. `LaunchTarget` goes through `AddSession`; a browser has a user
    data directory, or the launcher throws. -/
inductive Launch
  | generic (pid : Option ℕ)
  | target (pid : Option ℕ)
  | external (pid : ℕ)
  | browser (pid : Option ℕ)

def Launch.root : Launch → Option ℕ
  | generic pid | target pid | browser pid => pid
  | external pid => some pid

/-- What the launch does once the session is in `_sessions`. `TrackBrowser` is the first to start
    the timer for a browser. -/
def Launch.task (pid : ℕ) : Launch → Task
  | generic _ => [.track pid .session, .startMonitor]
  | target _ => [.track pid .session]
  | external _ => [.startMonitor, .track pid .session]
  | browser _ => [.ensureTimer, .track pid .browser]

def Launch.hasToken : Launch → Bool
  | browser _ => false
  | _ => true

def launched (launch : Launch) : World where
  shared :=
    { session := { processes := launch.root.toList.map fun pid => ⟨pid, .root, false⟩ }
      cancelled := !launch.hasToken }
  tasks := launch.root.toList.map fun pid => launch.task pid

section Processes
variable {s : LaunchSession}

theorem live_markProcessExited {pid : ℕ} {p : TrackedProcess}
    (hp : p ∈ (s.markProcessExited pid).processes) (hlive : p.exited = false) :
    p ∈ s.processes := by
  rcases mem_updateFirst hp with hold | ⟨q, _, _, rfl⟩
  · exact hold
  · cases hlive

theorem exited_markProcessExited {p : TrackedProcess}
    (hdistinct : (s.processes.map TrackedProcess.processId).Nodup)
    (hp : p ∈ (s.markProcessExited p.processId).processes) : p.exited = true := by
  rcases mem_updateFirst_of_nodup hdistinct (fun q => beq_iff_eq) hp with ⟨_, hne⟩ | ⟨q, _, _, hq⟩
  · exact absurd rfl hne
  · rw [hq]

theorem exited_reap {dead : List ℕ} {p q : TrackedProcess}
    (hdistinct : (s.processes.map TrackedProcess.processId).Nodup) (hp : p ∈ s.processes)
    (hpolled : LaunchSession.polled p = true) (hdead : dead.contains p.processId = true)
    (hq : q ∈ (s.reap dead).processes) (hsame : q.processId = p.processId) : q.exited = true := by
  obtain ⟨old, hold, rfl⟩ := List.mem_map.mp hq
  have hid : old.processId = p.processId := by
    rw [← hsame]
    split <;> rfl
  obtain rfl := List.inj_on_of_nodup_map hdistinct hold hp hid
  rw [if_pos (by simp only [hpolled, hdead, Bool.and_self])]

theorem live_reap {dead : List ℕ} {p : TrackedProcess} (hp : p ∈ (s.reap dead).processes)
    (hlive : p.exited = false) : p ∈ s.processes := by
  obtain ⟨q, hq, rfl⟩ := List.mem_map.mp hp
  split at hlive
  · cases hlive
  · rename_i halive
    rw [if_neg halive]
    exact hq

theorem distinct_addProcess {p : TrackedProcess}
    (h : (s.processes.map TrackedProcess.processId).Nodup) (hfresh : s.tracks p.processId = false) :
    ((s.addProcess p).processes.map TrackedProcess.processId).Nodup := by
  simp only [LaunchSession.tracks, List.any_eq_false, beq_iff_eq] at hfresh
  simp only [LaunchSession.addProcess, List.map_append, List.nodup_append, List.map_cons,
    List.map_nil, List.mem_singleton, List.mem_map]
  refine ⟨h, by simp, ?_⟩
  rintro _ ⟨q, hq, rfl⟩ _ rfl
  exact hfresh q hq

theorem distinct_markProcessExited {pid : ℕ}
    (h : (s.processes.map TrackedProcess.processId).Nodup) :
    ((s.markProcessExited pid).processes.map TrackedProcess.processId).Nodup := by
  simp only [LaunchSession.markProcessExited]
  rw [map_updateFirst]
  · exact h
  · intro p
    rfl

theorem distinct_reap {dead : List ℕ} (h : (s.processes.map TrackedProcess.processId).Nodup) :
    ((s.reap dead).processes.map TrackedProcess.processId).Nodup := by
  simp only [LaunchSession.reap, List.map_map]
  rw [show TrackedProcess.processId ∘ _ = TrackedProcess.processId from ?_]
  · exact h
  · funext p
    simp only [Function.comp]
    split <;> rfl

end Processes

section Turns
variable {s : Watch} {choice : Choice} {rest : Task} {action : Action}

theorem status_act (h : ∀ status, action ≠ .setStatus status) :
    (act s choice rest action).1.session.status = s.session.status := by
  cases action with
  | setStatus status => exact absurd rfl (h status)
  | add p => simp only [act, Watch.add]; split <;> rfl
  | merge hit =>
    simp only [act]
    split
    · rfl
    · split <;> rfl
  | renewToken | startMonitor | poll | killed | tick => simp only [act]; split <;> rfl
  | _ => rfl

theorem live_act {p : TrackedProcess} (hp : p ∈ (act s choice rest action).1.session.processes)
    (hlive : p.exited = false) :
    p ∈ s.session.processes ∨ action = .add p ∨
      ∃ hit, action = .merge hit ∧ p.processId = hit.processId ∧
        s.session.tracks hit.processId = false := by
  cases action with
  | add q =>
    simp only [act, Watch.add] at hp
    split at hp
    · exact .inl hp
    · rcases List.mem_append.mp hp with hold | hnew
      · exact .inl hold
      · rw [List.mem_singleton.mp hnew]
        exact .inr (.inl rfl)
  | merge hit =>
    simp only [act] at hp
    split at hp
    · exact .inl hp
    · rename_i hfresh
      have hfresh : s.session.tracks hit.processId = false := by simpa using hfresh
      split at hp <;> rcases List.mem_append.mp hp with hold | hnew
      · exact .inl hold
      · rw [List.mem_singleton.mp hnew]
        exact .inr (.inr ⟨hit, rfl, rfl, hfresh⟩)
      · exact .inl hold
      · rw [List.mem_singleton.mp hnew]
        exact .inr (.inr ⟨hit, rfl, rfl, hfresh⟩)
  | forget pids => exact .inl (List.mem_of_mem_filter hp)
  | mark pid => exact .inl (live_markProcessExited hp hlive)
  | poll token =>
    simp only [act] at hp
    split at hp
    · exact .inl hp
    · exact .inl (live_reap hp hlive)
  | killed pid =>
    simp only [act] at hp
    split at hp
    · exact .inl (live_markProcessExited hp hlive)
    · exact .inl hp
  | renewToken | startMonitor | tick =>
    simp only [act] at hp
    split at hp <;> exact .inl hp
  | _ => exact .inl hp

theorem distinct_act (h : (s.session.processes.map TrackedProcess.processId).Nodup) :
    ((act s choice rest action).1.session.processes.map TrackedProcess.processId).Nodup := by
  cases action with
  | add p =>
    simp only [act, Watch.add]
    split
    · exact h
    · rename_i hfresh
      exact distinct_addProcess h (by simpa using hfresh)
  | merge hit =>
    simp only [act]
    split
    · exact h
    · rename_i hfresh
      have hfresh : s.session.tracks hit.processId = false := by simpa using hfresh
      split
      · exact distinct_addProcess h hfresh
      · exact distinct_addProcess h hfresh
  | forget pids => exact h.sublist ((List.filter_sublist).map _)
  | mark pid => exact distinct_markProcessExited h
  | poll token =>
    simp only [act]
    split
    · exact h
    · exact distinct_reap h
  | killed pid =>
    simp only [act]
    split
    · exact distinct_markProcessExited h
    · exact h
  | renewToken | startMonitor | tick =>
    simp only [act]
    split <;> exact h
  | _ => exact h

end Turns

end ProxySwitch.ExitMonitors
