import ProxySwitch.KeyedLists
import ProxySwitch.TaskPools

set_option autoImplicit false

/-!
# The life of one launch session

The handlers of `SessionManager` that read or write `Status` and `Processes` of a session.
A handler is a tree of its accesses to the session. Between two accesses every other task
may take its turn, so a delay of the source needs no step of its own. What the source takes
from outside (an exception, a score, a setting, a dead PID) is the choice of a turn.
-/
namespace ProxySwitch.SessionLifecycle
open KeyedLists TaskPools

/-- The texts of `LaunchSession.Status`; no code assigns `failed`. -/
inductive Status
  | starting
  | running
  | runningViaChild
  | runningViaCorrelated
  | checkingCorrelated
  | waitingForRestart
  | exited
  | failed
  deriving DecidableEq, Repr

inductive Role
  | root
  | descendant
  | correlated
  | restartedChild
  | storeAppCandidate
  deriving DecidableEq, Repr

/-- `exited` says whether `ExitedAt` is set. -/
structure TrackedProcess where
  processId : ℕ
  role : Role
  exited : Bool := false
  deriving DecidableEq, Repr

/-- `cleanups` counts the calls of `CleanupSessionRoutes`. -/
structure LaunchSession where
  status : Status := .running
  processes : List TrackedProcess
  cleanups : ℕ := 0
  deriving DecidableEq, Repr

def ended : List Status := [.exited, .failed]

namespace LaunchSession

def hasEnded (s : LaunchSession) : Bool := ended.contains s.status

def hasLiveProcesses (s : LaunchSession) : Bool := s.processes.any fun p => !p.exited

def livePids (s : LaunchSession) : List ℕ :=
  (s.processes.filter fun p => !p.exited).map TrackedProcess.processId

def tracks (s : LaunchSession) (pid : ℕ) : Bool := s.processes.any (·.processId == pid)

def markProcessExited (s : LaunchSession) (pid : ℕ) : LaunchSession :=
  { s with processes := updateFirst (·.processId == pid) (fun p => { p with exited := true }) s.processes }

def polled (p : TrackedProcess) : Bool :=
  !p.exited && (p.role == .descendant || p.role == .correlated)

def reap (s : LaunchSession) (dead : List ℕ) : LaunchSession :=
  { s with
    processes := s.processes.map fun p =>
      if polled p && dead.contains p.processId then { p with exited := true } else p }

def forgetDescendants (s : LaunchSession) (pids : List ℕ) : LaunchSession :=
  { s with processes := s.processes.filter fun p => p.role != .descendant || pids.contains p.processId }

def addProcess (s : LaunchSession) (p : TrackedProcess) : LaunchSession :=
  { s with processes := s.processes ++ [p] }

end LaunchSession

inductive Code
  | done
  | ifStatus (among : List Status) (yes no : Code)
  | ifLive (yes no : Code)
  | choose (a b : Code)
  | mark (pid : ℕ) (next : Code)
  | reap (changed unchanged : Code)
  | kill (next : Code)
  | killing (pids : List ℕ) (next : Code)
  | forget (pids : List ℕ) (next : Code)
  | add (p : TrackedProcess) (fresh known : Code)
  | setStatus (status : Status) (byUser : Bool) (next : Code)
  | cleanup (next : Code)
  | spawn (task next : Code)
  | acquire (next : Code)
  | release (next : Code)
  | monitor
  deriving DecidableEq

/-- `branch` takes the first of two ways; `dead` are the PIDs that no longer run. -/
structure Choice where
  branch : Bool := true
  dead : List ℕ := []

def finalizeAsExited (next : Code) : Code := .setStatus .exited false (.cleanup next)

def graceTimer : Code := .ifStatus [.waitingForRestart] (finalizeAsExited .done) .done

/-- The choice is `SessionSupervisor.Enabled`. -/
def beginGraceWindowOrFinalize (next : Code) : Code :=
  .choose (finalizeAsExited next) (.setStatus .waitingForRestart false (.spawn graceTimer next))

def correlatedExited (pid : ℕ) : Code :=
  .ifStatus ended .done (.mark pid (.ifLive .done (beginGraceWindowOrFinalize .done)))

def attachCorrelated (candidate : TrackedProcess) : Code :=
  let attached := .setStatus .runningViaCorrelated false
    (.spawn (correlatedExited candidate.processId) .done)
  .add { candidate with role := .correlated } attached attached

def ignoreCorrelated : Code := finalizeAsExited .done

def showCorrelatedDialog (candidate : TrackedProcess) : Code :=
  .choose (attachCorrelated candidate) ignoreCorrelated

/-- The first choice of each pair is an exception, which the caller catches, or no candidate
    that is good enough; the last one is a single candidate of high confidence. -/
def tryCorrelatedHandoffAsync (candidate : TrackedProcess) : Code :=
  .ifStatus ended .done
    (.choose (beginGraceWindowOrFinalize .done)
      (.ifStatus ended .done
        (.choose (beginGraceWindowOrFinalize .done)
          (.choose (attachCorrelated candidate) (showCorrelatedDialog candidate)))))

def rootExited (pid : ℕ) (candidate : TrackedProcess) : Code :=
  .ifStatus ended .done
    (.mark pid
      (.ifLive (.setStatus .runningViaChild false .done)
        (.setStatus .checkingCorrelated false (.spawn (tryCorrelatedHandoffAsync candidate) .done))))

/-- The exit callbacks of `AttachExternalLaunch` and `AddSession`. -/
def attachedRootExited (pid : ℕ) : Code :=
  .ifStatus ended .done
    (.mark pid
      (.ifLive (.setStatus .runningViaChild false .done) (beginGraceWindowOrFinalize .done)))

/-- The exit callback of `LaunchBrowser`, which cleans nothing up. -/
def browserRootExited (pid : ℕ) : Code :=
  .ifStatus [.running] (.mark pid (.setStatus .exited false .done)) .done

def onMergedProcessExited (pid : ℕ) : Code :=
  .ifStatus ended .done
    (.mark pid
      (.ifLive (.setStatus .runningViaChild false .done) (beginGraceWindowOrFinalize .done)))

/-- One round of the loop; the choice is a cancelled token. -/
def monitorDescendantsAsync : Code :=
  .choose .done
    (.ifLive
      (.ifStatus [.exited] .done
        (.ifStatus [.failed] .done
          (.reap
            (.ifLive .monitor
              (.ifStatus [.runningViaChild, .runningViaCorrelated]
                (beginGraceWindowOrFinalize .monitor) .monitor))
            .monitor)))
      .done)

def addAll : List TrackedProcess → Code → Code
  | [], next => next
  | p :: ps, next => .add p (addAll ps next) (addAll ps next)

def onDescendant (p : TrackedProcess) : Code :=
  .add { p with role := .descendant } .done .done

/-- The candidates are those whose `addPid` was acknowledged. -/
def discoverStoreAppProcessesAsync (candidates : List TrackedProcess) : Code :=
  .ifStatus ended .done
    (addAll (candidates.map fun p => { p with role := .descendant }) .done)

def onBrowserProcesses (root : ℕ) (pids : List ℕ) : Code :=
  .forget pids (addAll ((pids.filter (· != root)).map fun pid => ⟨pid, .descendant, false⟩) .done)

/-- The first choice is whether the hit matches the session, the last one whether a monitor of
    the session is still active. -/
def tryMergeActiveSession (hit : TrackedProcess) : Code :=
  let merged := .release (.spawn (onMergedProcessExited hit.processId) .done)
  let reattached := .setStatus .running false
    (.release
      (.spawn (onMergedProcessExited hit.processId)
        (.choose (.spawn monitorDescendantsAsync .done) .done)))
  .acquire
    (.ifStatus ended (.release .done)
      (.choose (.release .done)
        (.release
          (.acquire
            (.ifStatus ended (.release .done)
              (.ifStatus [.waitingForRestart]
                (.add { hit with role := .restartedChild } reattached (.release .done))
                (.add hit merged (.release .done))))))))

/-- The branch of `AttachExternalLaunch` that finds this session. -/
def attachExternalLaunch (hit : TrackedProcess) : Code :=
  let tracked := .spawn (onMergedProcessExited hit.processId) .done
  let attached := .ifStatus [.waitingForRestart] (.setStatus .running false tracked) tracked
  .acquire
    (.ifStatus ended (.release .done)
      (.release (.add { hit with role := .root } attached attached)))

def stopSession : Code :=
  .ifStatus ended .done (.setStatus .exited true (.kill (.cleanup .done)))

/-- What comes from outside. The exit callbacks of merged and correlated processes, the dialog
    and the grace timer are started by other handlers. -/
inductive Handler
  | rootExited (pid : ℕ) (candidate : TrackedProcess)
  | attachedRootExited (pid : ℕ)
  | browserRootExited (pid : ℕ)
  | monitorDescendants
  | onDescendant (p : TrackedProcess)
  | discoverStoreAppProcesses (candidates : List TrackedProcess)
  | onBrowserProcesses (root : ℕ) (pids : List ℕ)
  | processStarted (hit : TrackedProcess)
  | externalLaunch (hit : TrackedProcess)
  | stop

def Handler.code : Handler → Code
  | rootExited pid candidate => SessionLifecycle.rootExited pid candidate
  | attachedRootExited pid => SessionLifecycle.attachedRootExited pid
  | browserRootExited pid => SessionLifecycle.browserRootExited pid
  | monitorDescendants => monitorDescendantsAsync
  | onDescendant p => SessionLifecycle.onDescendant p
  | discoverStoreAppProcesses candidates => discoverStoreAppProcessesAsync candidates
  | onBrowserProcesses root pids => SessionLifecycle.onBrowserProcesses root pids
  | processStarted hit => tryMergeActiveSession hit
  | externalLaunch hit => attachExternalLaunch hit
  | stop => stopSession

/-- The task is between the entry and the exit of a `lock (_sessions)` block. -/
def Code.inLock : Code → Bool
  | .ifStatus _ yes no => yes.inLock || no.inLock
  | .choose a b => a.inLock || b.inLock
  | .add _ fresh known => fresh.inLock || known.inLock
  | .setStatus _ _ next => next.inLock
  | .release _ => true
  | _ => false

abbrev World := Pool LaunchSession Code

def turn (w : World) (code : Code) (choice : Choice) : Option (LaunchSession × List Code) :=
  let s := w.shared
  match code with
  | .done => some (s, [])
  | .ifStatus among yes no => some (s, [if among.contains s.status then yes else no])
  | .ifLive yes no => some (s, [if s.hasLiveProcesses then yes else no])
  | .choose a b => some (s, [if choice.branch then a else b])
  | .mark pid next => some (s.markProcessExited pid, [next])
  | .reap changed unchanged =>
    let anyChanged := s.processes.any fun p =>
      LaunchSession.polled p && choice.dead.contains p.processId
    some (s.reap choice.dead, [if anyChanged then changed else unchanged])
  | .kill next => some (s, [.killing s.livePids next])
  | .killing [] next => some (s, [next])
  | .killing (pid :: pids) next =>
    -- a process that cannot be killed keeps its entry
    some (if choice.branch then s.markProcessExited pid else s, [.killing pids next])
  | .forget pids next => some (s.forgetDescendants pids, [next])
  | .add p fresh known =>
    if s.tracks p.processId then some (s, [known]) else some (s.addProcess p, [fresh])
  | .setStatus status _ next => some ({ s with status := status }, [next])
  | .cleanup next => some ({ s with cleanups := s.cleanups + 1 }, [next])
  | .spawn task next => some (s, [next, task])
  | .acquire next => if w.tasks.any Code.inLock then none else some (s, [next])
  | .release next => some (s, [next])
  | .monitor => some (s, [monitorDescendantsAsync])

abbrev Event := Label Handler Choice Empty

def step : World → Event → Option World := TaskPools.step Handler.code turn fun _ => Empty.elim

def launched (processes : List TrackedProcess) : World := ⟨{ processes := processes }, []⟩

section Live
variable {s : LaunchSession}

theorem hasLiveProcesses_iff : s.hasLiveProcesses = true ↔ ∃ p ∈ s.processes, p.exited = false := by
  simp [LaunchSession.hasLiveProcesses]

theorem live_of_markProcessExited {pid : ℕ}
    (h : (s.markProcessExited pid).hasLiveProcesses = true) : s.hasLiveProcesses = true := by
  obtain ⟨p, hp, hlive⟩ := hasLiveProcesses_iff.mp h
  rcases mem_updateFirst hp with hold | ⟨q, _, _, rfl⟩
  · exact hasLiveProcesses_iff.mpr ⟨p, hold, hlive⟩
  · cases hlive

theorem live_of_reap {dead : List ℕ} (h : (s.reap dead).hasLiveProcesses = true) :
    s.hasLiveProcesses = true := by
  obtain ⟨p, hp, hlive⟩ := hasLiveProcesses_iff.mp h
  obtain ⟨q, hq, rfl⟩ := List.mem_map.mp hp
  refine hasLiveProcesses_iff.mpr ⟨q, hq, ?_⟩
  split at hlive
  · cases hlive
  · exact hlive

theorem live_of_forgetDescendants {pids : List ℕ}
    (h : (s.forgetDescendants pids).hasLiveProcesses = true) : s.hasLiveProcesses = true := by
  obtain ⟨p, hp, hlive⟩ := hasLiveProcesses_iff.mp h
  exact hasLiveProcesses_iff.mpr ⟨p, List.mem_of_mem_filter hp, hlive⟩

end Live

/-- Only an assignment changes `Status`, only `CleanupSessionRoutes` counts, and only an added
    process can make a session live. -/
theorem turn_frame {w : World} {code : Code} {choice : Choice} {next : LaunchSession × List Code}
    (h : turn w code choice = some next) :
    ((∀ status byUser rest, code ≠ .setStatus status byUser rest) →
      next.1.status = w.shared.status) ∧
    ((∀ rest, code ≠ .cleanup rest) → next.1.cleanups = w.shared.cleanups) ∧
    ((∀ p fresh known, code ≠ .add p fresh known) →
      next.1.hasLiveProcesses = true → w.shared.hasLiveProcesses = true) := by
  cases code with
  | setStatus status byUser rest =>
    obtain rfl := Option.some.inj h
    exact ⟨fun hcode => absurd rfl (hcode status byUser rest), fun _ => rfl, fun _ => id⟩
  | cleanup rest =>
    obtain rfl := Option.some.inj h
    exact ⟨fun _ => rfl, fun hcode => absurd rfl (hcode rest), fun _ => id⟩
  | add p fresh known =>
    refine ⟨fun _ => ?_, fun _ => ?_, fun hcode => absurd rfl (hcode p fresh known)⟩ <;>
      (simp only [turn] at h
       split at h <;> (obtain rfl := Option.some.inj h; rfl))
  | mark pid rest =>
    obtain rfl := Option.some.inj h
    exact ⟨fun _ => rfl, fun _ => rfl, fun _ => live_of_markProcessExited⟩
  | reap changed unchanged =>
    obtain rfl := Option.some.inj h
    exact ⟨fun _ => rfl, fun _ => rfl, fun _ => live_of_reap⟩
  | forget pids rest =>
    obtain rfl := Option.some.inj h
    exact ⟨fun _ => rfl, fun _ => rfl, fun _ => live_of_forgetDescendants⟩
  | killing pids rest =>
    cases pids with
    | nil =>
      obtain rfl := Option.some.inj h
      exact ⟨fun _ => rfl, fun _ => rfl, fun _ => id⟩
    | cons pid pids =>
      obtain rfl := Option.some.inj h
      cases choice.branch with
      | true => exact ⟨fun _ => rfl, fun _ => rfl, fun _ => live_of_markProcessExited⟩
      | false => exact ⟨fun _ => rfl, fun _ => rfl, fun _ => id⟩
  | acquire rest =>
    simp only [turn] at h
    split at h
    · cases h
    · obtain rfl := Option.some.inj h
      exact ⟨fun _ => rfl, fun _ => rfl, fun _ => id⟩
  | _ =>
    obtain rfl := Option.some.inj h
    exact ⟨fun _ => rfl, fun _ => rfl, fun _ => id⟩

end ProxySwitch.SessionLifecycle
