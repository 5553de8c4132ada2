import ProxySwitch.IpcRecovery
import ProxySwitch.TemporaryRoutes

set_option autoImplicit false

namespace ProxySwitch.ManagedSessions
open AppRoutes IpcRecovery RuntimeStrings SessionRouteIsolation SessionRouteServer TaskPools
open TransitionRuns (Always always_head always_mono always_of_invariant)
open TemporaryRoutes (asksForRoute)

/-- The texts of `LaunchSession.RoutingStatus` that launches, attachments and their tasks
    assign. -/
inductive SessionRouting
  | direct
  | externalRoutingRequired
  | needsRestart
  | sessionCreated
  | launching
  | restarting
  | pending
  | active
  | failed
  deriving DecidableEq

def reported : RoutingStatus → SessionRouting
  | .direct => .direct
  | .externalRoutingRequired => .externalRoutingRequired
  | .routeSessionCreated => .sessionCreated
  | .routeLaunching => .launching
  | .routeFailed => .failed

structure CreatedSession where
  routingStatus : SessionRouting
  ipcManaged : Bool
  deriving DecidableEq

def resolveExternalRoutingStatus (backend : Backend) : SessionRouting :=
  if !backend.ready then .externalRoutingRequired
  else if backend.state = .running then .active
  else .needsRestart

/-- How a session comes to be: by a launch that succeeds, whose first probe is
    `backend.isIpcAvailable`, or by `AttachExternalLaunch`. -/
inductive Creation
  | launch (call : LaunchCall) (rt : Runtime) (backend : Backend) (write : ConfigWrite)
      (proxyId : Text) (isPersistentRoute : Bool) (sessionId : Text) (routes : List AppRoute)
      (secondProbe : Bool)
  | external (route : AppRoute) (backend : Backend) (firstProbe secondProbe : Bool)

def Creation.secondProbe : Creation → Bool
  | .launch _ _ _ _ _ _ _ _ probe => probe
  | .external _ _ _ probe => probe

def Creation.session : Creation → CreatedSession
  | .launch call rt backend write proxyId isPersistentRoute sessionId routes probe =>
    let (routingStatus, _, _) :=
      initialRouting rt backend write call proxyId isPersistentRoute sessionId routes
    { routingStatus := reported routingStatus
      ipcManaged := routingStatus == .routeSessionCreated && probe }
  | .external route backend firstProbe probe =>
    { routingStatus :=
        if route.ipcManaged && firstProbe then .sessionCreated
        else resolveExternalRoutingStatus backend
      ipcManaged := route.ipcManaged && probe }

/-- `EnsureRoute` as the IPC branch of a launch calls it. -/
def ensured (call : LaunchCall) (rt : Runtime) (proxyId : Text) (isPersistentRoute : Bool)
    (sessionId : Text) (routes : List AppRoute) : Option (EnsureRouteResult × List AppRoute) :=
  let source := routeSource isPersistentRoute
  match call with
  | .generic exePath _ =>
    ensureRoute rt exePath proxyId source isPersistentRoute (some sessionId) true routes
  | .target target =>
    ensureTargetRoute rt target proxyId source isPersistentRoute (some sessionId) true routes

/-- The first probe succeeds where a route is asked for, and its route is made and written; or the
    route of an external launch is one for IPC. -/
def Creation.RoutedByIpc : Creation → Prop
  | .launch call rt backend write proxyId isPersistentRoute sessionId routes _ =>
    asksForRoute call proxyId backend = true ∧ backend.isIpcAvailable = true ∧
      (ensured call rt proxyId isPersistentRoute sessionId routes).isSome = true ∧
      (write.built && write.written) = true
  | .external route _ firstProbe _ => (route.ipcManaged && firstProbe) = true

inductive Task
  | startIpcRouting (root : Option RouterPidRoutes.DWORD)
  | launchTarget (root : Option RouterPidRoutes.DWORD) (candidates : List RouterPidRoutes.DWORD)
  | processFound (pid : RouterPidRoutes.DWORD)
  | routeDetectedChildren
  | finalize
  | stop
  | attachCorrelated (pid : RouterPidRoutes.DWORD)

/-- The code of a task; all but `AttachCorrelated` look at `IpcManaged`. -/
def Task.code (ipcManaged : Bool) : Task → Code
  | .startIpcRouting root => if ipcManaged then startIpcRoutingForSession root else .done
  | .launchTarget root candidates =>
    if ipcManaged then launchTargetRouting root candidates else .done
  | .processFound pid => if ipcManaged then onProcess pid else .track pid .done
  | .routeDetectedChildren =>
    if ipcManaged then recreateIpcSessionAndReplayAsync .done .done else .done
  | .finalize => if ipcManaged then finalizeAsExited else .setEnded true .done
  | .stop => if ipcManaged then stopSession else .ifEnded .done (.setEnded true .done)
  | .attachCorrelated pid => IpcRecovery.attachCorrelated pid

structure Life where
  session : CreatedSession
  ipc : IpcRecovery.World

/-- A step of the tasks, or a later assignment of `RoutingStatus`, none of which gives back the
    text of the start. -/
inductive Event
  | tasks (label : Label Task Choice Change)
  | assign (routingStatus : SessionRouting)

section Lives
variable (sid : SessionId)

def step (l : Life) : Event → Option Life
  | .tasks label =>
    (TaskPools.step (Task.code l.session.ipcManaged) (turn sid) (outside sid) l.ipc label).map
      fun ipc => { l with ipc := ipc }
  | .assign routingStatus =>
    if routingStatus = .sessionCreated then none
    else some { l with session := { l.session with routingStatus := routingStatus } }

/-- The id is a new one, so a server that has just started stands for every server; other clients
    may open sessions before anything else happens. -/
def start (c : Creation) (processes : List IpcRecovery.TrackedProcess)
    (proxyMap : String → Option RouterPidRoutes.IntPtr)
    (proxyServers : List RouterPidRoutes.ProxyServers) : Life where
  session := c.session
  ipc := ⟨{ processes := processes, traced := tracedInit proxyMap proxyServers }, []⟩

/-- What `RoutingStatus` and `IpcManaged` say of the server. -/
def Consistent (l : Life) : Prop :=
  (l.session.routingStatus = .sessionCreated → l.session.ipcManaged = true) ∧
    (l.session.ipcManaged = false → l.ipc.shared.record sid = none)

variable {sid}

section Creation
variable {rt : Runtime} {backend : Backend} {write : ConfigWrite} {routes : List AppRoute}

theorem writeRoute_eq_created (ensured : Option (EnsureRouteResult × List AppRoute)) :
    (writeRoute rt backend write .routeSessionCreated ensured routes).1 = .routeSessionCreated ↔
      ensured.isSome = true ∧ (write.built && write.written) = true := by
  cases ensured with
  | none => simp
  | some ensured => cases hwritten : write.built && write.written <;> simp [writeRoute, writeConfig, hwritten]

theorem writeRoute_launching_ne (ensured : Option (EnsureRouteResult × List AppRoute)) :
    (writeRoute rt backend write .routeLaunching ensured routes).1 ≠ .routeSessionCreated := by
  cases ensured with
  | none => exact RoutingStatus.noConfusion
  | some ensured => cases hwritten : write.built && write.written <;> simp [writeRoute, writeConfig, hwritten]

theorem asksForRoute_iff (call : LaunchCall) (proxyId : Text) :
    asksForRoute call proxyId backend = true ↔
      (∀ exePath, call ≠ .generic exePath true) ∧ proxyId ≠ [] ∧ backend.ready = true := by
  cases call with
  | generic exePath direct => cases direct <;> simp [asksForRoute]
  | target target => simp [asksForRoute]

/-- Without a pipe no launch function reports an IPC session. -/
theorem initialRouting_eq_sessionCreated (call : LaunchCall) (proxyId sessionId : Text)
    (isPersistentRoute : Bool) :
    (initialRouting rt backend write call proxyId isPersistentRoute sessionId routes).1 =
        .routeSessionCreated ↔
      asksForRoute call proxyId backend = true ∧ backend.isIpcAvailable = true ∧
        (ensured call rt proxyId isPersistentRoute sessionId routes).isSome = true ∧
        (write.built && write.written) = true := by
  rw [asksForRoute_iff]
  cases call with
  | generic exePath direct =>
    simp only [initialRouting, resolveInitialRoutingStatus, ensured]
    cases direct with
    | true => simp
    | false =>
      by_cases hproxy : proxyId = []
      · simp [hproxy]
      cases hready : backend.ready with
      | false => simp [hproxy]
      | true =>
        cases hipc : backend.isIpcAvailable with
        | true => simpa [hproxy] using writeRoute_eq_created _
        | false => simpa [hproxy] using writeRoute_launching_ne _
  | target target =>
    simp only [initialRouting, resolveInitialRoutingStatusForTarget, ensured]
    by_cases hproxy : proxyId = []
    · simp [hproxy]
    cases hready : backend.ready with
    | false => simp [hproxy]
    | true =>
      cases hipc : backend.isIpcAvailable with
      | true => simpa [hproxy] using writeRoute_eq_created _
      | false =>
        by_cases hkind : target.launchKind = .appUserModelId
        · simp [hproxy, hkind]
        · simpa [hproxy, hkind] using writeRoute_launching_ne _

theorem reported_eq_sessionCreated {status : RoutingStatus} :
    reported status = .sessionCreated ↔ status = .routeSessionCreated := by
  cases status <;> simp [reported]

theorem resolveExternalRoutingStatus_ne (backend : Backend) :
    resolveExternalRoutingStatus backend ≠ .sessionCreated := by
  unfold resolveExternalRoutingStatus
  split
  · exact SessionRouting.noConfusion
  · split <;> exact SessionRouting.noConfusion

theorem session_created_iff (c : Creation) :
    c.session.routingStatus = .sessionCreated ↔ c.RoutedByIpc := by
  cases c with
  | launch call rt backend write proxyId isPersistentRoute sessionId routes probe =>
    exact reported_eq_sessionCreated.trans
      (initialRouting_eq_sessionCreated call proxyId sessionId isPersistentRoute)
  | external route backend firstProbe probe =>
    simp only [Creation.session, Creation.RoutedByIpc]
    split
    · rename_i h
      exact iff_of_true rfl h
    · rename_i h
      exact iff_of_false (resolveExternalRoutingStatus_ne backend) h

theorem session_ipcManaged {c : Creation} (h : c.RoutedByIpc) :
    c.session.ipcManaged = c.secondProbe := by
  cases c with
  | launch call rt backend write proxyId isPersistentRoute sessionId routes probe =>
    have hstatus : (initialRouting rt backend write call proxyId isPersistentRoute sessionId
        routes).1 = .routeSessionCreated :=
      (initialRouting_eq_sessionCreated call proxyId sessionId isPersistentRoute).mpr h
    simp only [Creation.session, Creation.secondProbe, hstatus, beq_self_eq_true, Bool.true_and]
  | external route backend firstProbe probe =>
    obtain ⟨hroute, -⟩ := Bool.and_eq_true_iff.mp h
    simp only [Creation.session, Creation.secondProbe, hroute, Bool.true_and]

end Creation

def Quiet : Code → Prop
  | .done => True
  | .ifEnded yes no => Quiet yes ∧ Quiet no
  | .setEnded _ next | .track _ next => Quiet next
  | _ => False

theorem quiet_code (t : Task) : Quiet (t.code false) := by
  cases t <;> simp [Task.code, Quiet, IpcRecovery.attachCorrelated]

theorem quiet_turn {w : IpcRecovery.World} {code : Code} {choice : Choice}
    {next : IpcRecovery.Shared × List Code} (hquiet : Quiet code)
    (h : turn sid w code choice = some next) :
    next.1.traced = w.shared.traced ∧ ∀ c ∈ next.2, Quiet c := by
  cases code with
  | done =>
    obtain rfl := Option.some.inj h
    exact ⟨rfl, List.forall_mem_nil _⟩
  | ifEnded yes no =>
    obtain rfl := Option.some.inj h
    refine ⟨rfl, List.forall_mem_singleton.mpr ?_⟩
    split
    · exact hquiet.1
    · exact hquiet.2
  | setEnded ended rest =>
    obtain rfl := Option.some.inj h
    exact ⟨rfl, List.forall_mem_singleton.mpr hquiet⟩
  | track pid rest =>
    obtain rfl := Option.some.inj h
    exact ⟨rfl, List.forall_mem_singleton.mpr hquiet⟩
  | _ => exact hquiet.elim

theorem record_outside {s s' : IpcRecovery.Shared} {event : Change} (hs : s.record sid = none)
    (h : outside sid s event = some s') : s'.record sid = none := by
  cases event with
  | processExited pid =>
    obtain rfl := Option.some.inj h
    exact hs
  | markProcessExited pid =>
    simp only [outside] at h
    split at h
    · obtain rfl := Option.some.inj h
      exact hs
    · cases h
  | otherClient m stored =>
    simp only [outside] at h
    split at h
    · cases h
    · rename_i hother
      obtain rfl := Option.some.inj h
      exact (processMessage_sessions_of_ne _ m stored (Ne.symm hother)).trans hs
  | sweep times =>
    obtain rfl := Option.some.inj h
    exact hs
  | serverRestart =>
    obtain rfl := Option.some.inj h
    rfl

/-- The tasks of a session that is not managed are quiet, and the server has no record of it. -/
def Unserved (sid : SessionId) (l : Life) : Prop :=
  l.session.ipcManaged = false →
    (∀ c ∈ l.ipc.tasks, Quiet c) ∧ l.ipc.shared.record sid = none

theorem unserved_step {l l' : Life} {event : Event} (hl : Unserved sid l)
    (h : step sid l event = some l') : Unserved sid l' := by
  cases event with
  | assign routingStatus =>
    simp only [step] at h
    split at h
    · cases h
    · obtain rfl := Option.some.inj h
      exact hl
  | tasks label =>
    obtain ⟨ipc, hstep, rfl⟩ := Option.map_eq_some_iff.mp h
    intro hunmanaged
    obtain ⟨hquiet, hrecord⟩ := hl hunmanaged
    rw [hunmanaged] at hstep
    cases label with
    | start t =>
      obtain rfl := Option.some.inj hstep
      exact ⟨List.forall_mem_cons.mpr ⟨quiet_code t, hquiet⟩, hrecord⟩
    | run index choice =>
      obtain ⟨code, next, hcode, hturn, rfl⟩ := step_run hstep
      have hmem := (mem_tasks_iff hcode code).mpr (.inl rfl)
      obtain ⟨htraced, hleft⟩ := quiet_turn (hquiet code hmem) hturn
      refine ⟨forall_tasks_of_turn hcode hquiet hleft, ?_⟩
      rw [IpcRecovery.Shared.record, htraced]
      exact hrecord
    | change event =>
      obtain ⟨s, hs, rfl⟩ := Option.map_eq_some_iff.mp hstep
      exact ⟨hquiet, record_outside hrecord hs⟩

theorem session_step {l l' : Life} {event : Event} (h : step sid l event = some l') :
    l'.session.ipcManaged = l.session.ipcManaged ∧
      (l'.session.routingStatus = .sessionCreated → l.session.routingStatus = .sessionCreated) := by
  cases event with
  | assign routingStatus =>
    simp only [step] at h
    split at h
    · cases h
    · rename_i hother
      obtain rfl := Option.some.inj h
      exact ⟨rfl, fun hcreated => absurd hcreated hother⟩
  | tasks label =>
    obtain ⟨ipc, -, rfl⟩ := Option.map_eq_some_iff.mp h
    exact ⟨rfl, id⟩

end Lives

/-- Along its whole life a session whose status reports an IPC session is managed, and one that is
    not managed is unknown to the server, precisely when the second probe confirms the first. -/
theorem life_always_consistent_iff (sid : SessionId) (c : Creation)
    (processes : List IpcRecovery.TrackedProcess)
    (proxyMap : String → Option RouterPidRoutes.IntPtr)
    (proxyServers : List RouterPidRoutes.ProxyServers) (events : List Event) :
    Always (step sid) (Consistent sid) (start c processes proxyMap proxyServers) events ↔
      (c.RoutedByIpc → c.secondProbe = true) := by
  constructor
  · intro h hrouted
    rw [← session_ipcManaged hrouted]
    exact (always_head h).1 ((session_created_iff c).mpr hrouted)
  · intro hprobe
    refine always_mono (P := fun l => (l.session.routingStatus = .sessionCreated →
      l.session.ipcManaged = true) ∧ Unserved sid l)
      (fun l hl => ⟨hl.1, fun hunmanaged => (hl.2 hunmanaged).2⟩) ?_
    refine always_of_invariant (fun l event l' hl h => ?_) events ⟨fun hcreated => ?_, fun _ => ?_⟩
    · obtain ⟨hmanaged, hstatus⟩ := session_step h
      refine ⟨fun hcreated => ?_, unserved_step hl.2 h⟩
      rw [hmanaged]
      exact hl.1 (hstatus hcreated)
    · have hrouted := (session_created_iff c).mp hcreated
      exact (session_ipcManaged hrouted).trans (hprobe hrouted)
    · exact ⟨List.forall_mem_nil _, rfl⟩

def probeLost : Creation :=
  .launch (.generic "C:\\apps\\note.exe".toList false) plainRuntime
    ⟨true, .running, true, ["clash".toList]⟩ ⟨true, true, fun _ _ => none, 0⟩ "clash".toList true
    "0a1b2c3d".toList [] false

theorem created_session_not_managed :
    ¬∀ (sid : SessionId) (c : Creation) (processes : List IpcRecovery.TrackedProcess)
      (proxyMap : String → Option RouterPidRoutes.IntPtr)
      (proxyServers : List RouterPidRoutes.ProxyServers) (events : List Event),
      Always (step sid) (Consistent sid) (start c processes proxyMap proxyServers) events := by
  intro h
  have hlost := h ⟨"0a1b2c3d", by decide⟩ probeLost [] (fun _ => none) [] []
  have hstatus : probeLost.session.routingStatus = .sessionCreated := by decide
  have hunmanaged : probeLost.session.ipcManaged = false := by decide
  have hmanaged := hlost.1 hstatus
  rw [show (start probeLost [] (fun _ => none) []).session = probeLost.session from rfl,
    hunmanaged] at hmanaged
  cases hmanaged

end ProxySwitch.ManagedSessions
