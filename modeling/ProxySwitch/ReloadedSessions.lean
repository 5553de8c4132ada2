import ProxySwitch.RuntimeReload
import ProxySwitch.SessionRouteIsolation
import ProxySwitch.TemporaryRoutes

set_option autoImplicit false

/-!
# Sessions across a reload

`ReloadRuntimeServices` disposes the session manager and the process monitor and makes new ones.
What it owes to the sessions that were active is a place in the new manager, or that nothing of
them is on the route server and among the routes from then on: the tasks that the old manager has
started go on.
-/
namespace ProxySwitch.ReloadedSessions
open AppRoutes RuntimeReload RuntimeStrings SessionRouteIsolation TransitionRuns
open RouterPidRoutes (DWORD IntPtr ProcessTimes ProxyServers)
open SessionLifecycle (Status ended)
open SessionRouteServer (Message)
open TemporaryRoutes (TmpSession cleanupSessionRoutes)

structure Session extends TmpSession where
  status : Status
  processes : List ℕ

def Session.isActive (s : Session) : Bool := !ended.contains s.status

/-- `LaunchSession.Id`, as it goes over the pipe. -/
def Session.serverId (s : Session) : String := String.ofList s.id

/-- `sessions` and `watched` belong to the present session manager and process monitor, `routes`
    to the loaded configuration; the route server is another process. `earlier` records the
    sessions that were active at a reload. -/
structure App where
  sessions : List Session
  earlier : List Session
  watched : List ℕ
  routes : List AppRoute
  files : Files
  traced : Traced

/-- A launch or the end of a session with what it finds, any other change of a status, of the
    processes, of the routes or of the files, a request that reaches the route server from a task
    of this manager or of an earlier one, its sweep, and the reload after Settings saved. -/
inductive Event
  | launch (call : LaunchCall) (proxyId sessionId : Text) (isPersistentRoute : Bool) (pid : ℕ)
    (s : Setup)
  | terminate (sessionId : Text) (s : Setup)
  | assign (sessionId : Text) (status : Status)
  | track (sessionId : Text) (pid : ℕ)
  | configure (routes : List AppRoute) (files : Files)
  | request (m : Message) (stored : Bool)
  | sweep (times : ProcessTimes)
  | reload (edited : List AppRoute) (s : Setup)

namespace App
variable (app : App)

def updateSession (sessionId : Text) (f : Session → Session) : App :=
  { app with sessions := app.sessions.map fun x => if x.id = sessionId then f x else x }

def launch (call : LaunchCall) (proxyId sessionId : Text) (isPersistentRoute : Bool) (pid : ℕ)
    (s : Setup) : App :=
  let (routingStatus, _, routes) :=
    initialRouting s.rt s.backend s.write call proxyId isPersistentRoute sessionId app.routes
  -- only a write that succeeded leaves one of these
  let written := routingStatus == .routeSessionCreated || routingStatus == .routeLaunching
  { app with
    sessions := app.sessions ++
      [{ id := sessionId
         exePath := (call.executable).getD []
         proxyId := proxyId
         routingStatus := routingStatus
         ipcManaged := routingStatus == .routeSessionCreated && s.backend.isIpcAvailable
         status := .running
         processes := [pid] }]
    watched := pid :: app.watched
    routes := routes
    files := if written then (writeAppConfig s app.files routes).2 else app.files }

/-- The end of a session with `CleanupSessionRoutes`, whose `closeSession` is a request of its
    own. -/
def terminate (session : Session) (s : Setup) : App :=
  let routes := cleanupSessionRoutes s.rt s.backend s.write session.toTmpSession app.routes
  { app.updateSession session.id fun x => { x with status := .exited } with
    routes := routes
    files :=
      if session.ipcManaged || !(removeTmpRoutesForSession session.id app.routes).1 then app.files
      else (writeAppConfig s app.files routes).2 }

/-- `TearDownServices`, which only cancels the token sources of the session manager, and the
    services that are made for the settings. -/
def reload (edited : List AppRoute) (s : Setup) : App :=
  let (routes, files) := reloadRuntimeServices s (onSave edited app.files)
  { app with
    sessions := []
    earlier := app.earlier ++ app.sessions.filter (·.isActive)
    watched := []
    routes := routes
    files := files }

end App

def step (app : App) : Event → Option App
  | .launch call proxyId sessionId isPersistentRoute pid s =>
    if (app.earlier ++ app.sessions).any fun session => session.id == sessionId then none
    else some (app.launch call proxyId sessionId isPersistentRoute pid s)
  | .terminate sessionId s =>
    (app.sessions.find? fun x => x.id == sessionId && x.isActive).map (app.terminate · s)
  | .assign sessionId status => some (app.updateSession sessionId fun x => { x with status := status })
  | .track sessionId pid =>
    some
      { app.updateSession sessionId fun x => { x with processes := x.processes ++ [pid] } with
        watched := pid :: app.watched }
  | .configure routes files => some { app with routes := routes, files := files }
  | .request m stored =>
    (tracedStep app.traced (.request m stored)).map fun traced => { app with traced := traced }
  | .sweep times =>
    (tracedStep app.traced (.sweep times)).map fun traced => { app with traced := traced }
  | .reload edited s => some (app.reload edited s)

def start (routes : List AppRoute) (files : Files) (proxyMap : String → Option IntPtr)
    (proxyServers : List ProxyServers) : App where
  sessions := []
  earlier := []
  watched := []
  routes := routes
  files := files
  traced := tracedInit proxyMap proxyServers

def Tracked (app : App) (session : Session) : Prop :=
  session ∈ app.sessions ∧ ∀ pid ∈ session.processes, pid ∈ app.watched

def NoneOf (session : Session) (routes : List AppRoute) : Prop :=
  ∀ route ∈ routes, route.isPersistent = false → route.sessionId ≠ some session.id

structure Closed (session : Session) (traced : Traced) : Prop where
  recorded : traced.server.sessions session.serverId = none
  routed : ∀ pid e, traced.server.router.pidToProxy pid = some e →
    traced.lastAdd pid ≠ some session.serverId

/-- `app-config.json` lists no temporary route of the session. -/
def Unlisted (session : Session) (files : Files) : Prop :=
  ∀ appConfig, files.appConfig = some appConfig → NoneOf session appConfig.listed

structure Released (app : App) (session : Session) : Prop where
  closed : Closed session app.traced
  removed : NoneOf session app.routes
  unlisted : Unlisted session app.files

def KeepsSessions (app : App) : Prop :=
  ∀ session ∈ app.earlier, Tracked app session ∨ Released app session

/-- What `createSession` asks for before it makes a record. -/
def accepts (server : SessionRouteServer.Server) (sessionId endpoint : String) : Bool :=
  !SessionRouteServer.blank sessionId && !SessionRouteServer.blank endpoint &&
    (server.proxyMap endpoint).isSome

/-- At a reload the route server holds nothing of a session that is or was active at one, Settings
    saved no temporary route of it, and `app-config.json` is written anew unless it lists none
    either. Later no `createSession` of such a session is accepted, and no temporary route of it
    comes back by a change of the routes or of the files. -/
def NothingHeld (app : App) : Event → Prop
  | .reload edited s => ∀ session ∈ app.earlier ++ app.sessions.filter (·.isActive),
    Closed session app.traced ∧ NoneOf session edited ∧
      (rewrites s (onSave edited app.files) = false → Unlisted session app.files)
  | .request (.createSession sessionId endpoint) _ => ∀ session ∈ app.earlier,
    session.serverId = sessionId → accepts app.traced.server sessionId endpoint = false
  | .configure routes files => ∀ session ∈ app.earlier,
    NoneOf session routes ∧ Unlisted session files
  | _ => True

def Apart (app : App) : Prop := ∀ old ∈ app.earlier, ∀ session ∈ app.sessions, session.id ≠ old.id

section Reload
variable {app : App} {edited : List AppRoute} {s : Setup} {session : Session} {l l' : List AppRoute}

theorem noneOf_congr (h : SameRoutes l l') : NoneOf session l ↔ NoneOf session l' := by
  unfold NoneOf
  induction h with
  | nil => rfl
  | cons hsame hrest ih =>
    rw [List.forall_mem_cons, List.forall_mem_cons, ih, sameRoute_isPersistent hsame,
      sameRoute_sessionId hsame]

theorem noneOf_append_persistent {added : List AppRoute} (h : persistent added = added) :
    NoneOf session (l ++ added) ↔ NoneOf session l := by
  refine ⟨fun hall route hroute => hall route (List.mem_append_left _ hroute),
    fun hold route hroute htemporary => ?_⟩
  obtain hin | hnew := List.mem_append.mp hroute
  · exact hold route hin htemporary
  · rw [← h] at hnew
    rw [(List.mem_filter.mp hnew).2] at htemporary
    cases htemporary

/-- What is loaded has a temporary route of the session only if it was saved. -/
theorem noneOf_loaded (s : Setup) (files : Files) :
    NoneOf session (loaded s (onSave edited files)) ↔ NoneOf session edited := by
  obtain ⟨added, hloaded, hpersistent, -⟩ := loaded_onSave s edited files
  rw [hloaded]
  exact noneOf_append_persistent hpersistent

theorem unlisted_iff (hedited : NoneOf session edited) :
    Unlisted session (app.reload edited s).files ↔
      (rewrites s (onSave edited app.files) = false → Unlisted session app.files) := by
  unfold Unlisted
  have hfile : (app.reload edited s).files =
    (reloadRuntimeServices s (onSave edited app.files)).2 := rfl
  rw [hfile]
  obtain ⟨hkept, hsame⟩ | ⟨hwritten, appConfig, hnew, hlisted⟩ :=
    reload_appConfig s (onSave edited app.files)
  · rw [hsame, hkept]
    exact ⟨fun h _ => h, fun h => h rfl⟩
  · refine iff_of_true (fun other hother route hroute htemporary => ?_) fun hkept => ?_
    · obtain rfl := Option.some.inj (hnew.symm.trans hother)
      obtain ⟨a, ha, hroute⟩ := hlisted route hroute
      rw [sameRoute_isPersistent hroute] at htemporary
      rw [sameRoute_sessionId hroute]
      exact (noneOf_loaded s app.files).mpr hedited a ha htemporary
    · rw [hwritten] at hkept
      cases hkept

theorem released_iff (app : App) (edited : List AppRoute) (s : Setup) (session : Session) :
    Tracked (app.reload edited s) session ∨ Released (app.reload edited s) session ↔
      Closed session app.traced ∧ NoneOf session edited ∧
        (rewrites s (onSave edited app.files) = false → Unlisted session app.files) := by
  have hroutes : NoneOf session (app.reload edited s).routes ↔ NoneOf session edited :=
    (noneOf_congr (reload_spec s (onSave edited app.files)).1).symm.trans
      (noneOf_loaded s app.files)
  constructor
  · rintro (htracked | hreleased)
    · exact absurd htracked.1 List.not_mem_nil
    · have hedited := hroutes.mp hreleased.removed
      exact ⟨hreleased.closed, hedited, (unlisted_iff hedited).mp hreleased.unlisted⟩
  · rintro ⟨hclosed, hedited, hfile⟩
    exact .inr ⟨hclosed, hroutes.mpr hedited, (unlisted_iff hedited).mpr hfile⟩

end Reload

section Rows
variable {session : Session} {l l' : List AppRoute} {s : Setup} {files : Files}

theorem noneOf_writeAppConfig (h : NoneOf session l) :
    NoneOf session (writeAppConfig s files l).1 :=
  (noneOf_congr (sameRoutes_writeAppConfig (sameRoutes_refl l))).mp h

theorem unlisted_writeAppConfig (h : NoneOf session l) (hfiles : Unlisted session files) :
    Unlisted session (writeAppConfig s files l).2 := by
  intro appConfig hfile route hroute htemporary
  obtain ⟨-, hsame⟩ | ⟨-, written, hnew, hlisted⟩ :=
    @writeAppConfig_appConfig s l l files (sameRoutes_refl l)
  · exact hfiles appConfig (hsame ▸ hfile) route hroute htemporary
  · obtain rfl := Option.some.inj (hnew.symm.trans hfile)
    obtain ⟨a, ha, hsame⟩ := hlisted route hroute
    rw [sameRoute_isPersistent hsame] at htemporary
    rw [sameRoute_sessionId hsame]
    exact h a ha htemporary

theorem noneOf_removeTmpRoutes (h : NoneOf session l) (sessionId : Text) :
    NoneOf session (removeTmpRoutesForSession sessionId l).2 := by
  unfold removeTmpRoutesForSession
  split
  · exact h
  · exact fun route hroute => h route (List.mem_filter.mp hroute).1

theorem noneOf_cleanup (h : NoneOf session l) (ended : TmpSession) :
    NoneOf session (cleanupSessionRoutes s.rt s.backend s.write ended l) := by
  have hremoved := noneOf_removeTmpRoutes h ended.id
  unfold cleanupSessionRoutes
  split
  · exact h
  · split
    · rename_i routes hremove
      rw [hremove] at hremoved
      exact @noneOf_writeAppConfig session routes s ⟨[], none⟩ hremoved
    · rename_i routes hremove
      rw [hremove] at hremoved
      exact hremoved

/-- A call of `EnsureRoute` binds a temporary route to its own session only. -/
def Binds (sessionId : Text) (l l' : List AppRoute) : Prop :=
  ∀ route ∈ l', route ∈ l ∨ (route.isPersistent = false → route.sessionId = some sessionId)

theorem NoneOf.of_binds {sessionId : Text} (h : NoneOf session l) (hid : sessionId ≠ session.id)
    (hbinds : Binds sessionId l l') : NoneOf session l' := by
  intro route hroute htemporary
  obtain hold | hnew := hbinds route hroute
  · exact h route hold htemporary
  · rw [hnew htemporary]
    exact fun hsame => hid (Option.some.inj hsame)

end Rows

section Launch
variable {rt : Runtime} {backend : Backend} {write : ConfigWrite} {proxyId source sessionId : Text}
  {isPersistent ipcManaged : Bool} {l l' : List AppRoute} {result : EnsureRouteResult}

theorem binds_reuse (p : AppRoute → Bool) : Binds sessionId l
    (KeyedLists.updateFirst p (reuseRoute isPersistent (some sessionId) ipcManaged) l) := by
  intro route hroute
  refine (KeyedLists.mem_updateFirst hroute).imp_right ?_
  rintro ⟨existing, -, -, rfl⟩ htemporary
  cases isPersistent
  · exact reuseRoute_sessionId existing
  · cases hold : existing.isPersistent <;> simp [reuseRoute, hold] at htemporary

theorem binds_append {new : AppRoute}
    (h : new.isPersistent = false → new.sessionId = some sessionId) :
    Binds sessionId l (l ++ [new]) := by
  intro route hroute
  refine (List.mem_append.mp hroute).imp_right fun hnew => ?_
  rw [List.mem_singleton.mp hnew]
  exact h

theorem binds_ensureRoute {exePath : Text}
    (h : ensureRoute rt exePath proxyId source isPersistent (some sessionId) ipcManaged l =
      some (result, l')) : Binds sessionId l l' := by
  unfold ensureRoute at h
  split at h
  · cases h
    exact fun route hroute => .inl hroute
  · split at h
    · cases h
      exact binds_reuse _
    · obtain ⟨msix, -, h⟩ := Option.map_eq_some_iff.mp h
      cases h
      refine binds_append fun htemporary => ?_
      cases isPersistent
      · exact newExeRoute_sessionId ..
      · cases msix <;> cases htemporary

theorem binds_ensureTargetRoute {target : LaunchTarget}
    (h : ensureTargetRoute rt target proxyId source isPersistent (some sessionId) ipcManaged l =
      some (result, l')) : Binds sessionId l l' := by
  unfold ensureTargetRoute at h
  split at h
  · exact binds_ensureRoute h
  · split at h
    · cases h
      exact binds_reuse _
    · cases h
      refine binds_append fun htemporary => ?_
      simp only [newTargetRoute] at htemporary ⊢
      rw [htemporary]
      rfl

variable {session : Session}

theorem noneOf_writeRoute {onSuccess : RoutingStatus}
    {ensured : Option (EnsureRouteResult × List AppRoute)} (h : NoneOf session l)
    (hid : sessionId ≠ session.id)
    (hbinds : ∀ result l', ensured = some (result, l') → Binds sessionId l l') :
    NoneOf session (writeRoute rt backend write onSuccess ensured l).2.2 := by
  cases ensured with
  | none => exact h
  | some ensured =>
    obtain ⟨result, l'⟩ := ensured
    have hnone := h.of_binds hid (hbinds result l' rfl)
    rw [writeRoute_some]
    intro route hroute
    obtain ⟨a, ha, rfl⟩ := List.mem_map.mp hroute
    rw [refresh_isPersistent, refresh_sessionId]
    exact hnone a ha

theorem noneOf_initialRouting (call : LaunchCall) (isPersistentRoute : Bool)
    (h : NoneOf session l) (hid : sessionId ≠ session.id) :
    NoneOf session
      (initialRouting rt backend write call proxyId isPersistentRoute sessionId l).2.2 := by
  cases call with
  | generic exePath direct =>
    unfold initialRouting resolveInitialRoutingStatus
    dsimp only
    split_ifs
    · exact h
    · exact h
    · exact noneOf_writeRoute h hid fun _ _ => binds_ensureRoute
    · exact noneOf_writeRoute h hid fun _ _ => binds_ensureRoute
  | target target =>
    unfold initialRouting resolveInitialRoutingStatusForTarget
    dsimp only
    split_ifs
    · exact h
    · exact h
    · exact noneOf_writeRoute h hid fun _ _ => binds_ensureTargetRoute
    · exact h
    · exact noneOf_writeRoute h hid fun _ _ => binds_ensureRoute

end Launch

section Server
variable {session : Session} {t t' : Traced}

theorem createSession_unrecorded_iff (s : SessionRouteServer.Server) (id endpoint : String)
    (h : s.sessions id = none) :
    (SessionRouteServer.doCreateSession s id endpoint).1.sessions id = none ↔
      accepts s id endpoint = false := by
  unfold SessionRouteServer.doCreateSession accepts
  cases SessionRouteServer.blank id
  · cases SessionRouteServer.blank endpoint
    · cases s.proxyMap endpoint <;> simp [h]
    · simp [h]
  · simp [h]

theorem unrecorded_of_request (s : SessionRouteServer.Server) {m : Message} (stored : Bool)
    {id : String} (h : s.sessions id = none) (hm : ∀ endpoint, m ≠ .createSession id endpoint) :
    (SessionRouteServer.processMessage s m stored).1.sessions id = none := by
  by_cases hid : id = m.sessionId
  · cases m with
    | createSession a endpoint => exact absurd (by rw [hid]; rfl) (hm endpoint)
    | addPid a pid createdAt =>
      obtain rfl : id = a := hid
      obtain ⟨e, hadd⟩ | ⟨state, hstate, -⟩ :=
        SessionRouteServer.doAddPid_cases s id pid createdAt stored
      · rw [SessionRouteServer.processMessage, hadd]
        exact h
      · rw [h] at hstate
        cases hstate
    | removePid a pid =>
      obtain rfl : id = a := hid
      obtain ⟨e, hremove, -⟩ | ⟨state, hstate, -⟩ := SessionRouteServer.doRemovePid_cases s id pid
      · rw [SessionRouteServer.processMessage, hremove]
        exact h
      · rw [h] at hstate
        cases hstate
    | closeSession a =>
      obtain rfl : id = a := hid
      obtain ⟨e, hclose, -⟩ | ⟨state, hstate, -⟩ := SessionRouteServer.doCloseSession_cases s id
      · rw [SessionRouteServer.processMessage, hclose]
        exact h
      · rw [h] at hstate
        cases hstate
  · rw [SessionRouteServer.processMessage_sessions_of_ne s m stored hid]
    exact h

theorem closed_of_unrecorded (h : Closed session t) {m : Message} {stored : Bool}
    (hstep : tracedStep t (.request m stored) = some t')
    (hrecorded : t'.server.sessions session.serverId = none) : Closed session t' := by
  cases hstep
  refine ⟨hrecorded, fun pid e hroute => ?_⟩
  obtain ⟨hold, hsame⟩ | ⟨sessionId, createdAt, rfl, -, hlast⟩ :=
    routed_of_request t.lastAdd hroute
  · exact hsame.trans_ne (h.routed pid e hold)
  · refine hlast.trans_ne fun hid => ?_
    obtain rfl := Option.some.inj hid
    obtain ⟨error, hadd⟩ | ⟨state, hstate, -⟩ :=
      SessionRouteServer.doAddPid_cases t.server session.serverId pid createdAt stored
    · simp only [SessionRouteServer.processMessage, hadd] at hroute
      simp only [noteAdd, hadd] at hlast
      exact h.routed pid e hroute hlast
    · rw [h.recorded] at hstate
      cases hstate

theorem closed_of_sweep (h : Closed session t) {times : ProcessTimes}
    (hstep : tracedStep t (.sweep times) = some t') : Closed session t' := by
  cases hstep
  exact ⟨h.recorded, fun pid e hroute =>
    h.routed pid e (RouterPidRoutes.cleanupStalePidRoutes_some hroute)⟩

end Server

section Runs
variable {app app' : App} {event : Event}

theorem updateSession_ids (app : App) (sessionId : Text) (f : Session → Session)
    (hf : ∀ x, (f x).id = x.id) :
    (app.updateSession sessionId f).sessions.map (·.id) = app.sessions.map (·.id) := by
  simp only [App.updateSession, List.map_map]
  refine List.map_congr_left fun x _ => ?_
  simp only [Function.comp_apply]
  split
  · exact hf x
  · rfl

theorem apart_congr (hapart : Apart app) (hearlier : app'.earlier = app.earlier)
    (hids : app'.sessions.map (·.id) = app.sessions.map (·.id)) : Apart app' := by
  intro old hold session hsession hsame
  rw [hearlier] at hold
  have hid : session.id ∈ app.sessions.map (·.id) := hids ▸ List.mem_map_of_mem hsession
  obtain ⟨other, hother, hid⟩ := List.mem_map.mp hid
  exact hapart old hold other hother (hid.trans hsame)

theorem ne_of_fresh {sessions : List Session} {sessionId : Text} {old : Session}
    (hfresh : ¬(sessions.any fun session => session.id == sessionId) = true) (hold : old ∈ sessions) :
    old.id ≠ sessionId :=
  fun hid => hfresh (List.any_eq_true.mpr ⟨old, hold, beq_iff_eq.mpr hid⟩)

theorem step_apart (hapart : Apart app) (hstep : step app event = some app') : Apart app' := by
  cases event with
  | launch call proxyId sessionId isPersistentRoute pid s =>
    simp only [step, Option.ite_none_left_eq_some] at hstep
    obtain ⟨hfresh, hstep⟩ := hstep
    cases hstep
    intro old hold session hsession
    obtain hin | hnew := List.mem_append.mp hsession
    · exact hapart old hold session hin
    · rw [List.mem_singleton.mp hnew]
      exact fun hid => ne_of_fresh hfresh (List.mem_append_left _ hold) hid.symm
  | terminate sessionId s =>
    obtain ⟨session, -, rfl⟩ := Option.map_eq_some_iff.mp hstep
    exact apart_congr hapart rfl (updateSession_ids app session.id _ fun _ => rfl)
  | assign sessionId status =>
    cases hstep
    exact apart_congr hapart rfl (updateSession_ids app sessionId _ fun _ => rfl)
  | track sessionId pid =>
    cases hstep
    exact apart_congr hapart rfl (updateSession_ids app sessionId _ fun _ => rfl)
  | configure routes files =>
    cases hstep
    exact hapart
  | request m stored =>
    simp only [step] at hstep
    obtain ⟨traced, -, rfl⟩ := Option.map_eq_some_iff.mp hstep
    exact hapart
  | sweep times =>
    simp only [step] at hstep
    obtain ⟨traced, -, rfl⟩ := Option.map_eq_some_iff.mp hstep
    exact hapart
  | reload edited s =>
    cases hstep
    exact fun _ _ _ hsession => absurd hsession List.not_mem_nil

theorem keepsSessions_iff (hapart : Apart app) :
    KeepsSessions app ↔ ∀ session ∈ app.earlier, Released app session :=
  forall₂_congr fun session hsession =>
    or_iff_right fun htracked => hapart session hsession session htracked.1 rfl

theorem Released.of_launch {session : Session} (h : Released app session) {call : LaunchCall}
    {proxyId sessionId : Text} {isPersistentRoute : Bool} {pid : ℕ} {s : Setup}
    (hid : sessionId ≠ session.id) :
    Released (app.launch call proxyId sessionId isPersistentRoute pid s) session := by
  have hroutes : NoneOf session
      (app.launch call proxyId sessionId isPersistentRoute pid s).routes :=
    noneOf_initialRouting call isPersistentRoute h.removed hid
  refine ⟨h.closed, hroutes, ?_⟩
  simp only [App.launch]
  split
  · exact unlisted_writeAppConfig hroutes h.unlisted
  · exact h.unlisted

theorem Released.of_terminate {session : Session} (h : Released app session) (ended : Session)
    (s : Setup) : Released (app.terminate ended s) session := by
  have hroutes : NoneOf session (app.terminate ended s).routes := noneOf_cleanup h.removed _
  refine ⟨h.closed, hroutes, ?_⟩
  simp only [App.terminate]
  split
  · exact h.unlisted
  · exact unlisted_writeAppConfig hroutes h.unlisted

/-- A request brings back a session that was closed precisely if it is an accepted
    `createSession` of it. -/
theorem released_request_iff {session : Session} (h : Released app session) {m : Message}
    {stored : Bool} (hstep : step app (.request m stored) = some app') :
    Released app' session ↔ ∀ endpoint, m = .createSession session.serverId endpoint →
      accepts app.traced.server session.serverId endpoint = false := by
  simp only [step] at hstep
  obtain ⟨traced, htraced, rfl⟩ := Option.map_eq_some_iff.mp hstep
  have hserver : traced.server = (SessionRouteServer.processMessage app.traced.server m stored).1 := by
    cases htraced
    rfl
  have hreleased : Released { app with traced := traced } session ↔
      traced.server.sessions session.serverId = none :=
    ⟨fun hrel => hrel.closed.recorded, fun hrecorded =>
      ⟨closed_of_unrecorded h.closed htraced hrecorded, h.removed, h.unlisted⟩⟩
  rw [hreleased, hserver]
  by_cases hcreate : ∃ endpoint, m = .createSession session.serverId endpoint
  · obtain ⟨endpoint, rfl⟩ := hcreate
    rw [SessionRouteServer.processMessage,
      createSession_unrecorded_iff app.traced.server session.serverId endpoint h.closed.recorded]
    refine ⟨fun hrefused other hother => ?_, fun hall => hall endpoint rfl⟩
    obtain rfl : endpoint = other := (Message.createSession.inj hother).2
    exact hrefused
  · exact iff_of_true
      (unrecorded_of_request _ stored h.closed.recorded fun endpoint hm => hcreate ⟨endpoint, hm⟩)
      fun endpoint hm => absurd ⟨endpoint, hm⟩ hcreate

theorem keeps_step_iff (hapart : Apart app) (hkeeps : KeepsSessions app)
    (hstep : step app event = some app') : KeepsSessions app' ↔ NothingHeld app event := by
  have hreleased := (keepsSessions_iff hapart).mp hkeeps
  rw [keepsSessions_iff (step_apart hapart hstep)]
  cases event with
  | launch call proxyId sessionId isPersistentRoute pid s =>
    simp only [step, Option.ite_none_left_eq_some] at hstep
    obtain ⟨hfresh, hstep⟩ := hstep
    cases hstep
    refine iff_of_true (fun session hsession => (hreleased session hsession).of_launch ?_) trivial
    exact fun hid => ne_of_fresh hfresh (List.mem_append_left _ hsession) hid.symm
  | terminate sessionId s =>
    obtain ⟨ended, -, rfl⟩ := Option.map_eq_some_iff.mp hstep
    exact iff_of_true (fun session hsession => (hreleased session hsession).of_terminate ended s)
      trivial
  | assign sessionId status =>
    cases hstep
    exact iff_of_true (fun session hsession =>
      ⟨(hreleased session hsession).closed, (hreleased session hsession).removed,
        (hreleased session hsession).unlisted⟩) trivial
  | track sessionId pid =>
    cases hstep
    exact iff_of_true (fun session hsession =>
      ⟨(hreleased session hsession).closed, (hreleased session hsession).removed,
        (hreleased session hsession).unlisted⟩) trivial
  | configure routes files =>
    cases hstep
    refine forall₂_congr fun session hsession => ?_
    exact ⟨fun h => ⟨h.removed, h.unlisted⟩,
      fun h => ⟨(hreleased session hsession).closed, h.1, h.2⟩⟩
  | request m stored =>
    have hearlier : app'.earlier = app.earlier := by
      simp only [step] at hstep
      obtain ⟨traced, -, rfl⟩ := Option.map_eq_some_iff.mp hstep
      rfl
    rw [hearlier, forall₂_congr fun session hsession =>
      released_request_iff (hreleased session hsession) hstep]
    cases m with
    | createSession sessionId endpoint =>
      refine forall₂_congr fun session _ => ⟨fun h hid => ?_, fun h other hm => ?_⟩
      · exact hid ▸ h endpoint (by rw [hid])
      · obtain ⟨hid, rfl⟩ := Message.createSession.inj hm
        exact hid ▸ h hid.symm
    | addPid _ _ _ => exact iff_of_true (fun _ _ _ hm => Message.noConfusion hm) trivial
    | removePid _ _ => exact iff_of_true (fun _ _ _ hm => Message.noConfusion hm) trivial
    | closeSession _ => exact iff_of_true (fun _ _ _ hm => Message.noConfusion hm) trivial
  | sweep times =>
    simp only [step] at hstep
    obtain ⟨traced, htraced, rfl⟩ := Option.map_eq_some_iff.mp hstep
    exact iff_of_true (fun session hsession =>
      ⟨closed_of_sweep (hreleased session hsession).closed htraced,
        (hreleased session hsession).removed, (hreleased session hsession).unlisted⟩) trivial
  | reload edited s =>
    have hapart' := step_apart hapart hstep
    cases hstep
    rw [← keepsSessions_iff hapart']
    exact forall₂_congr fun session _ => released_iff app edited s session

end Runs

/-- The sessions that were active at a reload are kept or stay released throughout a run precisely
    when at each reload the route server and the routes hold nothing of them, and nothing brings
    them back. -/
theorem always_keepsSessions_iff (routes : List AppRoute) (files : Files)
    (proxyMap : String → Option IntPtr) (proxyServers : List ProxyServers) (events : List Event) :
    Always step KeepsSessions (start routes files proxyMap proxyServers) events ↔
      Meets step NothingHeld (start routes files proxyMap proxyServers) events :=
  always_iff_meets (I := Apart) (fun _ _ _ => step_apart) (fun _ _ _ => keeps_step_iff) events
    (fun _ hold => absurd hold List.not_mem_nil) (fun _ hold => absurd hold List.not_mem_nil)

def savedWhileRouted : List Event :=
  [.launch (.generic "C:\\apps\\note.exe".toList false) "clash".toList "0a1b2c3d".toList false 7
      plainSetup,
    .request (.createSession "0a1b2c3d" "127.0.0.1:1080") true,
    .reload [] plainSetup]

theorem reload_orphans_session : ¬∀ (routes : List AppRoute) (files : Files)
    (proxyMap : String → Option IntPtr) (proxyServers : List ProxyServers) (events : List Event),
      Always step KeepsSessions (start routes files proxyMap proxyServers) events := by
  intro h
  have hlast := h [] ⟨[], none⟩ (fun _ => some 0) [] savedWhileRouted
  rw [savedWhileRouted, always_cons rfl, always_cons rfl, always_cons rfl] at hlast
  obtain htracked | hreleased := always_head hlast.2.2.2 _ List.mem_cons_self
  · exact List.not_mem_nil htracked.1
  · have hclosed := hreleased.closed.recorded
    revert hclosed
    decide

end ProxySwitch.ReloadedSessions
