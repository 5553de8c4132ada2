import ProxySwitch.RouteEdits
import ProxySwitch.TransitionRuns

set_option autoImplicit false

namespace ProxySwitch.DiscoveredIdentities
open AppRoutes KeyedLists RouteEdits RouteStore RuntimeStrings TransitionRuns

structure SupervisedSession extends RouteSession where
  id : Text
  launchKind : LaunchKind
  isPersistentLaunch : Bool

def SupervisedSession.isIpcStoreApp (session : SupervisedSession) : Bool :=
  session.ipcManaged && session.launchKind == .appUserModelId

/-- What happens to a session between its launch and its end: a process is discovered, one that is
    merged or tracked may confirm the route, a child is routed, the routes are cleaned up. -/
inductive SessionAction
  | discovered (rt : Runtime) (now : ℕ) (found : FoundProcess)
  | merged (rt : Runtime) (now : ℕ) (found : FoundProcess)
  | childRouted (rt : Runtime) (exePath : Text)
  | ended

def SessionAction.isDiscovery : SessionAction → Bool
  | .discovered _ _ _ => true
  | .merged _ _ _ | .childRouted _ _ | .ended => false

/-- The change of `AppRoutes` by an action. A session that is managed leaves its children and its
    end to the route server. -/
def SessionAction.edit? (session : SupervisedSession) : SessionAction → Option Edit
  | .discovered rt now found => some (.updateStoreAppRoute rt now session.toRouteSession found)
  | .merged rt now found => some (.confirmRoute rt now session.toRouteSession found)
  | .childRouted rt exePath =>
    if session.ipcManaged then none
    else some (.ensureRoute rt exePath session.proxyId "child-detected".toList
      session.isPersistentLaunch (if session.isPersistentLaunch then none else some session.id) false)
  | .ended => if session.ipcManaged then none else some (.removeTmpRoutesForSession session.id)

def isOfSession : Edit → Bool
  | .updateStoreAppRoute _ _ _ _ | .confirmRoute _ _ _ _ => true
  | _ => false

/-- For `reload`, the user has edited the list of `proxyswitch.json`, and the services are made
    anew over what is saved and what is imported from `app-config.json`. -/
inductive Event
  | act (session : SupervisedSession) (action : SessionAction)
  | edit (e : Edit)
  | saveSwitchConfig (saved : Bool)
  | writeConfig (call : WriteCall) (writer : ConfigWriter)
  | reload (edited : List AppRoute → List AppRoute)
    (setup : List AppRoute → List AppRoute → List AppRoute)

/-- `without` is what `store` would be if the sessions of store apps that are routed by IPC did
    nothing to the routes. -/
structure World where
  store : Store
  without : Store

def start (s : Store) : World := ⟨s, s⟩

section Runs
variable (upper : Char → Char)

def reloaded (edited : List AppRoute → List AppRoute)
    (setup : List AppRoute → List AppRoute → List AppRoute) (s : Store) : Store :=
  let saved := edited s.proxyswitch
  next upper s (.load saved (setup saved s.appConfig.appRoutes))

def step (w : World) : Event → Option World
  | .act session action =>
    if action.isDiscovery && !session.isIpcStoreApp then none
    else match action.edit? session with
      | none => some w
      | some e => some
        { store := next upper w.store (.edit e)
          without := if session.isIpcStoreApp then w.without else next upper w.without (.edit e) }
  | .edit e =>
    if isOfSession e then none
    else some ⟨next upper w.store (.edit e), next upper w.without (.edit e)⟩
  | .saveSwitchConfig saved => some
    ⟨next upper w.store (.saveSwitchConfig saved), next upper w.without (.saveSwitchConfig saved)⟩
  | .writeConfig call writer => some
    ⟨next upper w.store (.writeConfig call writer), next upper w.without (.writeConfig call writer)⟩
  | .reload edited setup => some
    ⟨reloaded upper edited setup w.store, reloaded upper edited setup w.without⟩

def LeavesNothing (w : World) : Prop :=
  w.store.proxyswitch = w.without.proxyswitch ∧
    w.store.appConfig.appRoutes = w.without.appConfig.appRoutes

def Knows (rt : Runtime) (found : FoundProcess) (route : AppRoute) : Prop :=
  (found.name = [] ∨ equalsIgnoreCase rt.upper route.processName found.name = true) ∧
    (found.executablePath = [] ∨
      equalsIgnoreCase rt.upper route.resolvedExePath found.executablePath = true)

def PromotesUntaught (w : World) : Edit → Prop
  | .ensureRoute rt exePath proxyId _ isPersistent _ _ => isPersistent = true →
      w.store.routes.find? (matchesExe rt exePath proxyId) =
        w.without.routes.find? (matchesExe rt exePath proxyId)
  | .ensureTargetRoute rt target proxyId _ isPersistent _ _ => isPersistent = true →
      if target.launchKind = .exe ∧ target.exePath ≠ [] then
        w.store.routes.find? (matchesExe rt target.exePath proxyId) =
          w.without.routes.find? (matchesExe rt target.exePath proxyId)
      else
        w.store.routes.find? (matchesTarget target proxyId) =
          w.without.routes.find? (matchesTarget target proxyId)
  | _ => True

/-- A discovery teaches no persistent route, and no route that was taught is made persistent. -/
def TeachesNothing (w : World) : Event → Prop
  | .act session (.discovered rt _ found) => session.proxyId ≠ [] → ∀ route,
      w.store.routes.find? (isStoreAppRoute rt session.toRouteSession) = some route →
        route.isPersistent = false ∨ Knows rt found route
  | .act session action => ∀ e, action.edit? session = some e → PromotesUntaught w e
  | .edit e => PromotesUntaught w e
  | _ => True

/-- `b` is the route `a` as it would be without what was learned. -/
def Related (a b : AppRoute) : Prop :=
  (∃ name path time,
    b = { a with processName := name, resolvedExePath := path, resolvedAt := time }) ∧
      (a.isPersistent = true → b = a)

def Inv (w : World) : Prop :=
  List.Forall₂ Related w.store.routes w.without.routes ∧ LeavesNothing w

section Routes
variable {a b : AppRoute} {routes routes' : List AppRoute}

theorem related_refl (a : AppRoute) : Related a a :=
  ⟨⟨a.processName, a.resolvedExePath, a.resolvedAt, rfl⟩, fun _ => rfl⟩

theorem related_isPersistent (h : Related a b) : a.isPersistent = b.isPersistent := by
  obtain ⟨⟨name, path, time, rfl⟩, -⟩ := h
  rfl

theorem matchesExe_related (rt : Runtime) (exePath proxyId : Text) (a b : AppRoute)
    (h : Related a b) : matchesExe rt exePath proxyId a = matchesExe rt exePath proxyId b := by
  obtain ⟨⟨name, path, time, rfl⟩, -⟩ := h
  rfl

theorem matchesTarget_related (target : LaunchTarget) (proxyId : Text) (a b : AppRoute)
    (h : Related a b) : matchesTarget target proxyId a = matchesTarget target proxyId b := by
  obtain ⟨⟨name, path, time, rfl⟩, -⟩ := h
  rfl

theorem related_of_identity {f : AppRoute → AppRoute} (hf : ∀ a, ∃ name path time,
    f a = { a with processName := name, resolvedExePath := path, resolvedAt := time })
    (h : Related a b) : Related (f a) (f b) := by
  obtain ⟨name', path', time', ha⟩ := hf a
  obtain ⟨name, path, time, hb⟩ := hf b
  obtain ⟨⟨_, _, _, rfl⟩, hsame⟩ := h
  constructor
  · refine ⟨name, path, time, ?_⟩
    rw [hb, ha]
  · intro hpersistent
    rw [ha] at hpersistent
    rw [hsame hpersistent]

theorem related_refresh (h : Related a b) (rt : Runtime) (backend : Backend) (write : ConfigWrite) :
    Related (write.refresh rt backend a) (write.refresh rt backend b) := by
  refine related_of_identity (fun a => ?_) h
  obtain ⟨path, time, ha⟩ := refresh_eq rt backend write a
  exact ⟨a.processName, path, time, ha⟩

theorem related_confirm (h : Related a b) (rt : Runtime) (now : ℕ) (found : FoundProcess) :
    Related (confirm rt now found a) (confirm rt now found b) :=
  related_of_identity (learned_confirm rt now found) h

theorem related_learn (rt : Runtime) (now : ℕ) (found : FoundProcess) (h : Related a b)
    (hknows : a.isPersistent = false ∨ Knows rt found a) :
    Related (learnPath rt now found (learnName rt found a)) b := by
  obtain htemporary | ⟨hname, hpath⟩ := hknows
  · obtain ⟨name, path, time, hlearned⟩ := learned_learnPath rt now found (learned_learnName rt found a)
    obtain ⟨⟨name', path', time', rfl⟩, -⟩ := h
    rw [hlearned]
    refine ⟨⟨name', path', time', rfl⟩, fun hpersistent => ?_⟩
    exact absurd hpersistent (by simp [htemporary])
  · have hsameName : learnName rt found a = a := by
      refine if_neg fun hlearns => ?_
      obtain hempty | hequal := hname
      · exact hlearns.1 hempty
      · rw [hequal] at hlearns
        exact absurd hlearns.2 Bool.noConfusion
    have hsamePath : learnPath rt now found a = a := by
      refine if_neg fun hlearns => ?_
      obtain hempty | hequal := hpath
      · exact hlearns.1 hempty
      · rw [hequal] at hlearns
        exact absurd hlearns.2 Bool.noConfusion
    rw [hsameName, hsamePath]
    exact h

theorem forall₂_ensuring {c : Ensuring} (hp : ∀ a b, Related a b → c.finds a = c.finds b)
    (h : List.Forall₂ Related routes routes')
    (hguard : c.isPersistent = true → routes.find? c.finds = routes'.find? c.finds) :
    List.Forall₂ Related (c.apply routes) (c.apply routes') := by
  have hnone := forall₂_find?_eq_none hp h
  unfold Ensuring.apply
  cases hfind : routes.find? c.finds with
  | none =>
    rw [hnone.mp hfind]
    exact List.rel_append h (List.forall₂_same.mpr fun a _ => related_refl a)
  | some a =>
    obtain ⟨b, hb⟩ := Option.ne_none_iff_exists'.mp fun hb =>
      Option.some_ne_none a (hfind.symm.trans (hnone.mpr hb))
    rw [hb]
    refine forall₂_updateFirst hp (fun a b ha hb hab => ?_) h
    cases hpersistent : c.isPersistent with
    | true =>
      have hfound := hguard hpersistent
      rw [ha, hb] at hfound
      obtain rfl := Option.some.inj hfound
      exact related_refl _
    | false =>
      obtain ⟨⟨name, path, time, rfl⟩, hsame⟩ := hab
      unfold Ensuring.reuse
      rw [hpersistent]
      refine ⟨⟨name, path, time, rfl⟩, fun hkept => ?_⟩
      rw [hsame hkept]

theorem forall₂_ensureRoute (rt : Runtime) (exePath proxyId source : Text) {isPersistent : Bool}
    (sessionId : Option Text) (ipcManaged : Bool) (h : List.Forall₂ Related routes routes')
    (hguard : isPersistent = true → routes.find? (matchesExe rt exePath proxyId) =
      routes'.find? (matchesExe rt exePath proxyId)) :
    List.Forall₂ Related
      (Edit.apply (.ensureRoute rt exePath proxyId source isPersistent sessionId ipcManaged) routes)
      (Edit.apply (.ensureRoute rt exePath proxyId source isPersistent sessionId ipcManaged)
        routes') := by
  rw [ensureExe_apply, ensureExe_apply]
  unfold ensureExe
  split_ifs
  · exact h
  · exact forall₂_ensuring (matchesExe_related rt exePath proxyId) h hguard

theorem forall₂_ensureTargetRoute (rt : Runtime) (target : LaunchTarget) (proxyId source : Text)
    {isPersistent : Bool} (sessionId : Option Text) (ipcManaged : Bool)
    (h : List.Forall₂ Related routes routes')
    (hguard : isPersistent = true → if target.launchKind = .exe ∧ target.exePath ≠ [] then
        routes.find? (matchesExe rt target.exePath proxyId) =
          routes'.find? (matchesExe rt target.exePath proxyId)
      else routes.find? (matchesTarget target proxyId) =
        routes'.find? (matchesTarget target proxyId)) :
    List.Forall₂ Related
      (Edit.apply (.ensureTargetRoute rt target proxyId source isPersistent sessionId ipcManaged)
        routes)
      (Edit.apply (.ensureTargetRoute rt target proxyId source isPersistent sessionId ipcManaged)
        routes') := by
  rw [ensureTarget_apply, ensureTarget_apply]
  unfold ensureTarget
  split_ifs with hexe
  · simp only [if_pos hexe] at hguard
    rw [← ensureExe_apply, ← ensureExe_apply]
    exact forall₂_ensureRoute rt target.exePath proxyId source sessionId ipcManaged h hguard
  · simp only [if_neg hexe] at hguard
    exact forall₂_ensuring (matchesTarget_related target proxyId) h hguard

theorem forall₂_confirmRoute (rt : Runtime) (now : ℕ) (session : RouteSession)
    (found : FoundProcess) (h : List.Forall₂ Related routes routes') :
    List.Forall₂ Related (Edit.apply (.confirmRoute rt now session found) routes)
      (Edit.apply (.confirmRoute rt now session found) routes') := by
  simp only [Edit.apply, tryConfirmRouteFromProcess]
  split_ifs
  · exact h
  · refine forall₂_updateFirst (fun a b hab => ?_)
      (fun a b _ _ hab => related_confirm hab rt now found) h
    obtain ⟨⟨name, path, time, rfl⟩, -⟩ := hab
    -- the key of such a route is its AUMID, never its process name
    have hkey : (MatchKind.processName == MatchKind.appUserModelId) = false := rfl
    cases hkind : a.matchKind <;> simp [hkind, hkey, ofSession, getStableRouteKey]

theorem filter_persistent (test : AppRoute → Bool) (h : List.Forall₂ Related routes routes') :
    routes.filter (fun r => r.isPersistent && test r) =
      routes'.filter fun r => r.isPersistent && test r := by
  induction h with
  | nil => rfl
  | @cons a b rest rest' hab hrest ih =>
    rw [List.filter_cons, List.filter_cons, ih]
    cases hpersistent : a.isPersistent with
    | true =>
      rw [hab.2 hpersistent, hpersistent]
    | false =>
      rw [← related_isPersistent hab, hpersistent]
      rfl

end Routes

variable {upper} {w w' : World}

theorem forall₂_edit (h : List.Forall₂ Related w.store.routes w.without.routes) {e : Edit}
    (hlearns : ∀ rt now session found, e ≠ .updateStoreAppRoute rt now session found)
    (hguard : PromotesUntaught w e) :
    List.Forall₂ Related (e.apply w.store.routes) (e.apply w.without.routes) := by
  cases e with
  | ensureRoute rt exePath proxyId source isPersistent sessionId ipcManaged =>
    exact forall₂_ensureRoute rt exePath proxyId source sessionId ipcManaged h hguard
  | ensureTargetRoute rt target proxyId source isPersistent sessionId ipcManaged =>
    exact forall₂_ensureTargetRoute rt target proxyId source sessionId ipcManaged h hguard
  | removeRouteByExe rt exePath proxyId =>
    exact forall₂_eraseP (matchesExe_related rt exePath proxyId) h
  | removeRoute routeId =>
    refine forall₂_eraseP (fun a b hab => ?_) h
    obtain ⟨⟨name, path, time, rfl⟩, -⟩ := hab
    rfl
  | removeTmpRoutesForSession sessionId =>
    simp only [Edit.apply, removeTmpRoutesForSession]
    split_ifs
    · exact h
    · refine forall₂_filter (fun a b hab => ?_) h
      obtain ⟨⟨name, path, time, rfl⟩, -⟩ := hab
      rfl
  | purgeTmpRoutes => exact forall₂_filter (fun a b hab => related_isPersistent hab) h
  | updateStoreAppRoute rt now session found => exact absurd rfl (hlearns rt now session found)
  | confirmRoute rt now session found => exact forall₂_confirmRoute rt now session found h

theorem forall₂_discovered (h : List.Forall₂ Related w.store.routes w.without.routes)
    {session : SupervisedSession} {rt : Runtime} {now : ℕ} {found : FoundProcess}
    (hguard : TeachesNothing w (.act session (.discovered rt now found))) :
    List.Forall₂ Related (updateStoreAppRouteFromCandidate rt now session.toRouteSession found
      w.store.routes) w.without.routes := by
  unfold updateStoreAppRouteFromCandidate
  split_ifs with hproxy
  · exact h
  · exact forall₂_updateFirst_left
      (fun a b ha hab => related_learn rt now found hab (hguard hproxy a ha)) h

theorem inv_edit (hw : Inv w) {e : Edit}
    (h : List.Forall₂ Related (e.apply w.store.routes) (e.apply w.without.routes)) :
    Inv ⟨next upper w.store (.edit e), next upper w.without (.edit e)⟩ := ⟨h, hw.2⟩

/-- A session that is managed only ever changes a route by a discovery. -/
theorem inv_act (hw : Inv w) {session : SupervisedSession} {action : SessionAction}
    (hguard : TeachesNothing w (.act session action))
    (h : step upper w (.act session action) = some w') : Inv w' := by
  simp only [step] at h
  split at h
  · cases h
  · rename_i hdiscovery
    split at h
    · obtain rfl := Option.some.inj h
      exact hw
    · rename_i e he
      obtain rfl := Option.some.inj h
      cases hsession : session.isIpcStoreApp with
      | true =>
        have hmanaged : session.ipcManaged = true := (Bool.and_eq_true_iff.mp hsession).1
        cases action with
        | discovered rt now found =>
          obtain rfl := Option.some.inj he
          exact ⟨forall₂_discovered hw.1 hguard, hw.2⟩
        | merged rt now found =>
          obtain rfl := Option.some.inj he
          refine ⟨?_, hw.2⟩
          simp only [next, Edit.apply, tryConfirmRouteFromProcess, hmanaged, Bool.true_or, if_true]
          exact hw.1
        | childRouted rt exePath =>
          simp only [SessionAction.edit?, hmanaged, if_true] at he
          cases he
        | ended =>
          simp only [SessionAction.edit?, hmanaged, if_true] at he
          cases he
      | false =>
        rw [if_neg Bool.false_ne_true]
        cases action with
        | discovered rt now found =>
          rw [hsession] at hdiscovery
          exact absurd rfl hdiscovery
        | merged rt now found =>
          obtain rfl := Option.some.inj he
          exact inv_edit hw (forall₂_confirmRoute rt now session.toRouteSession found hw.1)
        | childRouted rt exePath =>
          have hpromotes := hguard e he
          simp only [SessionAction.edit?] at he
          split at he
          · cases he
          · obtain rfl := Option.some.inj he
            exact inv_edit hw (forall₂_edit hw.1 (fun _ _ _ _ => Edit.noConfusion) hpromotes)
        | ended =>
          simp only [SessionAction.edit?] at he
          split at he
          · cases he
          · obtain rfl := Option.some.inj he
            exact inv_edit hw (forall₂_edit hw.1 (fun _ _ _ _ => Edit.noConfusion) trivial)

theorem inv_writeConfig (hw : Inv w) (call : WriteCall) (writer : ConfigWriter) :
    Inv ⟨w.store.writeConfig upper call writer, w.without.writeConfig upper call writer⟩ := by
  have hroutes : List.Forall₂ Related (refreshed upper call w.store.routes)
      (refreshed upper call w.without.routes) :=
    List.forall₂_map_left_iff.mpr (List.forall₂_map_right_iff.mpr
      (hw.1.imp fun a b hab => related_refresh hab _ _ _))
  unfold Store.writeConfig
  split
  · exact ⟨hroutes, hw.2.1, filter_persistent AppRoute.enabled hroutes⟩
  · exact ⟨hroutes, hw.2⟩

theorem inv_step {event : Event} (hw : Inv w) (hguard : TeachesNothing w event)
    (h : step upper w event = some w') : Inv w' := by
  cases event with
  | act session action => exact inv_act hw hguard h
  | edit e =>
    simp only [step] at h
    split at h
    · cases h
    · rename_i hother
      obtain rfl := Option.some.inj h
      refine inv_edit hw (forall₂_edit hw.1 (fun rt now session found heq => ?_) hguard)
      rw [heq] at hother
      exact hother rfl
  | saveSwitchConfig saved =>
    obtain rfl := Option.some.inj h
    cases saved with
    | false => exact hw
    | true =>
      refine ⟨hw.1, ?_, hw.2.2⟩
      have hsame := filter_persistent (fun _ => true) hw.1
      simp only [Bool.and_true] at hsame
      exact hsame
  | writeConfig call writer =>
    obtain rfl := Option.some.inj h
    exact inv_writeConfig hw call writer
  | reload edited setup =>
    obtain rfl := Option.some.inj h
    have hloaded : reloaded upper edited setup w.without = { reloaded upper edited setup w.store with
        appConfig := w.without.appConfig, liveRules := w.without.liveRules } := by
      unfold reloaded
      rw [hw.2.1, hw.2.2]
      rfl
    refine ⟨?_, ?_, hw.2.2⟩
    · dsimp only
      rw [hloaded]
      exact List.forall₂_same.mpr fun a _ => related_refl a
    · dsimp only
      rw [hloaded]

end Runs

/-- What was found by the sessions of store apps is in neither file, in any state of a run that
    teaches no route that is kept. -/
theorem always_leavesNothing (upper : Char → Char) (s : Store) (events : List Event)
    (h : Meets (step upper) TeachesNothing (start s) events) :
    Always (step upper) LeavesNothing (start s) events := by
  refine always_mono (P := Inv) (fun w hw => hw.2) ?_
  refine always_of_meets (fun w event w' hw hguard h => inv_step hw hguard h) ?_ h
  exact ⟨List.forall₂_same.mpr fun a _ => related_refl a, rfl, rfl⟩

def storeApp : LaunchTarget :=
  { launchKind := .appUserModelId
    displayName := "Codex".toList
    appUserModelId := "Codex_1!App".toList }

/-- The app is launched over the pipe, its process is discovered, and the routes are saved. -/
def launchAndDiscover (isPersistent : Bool) : List Event :=
  let session : SupervisedSession :=
    { proxyId := "clash".toList
      routeKey := "app-user-model-id:clash:Codex_1!App".toList
      appUserModelId := "Codex_1!App".toList
      ipcManaged := true
      id := "0a1b2c3d".toList
      launchKind := .appUserModelId
      isPersistentLaunch := isPersistent }
  [.edit (.ensureTargetRoute plainRuntime storeApp "clash".toList (routeSource isPersistent)
      isPersistent (some session.id) true),
    .act session (.discovered plainRuntime 0 ⟨"codex.exe".toList, "C:\\codex\\codex.exe".toList⟩),
    .saveSwitchConfig true]

theorem always_leavesNothing_temporary : Always (step Char.toUpper) LeavesNothing
    (start ⟨[], [], {}, false, []⟩) (launchAndDiscover false) := by
  refine always_leavesNothing Char.toUpper _ _ ⟨?_, ?_, trivial, trivial⟩
  · exact fun hpersistent => absurd hpersistent Bool.false_ne_true
  · intro _ route hfind
    refine .inl ?_
    have hmem := List.mem_of_find?_eq_some hfind
    obtain rfl := List.mem_singleton.mp hmem
    rfl

theorem discovered_identity_saved :
    ¬∀ (upper : Char → Char) (s : Store) (events : List Event),
      Always (step upper) LeavesNothing (start s) events := by
  intro h
  have hlast := (always_iff_reached _ _).mp
    (h Char.toUpper ⟨[], [], {}, false, []⟩ (launchAndDiscover true)) (launchAndDiscover true) [] _
      (List.append_nil _).symm rfl
  exact absurd hlast.1 (by decide)

end ProxySwitch.DiscoveredIdentities
