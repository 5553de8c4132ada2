import ProxySwitch.AppRoutes

set_option autoImplicit false

namespace ProxySwitch.FailedLaunches
open AppRoutes KeyedLists RuntimeStrings

structure Surroundings where
  rt : Runtime
  backend : Backend
  write : ConfigWrite
  rewrite : ConfigWrite

variable (env : Surroundings)

def routesAfterWrite (write : ConfigWrite) (routes : List AppRoute) : List AppRoute :=
  (writeConfig env.rt env.backend write routes).2

def rollbackExe (exePath proxyId : Text) (routes : List AppRoute) : List AppRoute :=
  match removeRouteByExe env.rt exePath proxyId routes with
  | (true, routes) => routesAfterWrite env env.rewrite routes
  | (false, _) => routes

def matchesAumid (target : LaunchTarget) (proxyId : Text) (route : AppRoute) : Bool :=
  route.proxyId == proxyId && route.launchKind == .appUserModelId &&
    route.appUserModelId == target.appUserModelId

def rollbackAumid (target : LaunchTarget) (proxyId : Text) (routes : List AppRoute) :
    List AppRoute :=
  match routes.find? (matchesAumid target proxyId) with
  | some route => routesAfterWrite env env.rewrite (removeRoute route.id routes).2
  | none => routes

def rollback (call : LaunchCall) (proxyId : Text) (routes : List AppRoute) : List AppRoute :=
  match call with
  | .generic exePath _ => rollbackExe env exePath proxyId routes
  | .target target =>
    if target.launchKind = .exe ∧ target.exePath ≠ [] then
      rollbackExe env target.exePath proxyId routes
    else if target.launchKind = .appUserModelId then rollbackAumid env target proxyId routes
    else routes

/-- `AppRoutes` after a launch whose process does not start. -/
def failedLaunch (call : LaunchCall) (proxyId : Text) (isPersistentRoute : Bool)
    (sessionId : Text) (routes : List AppRoute) : List AppRoute :=
  if call.preflight env.rt then
    let (routingStatus, _, routes) :=
      initialRouting env.rt env.backend env.write call proxyId isPersistentRoute sessionId routes
    if !isPersistentRoute && proxyId ≠ [] && routingStatus.isProxifyre then
      rollback env call proxyId routes
    else routes
  else routes

def CachesKept (routes : List AppRoute) : Prop :=
  ∀ r ∈ routes, env.rewrite.refresh env.rt env.backend
    (env.write.refresh env.rt env.backend r) = r

def ExeUnrouted (exePath proxyId : Text) (routes : List AppRoute) : Prop :=
  (∀ r ∈ routes, matchesExe env.rt exePath proxyId r = false) ∧
    (env.rt.tryResolveMsixIdentity exePath = none ∨ CachesKept env routes)

def newRouteId (target : LaunchTarget) (proxyId : Text) : Text :=
  target.displayName ++ '-' :: proxyId ++ '-' :: env.rt.newGuid

def AumidUnrouted (target : LaunchTarget) (proxyId : Text) (routes : List AppRoute) : Prop :=
  (∀ r ∈ routes, matchesAumid target proxyId r = false) ∧
    (env.backend.isIpcAvailable = true →
      (∀ r ∈ routes, matchesTarget target proxyId r = false ∧ r.id ≠ newRouteId env target proxyId) ∧
      CachesKept env routes)

/-- A target of another kind, whose route would stay: none is made. -/
def NoRouteMade (target : LaunchTarget) (proxyId : Text) (routes : List AppRoute) : Prop :=
  env.backend.isIpcAvailable = false ∧
    (target.exePath = [] ∧ (∀ r ∈ routes, env.write.refresh env.rt env.backend r = r) ∨
      target.exePath ≠ [] ∧ (∀ r ∈ routes, matchesExe env.rt target.exePath proxyId r = false) ∧
        env.rt.tryResolveMsixIdentity target.exePath = none)

def RollbackExact (call : LaunchCall) (proxyId : Text) (routes : List AppRoute) : Prop :=
  proxyId = [] ∨ env.backend.ready = false ∨
    match call with
    | .generic exePath direct =>
      call.preflight env.rt = false ∨ direct = true ∨ ExeUnrouted env exePath proxyId routes
    | .target target =>
      if target.launchKind = .exe ∧ target.exePath ≠ [] then
        ExeUnrouted env target.exePath proxyId routes
      else if target.launchKind = .appUserModelId then AumidUnrouted env target proxyId routes
      else NoRouteMade env target proxyId routes

section Exactness
variable {env} {proxyId sessionId : Text} {routes : List AppRoute}

theorem ne_of_bound {final : List AppRoute} (hfresh : ∀ r ∈ routes, r.sessionId ≠ some sessionId)
    {r : AppRoute} (hr : r ∈ final) (hbound : r.sessionId = some sessionId) : final ≠ routes := by
  rintro rfl
  exact hfresh r hr hbound

theorem ne_of_shorter {final : List AppRoute} (h : final.length < routes.length) :
    final ≠ routes := by
  rintro rfl
  exact Nat.lt_irrefl _ h

theorem mem_routesAfterWrite {write : ConfigWrite} {r : AppRoute} (h : r ∈ routes) :
    write.refresh env.rt env.backend r ∈ routesAfterWrite env write routes :=
  List.mem_map.mpr ⟨r, h, rfl⟩

theorem any_eq_false_iff {p : AppRoute → Bool} {l : List AppRoute} :
    l.any p = false ↔ ∀ r ∈ l, p r = false := by
  simp

theorem cachesKept_iff : routesAfterWrite env env.rewrite
    (routes.map (env.write.refresh env.rt env.backend)) = routes ↔ CachesKept env routes := by
  rw [routesAfterWrite, writeConfig, List.map_map]
  conv_lhs => rhs; rw [← List.map_id routes]
  exact List.map_inj_left

theorem rollbackExe_of_unrouted {exePath : Text}
    (h : ∀ r ∈ routes, matchesExe env.rt exePath proxyId r = false) :
    rollbackExe env exePath proxyId routes = routes := by
  rw [rollbackExe, removeRouteByExe, any_eq_false_iff.mpr h]

theorem rollbackExe_of_routed {exePath : Text} {r : AppRoute} (hr : r ∈ routes)
    (hmatch : matchesExe env.rt exePath proxyId r = true) :
    rollbackExe env exePath proxyId routes =
      routesAfterWrite env env.rewrite (routes.eraseP (matchesExe env.rt exePath proxyId)) := by
  have hany : routes.any (matchesExe env.rt exePath proxyId) = true := List.any_eq_true.mpr ⟨r, hr, hmatch⟩
  rw [rollbackExe, removeRouteByExe, hany]

theorem rollbackExe_eq_iff {exePath source : Text} {ipcManaged : Bool} {onSuccess : RoutingStatus}
    (hexe : exePath ≠ []) (hproxy : proxyId ≠ []) :
    rollbackExe env exePath proxyId (writeRoute env.rt env.backend env.write onSuccess
      (ensureRoute env.rt exePath proxyId source false (some sessionId) ipcManaged routes)
      routes).2.2 = routes ↔ ExeUnrouted env exePath proxyId routes := by
  rcases ensureRoute_cases env.rt hexe hproxy source false (some sessionId) ipcManaged routes with
    ⟨x, result, hx, hensure⟩ | ⟨hnone, ⟨hmsix, hensure⟩ | ⟨msix, result, hmsix, hensure⟩⟩
  · -- the rollback removes the route that was there before
    have hmem := List.mem_of_find?_eq_some hx
    have hmatch := List.find?_some hx
    refine iff_of_false ?_ fun h => by rw [h.1 x hmem] at hmatch; cases hmatch
    rw [hensure, writeRoute_some]
    have hupdated := mem_updateFirst_of_find (f := reuseRoute false (some sessionId) ipcManaged) hx
    have hrouted := List.mem_map_of_mem (f := env.write.refresh env.rt env.backend) hupdated
    have htest : matchesExe env.rt exePath proxyId (env.write.refresh env.rt env.backend
        (reuseRoute false (some sessionId) ipcManaged x)) = true := by simpa using hmatch
    rw [rollbackExe_of_routed hrouted htest]
    apply ne_of_shorter
    have hshort := eraseP_ne_self_of_mem hrouted htest
    simpa [routesAfterWrite, writeConfig] using hshort
  · rw [hensure, writeRoute_none]
    exact iff_of_true (rollbackExe_of_unrouted hnone) ⟨hnone, .inl hmsix⟩
  · rw [hensure, writeRoute_some, List.map_append, List.map_singleton]
    rw [rollbackExe_of_routed (List.mem_append_right _ (List.mem_singleton_self _)) (by simp)]
    rw [eraseP_append_of_forall (by simpa using hnone) (by simp), cachesKept_iff]
    constructor
    · exact fun h => ⟨hnone, .inr h⟩
    · rintro ⟨_, hthrow | hkept⟩
      · rw [hmsix] at hthrow; cases hthrow
      · exact hkept

theorem ensureTargetRoute_cases (rt : Runtime) {target : LaunchTarget}
    (hkind : ¬ (target.launchKind = .exe ∧ target.exePath ≠ [])) (proxyId source : Text)
    (isPersistent : Bool) (sessionId : Option Text) (ipcManaged : Bool) (routes : List AppRoute) :
    (∃ x result, routes.find? (matchesTarget target proxyId) = some x ∧
      ensureTargetRoute rt target proxyId source isPersistent sessionId ipcManaged routes =
        some (result, updateFirst (matchesTarget target proxyId)
          (reuseRoute isPersistent sessionId ipcManaged) routes)) ∨
    (∀ r ∈ routes, matchesTarget target proxyId r = false) ∧
      ∃ result, ensureTargetRoute rt target proxyId source isPersistent sessionId ipcManaged routes =
        some (result, routes ++
          [newTargetRoute rt target proxyId source isPersistent sessionId ipcManaged]) := by
  simp only [ensureTargetRoute, hkind, if_false]
  cases hfind : routes.find? (matchesTarget target proxyId) with
  | some x => exact .inl ⟨x, _, rfl, rfl⟩
  | none => exact .inr ⟨find?_eq_none_iff_forall.mp hfind, _, rfl⟩

theorem exists_bound_of_ensureTargetRoute {target : LaunchTarget} (source : Text)
    (ipcManaged : Bool) (onSuccess : RoutingStatus)
    (hkind : ¬ (target.launchKind = .exe ∧ target.exePath ≠ [])) :
    ∃ r ∈ (writeRoute env.rt env.backend env.write onSuccess
      (ensureTargetRoute env.rt target proxyId source false (some sessionId) ipcManaged routes)
      routes).2.2, r.sessionId = some sessionId := by
  rcases ensureTargetRoute_cases env.rt hkind proxyId source false (some sessionId) ipcManaged
    routes with ⟨x, result, hx, hensure⟩ | ⟨_, result, hensure⟩
  · rw [hensure, writeRoute_some]
    exact ⟨_, List.mem_map_of_mem (mem_updateFirst_of_find hx), by simp⟩
  · rw [hensure, writeRoute_some]
    exact ⟨_, List.mem_map_of_mem (List.mem_append_right _ (List.mem_singleton_self _)),
      by simp [newTargetRoute]⟩

@[simp] theorem matchesAumid_refresh (write : ConfigWrite) (target : LaunchTarget) (r : AppRoute) :
    matchesAumid target proxyId (write.refresh env.rt env.backend r) =
      matchesAumid target proxyId r := by
  simp only [matchesAumid, refresh_proxyId, refresh_launchKind, refresh_appUserModelId]

theorem rollbackAumid_of_found {target : LaunchTarget} {r : AppRoute}
    (h : routes.find? (matchesAumid target proxyId) = some r) :
    rollbackAumid env target proxyId routes =
      routesAfterWrite env env.rewrite (routes.eraseP (·.id == r.id)) := by
  rw [rollbackAumid, h]
  rfl

theorem rollbackAumid_shorter {target : LaunchTarget} {r : AppRoute}
    (h : routes.find? (matchesAumid target proxyId) = some r) :
    (rollbackAumid env target proxyId routes).length < routes.length := by
  rw [rollbackAumid_of_found h, routesAfterWrite, writeConfig, List.length_map]
  exact eraseP_ne_self_of_mem (List.mem_of_find?_eq_some h) (by simp)

theorem rollbackAumid_append_eq_iff {target : LaunchTarget} {new : AppRoute}
    (hfresh : ∀ r ∈ routes, r.sessionId ≠ some sessionId) (hbound : new.sessionId = some sessionId)
    (hnew : matchesAumid target proxyId new = true) :
    rollbackAumid env target proxyId ((routes ++ [new]).map (env.write.refresh env.rt env.backend)) =
        routes ↔
      (∀ r ∈ routes, matchesAumid target proxyId r = false) ∧ (∀ r ∈ routes, r.id ≠ new.id) ∧
        CachesKept env routes := by
  have hstays : ∀ {i : Text}, (∃ r ∈ routes, r.id = i) →
      routesAfterWrite env env.rewrite
        (((routes ++ [new]).map (env.write.refresh env.rt env.backend)).eraseP (·.id == i)) ≠
          routes := by
    -- an older route with the same id goes in place of the new one
    rintro i ⟨r, hr, rfl⟩
    rw [List.map_append, List.map_singleton,
      List.eraseP_append_left (by simp) _ (List.mem_map_of_mem hr)]
    refine ne_of_bound hfresh (mem_routesAfterWrite
      (List.mem_append_right _ (List.mem_singleton_self _))) ?_
    simpa using hbound
  by_cases hold : ∀ r ∈ routes, matchesAumid target proxyId r = false
  · have hfind : ((routes ++ [new]).map (env.write.refresh env.rt env.backend)).find?
        (matchesAumid target proxyId) = some (env.write.refresh env.rt env.backend new) := by
      have hnone : (routes.map (env.write.refresh env.rt env.backend)).find?
          (matchesAumid target proxyId) = none := by
        rw [find?_eq_none_iff_forall]
        simpa using hold
      rw [List.map_append, List.find?_append, hnone]
      simp [hnew]
    rw [rollbackAumid_of_found hfind, refresh_id]
    by_cases hid : ∀ r ∈ routes, r.id ≠ new.id
    · rw [List.map_append, List.map_singleton, eraseP_append_of_forall (by simpa using hid) (by simp),
        cachesKept_iff]
      exact ⟨fun h => ⟨hold, hid, h⟩, fun h => h.2.2⟩
    · refine iff_of_false (hstays ?_) fun h => hid h.2.1
      simpa using hid
  · obtain ⟨r, hr, hmatch⟩ : ∃ r ∈ routes, matchesAumid target proxyId r = true := by
      simpa using hold
    refine iff_of_false ?_ fun h => by rw [h.1 r hr] at hmatch; cases hmatch
    obtain ⟨x, hx⟩ := Option.ne_none_iff_exists'.mp
      (mt find?_eq_none_iff_forall.mp hold)
    have hfind : ((routes ++ [new]).map (env.write.refresh env.rt env.backend)).find?
        (matchesAumid target proxyId) = some (env.write.refresh env.rt env.backend x) := by
      have hcomp : matchesAumid target proxyId ∘ env.write.refresh env.rt env.backend =
          matchesAumid target proxyId := by
        funext r
        simp
      rw [List.find?_map, hcomp, List.find?_append, hx]
      rfl
    rw [rollbackAumid_of_found hfind, refresh_id]
    exact hstays ⟨x, List.mem_of_find?_eq_some hx, rfl⟩

theorem rollbackAumid_eq_iff {target : LaunchTarget} {source : Text} {onSuccess : RoutingStatus}
    (hfresh : ∀ r ∈ routes, r.sessionId ≠ some sessionId)
    (hkind : target.launchKind = .appUserModelId) :
    rollbackAumid env target proxyId (writeRoute env.rt env.backend env.write onSuccess
      (ensureTargetRoute env.rt target proxyId source false (some sessionId) true routes)
      routes).2.2 = routes ↔
      (∀ r ∈ routes, matchesAumid target proxyId r = false) ∧
        (∀ r ∈ routes, matchesTarget target proxyId r = false ∧
          r.id ≠ newRouteId env target proxyId) ∧ CachesKept env routes := by
  have hnotExe : ¬ (target.launchKind = .exe ∧ target.exePath ≠ []) := by simp [hkind]
  rcases ensureTargetRoute_cases env.rt hnotExe proxyId source false (some sessionId) true routes with
    ⟨x, result, hx, hensure⟩ | ⟨hnone, result, hensure⟩
  · have hmatch := List.find?_some hx
    refine iff_of_false ?_ fun h => by
      rw [(h.2.1 x (List.mem_of_find?_eq_some hx)).1] at hmatch; cases hmatch
    rw [hensure, writeRoute_some]
    cases hfound : ((updateFirst (matchesTarget target proxyId)
        (reuseRoute false (some sessionId) true) routes).map
          (env.write.refresh env.rt env.backend)).find? (matchesAumid target proxyId) with
    | some r =>
      apply ne_of_shorter
      exact lt_of_lt_of_eq (rollbackAumid_shorter hfound) (by simp)
    | none =>
      -- the updated route was found by another identity, and stays
      rw [rollbackAumid, hfound]
      exact ne_of_bound hfresh (List.mem_map_of_mem (mem_updateFirst_of_find hx)) (by simp)
  · rw [hensure, writeRoute_some, rollbackAumid_append_eq_iff hfresh (by simp [newTargetRoute])
      (by simp [matchesAumid, newTargetRoute, hkind])]
    constructor
    · rintro ⟨haumid, hid, hkept⟩
      exact ⟨haumid, fun r hr => ⟨hnone r hr, hid r hr⟩, hkept⟩
    · rintro ⟨haumid, hboth, hkept⟩
      exact ⟨haumid, fun r hr => (hboth r hr).2, hkept⟩

theorem legacyRoute_eq_iff (exePath source : Text) (onSuccess : RoutingStatus)
    (hproxy : proxyId ≠ []) (hfresh : ∀ r ∈ routes, r.sessionId ≠ some sessionId) :
    (writeRoute env.rt env.backend env.write onSuccess
      (ensureRoute env.rt exePath proxyId source false (some sessionId) false routes)
      routes).2.2 = routes ↔
      (exePath = [] ∧ (∀ r ∈ routes, env.write.refresh env.rt env.backend r = r) ∨
        exePath ≠ [] ∧ (∀ r ∈ routes, matchesExe env.rt exePath proxyId r = false) ∧
          env.rt.tryResolveMsixIdentity exePath = none) := by
  by_cases hexe : exePath = []
  · have hmap : routes.map (env.write.refresh env.rt env.backend) = routes ↔
        ∀ r ∈ routes, env.write.refresh env.rt env.backend r = r := by
      conv_lhs => rhs; rw [← List.map_id routes]
      exact List.map_inj_left
    simp [ensureRoute, hexe, writeRoute_some, hmap]
  · simp only [hexe, false_and, false_or]
    rcases ensureRoute_cases env.rt hexe hproxy source false (some sessionId) false routes with
      ⟨x, result, hx, hensure⟩ | ⟨hnone, ⟨hmsix, hensure⟩ | ⟨msix, result, hmsix, hensure⟩⟩
    · have hmatch := List.find?_some hx
      refine iff_of_false ?_ fun h => by
        rw [h.2.1 x (List.mem_of_find?_eq_some hx)] at hmatch; cases hmatch
      rw [hensure, writeRoute_some]
      exact ne_of_bound hfresh (List.mem_map_of_mem (mem_updateFirst_of_find hx)) (by simp)
    · rw [hensure, writeRoute_none]
      exact iff_of_true rfl ⟨hexe, hnone, hmsix⟩
    · refine iff_of_false ?_ fun h => by rw [hmsix] at h; cases h.2.2
      rw [hensure, writeRoute_some]
      exact ne_of_bound hfresh
        (List.mem_map_of_mem (List.mem_append_right _ (List.mem_singleton_self _))) (by simp)

theorem failedLaunch_generic_eq_iff {exePath : Text} {direct : Bool} (hproxy : proxyId ≠ [])
    (hready : env.backend.ready = true) :
    failedLaunch env (.generic exePath direct) proxyId false sessionId routes = routes ↔
      LaunchCall.preflight env.rt (.generic exePath direct) = false ∨ direct = true ∨
        ExeUnrouted env exePath proxyId routes := by
  cases hfile : LaunchCall.preflight env.rt (.generic exePath direct) with
  | false => simp [failedLaunch, hfile]
  | true =>
    have hexe : exePath ≠ [] := by
      have hboth := hfile
      simp only [LaunchCall.preflight, Bool.and_eq_true, decide_eq_true_eq] at hboth
      exact hboth.1
    cases direct with
    | true =>
      simp [failedLaunch, hfile, initialRouting, resolveInitialRoutingStatus, RoutingStatus.isProxifyre]
    | false =>
      have hstatus := fun onSuccess h ipcManaged => writeRoute_isProxifyre env.rt env.backend
        env.write onSuccess h (ensureRoute env.rt exePath proxyId
          (routeSource false) false (some sessionId) ipcManaged routes) routes
      cases hipc : env.backend.isIpcAvailable with
      | true =>
        simp [failedLaunch, hfile, initialRouting, resolveInitialRoutingStatus, hproxy, hready, hipc,
          hstatus .routeSessionCreated rfl, rollback, rollbackExe_eq_iff hexe hproxy]
      | false =>
        simp [failedLaunch, hfile, initialRouting, resolveInitialRoutingStatus, hproxy, hready, hipc,
          hstatus .routeLaunching rfl, rollback, rollbackExe_eq_iff hexe hproxy]

theorem failedLaunch_target_eq_iff {target : LaunchTarget} (hproxy : proxyId ≠ [])
    (hready : env.backend.ready = true) (hfresh : ∀ r ∈ routes, r.sessionId ≠ some sessionId) :
    failedLaunch env (.target target) proxyId false sessionId routes = routes ↔
      if target.launchKind = .exe ∧ target.exePath ≠ [] then
        ExeUnrouted env target.exePath proxyId routes
      else if target.launchKind = .appUserModelId then AumidUnrouted env target proxyId routes
      else NoRouteMade env target proxyId routes := by
  have hlegacy := fun ipcManaged => writeRoute_isProxifyre env.rt env.backend env.write
    .routeLaunching rfl (ensureRoute env.rt target.exePath proxyId (routeSource false) false
      (some sessionId) ipcManaged routes) routes
  have hmanaged := writeRoute_isProxifyre env.rt env.backend env.write .routeSessionCreated rfl
    (ensureTargetRoute env.rt target proxyId (routeSource false) false (some sessionId) true routes)
    routes
  by_cases hexe : target.launchKind = .exe ∧ target.exePath ≠ []
  · rw [if_pos hexe]
    have hensure : ensureTargetRoute env.rt target proxyId (routeSource false) false
        (some sessionId) true routes = ensureRoute env.rt target.exePath proxyId (routeSource false)
          false (some sessionId) true routes := by
      rw [ensureTargetRoute, if_pos hexe]
    rw [hensure] at hmanaged
    cases hipc : env.backend.isIpcAvailable with
    | true =>
      simp [failedLaunch, LaunchCall.preflight, initialRouting, resolveInitialRoutingStatusForTarget,
        hproxy, hready, hipc, hensure, hmanaged, rollback, hexe, rollbackExe_eq_iff hexe.2 hproxy]
    | false =>
      simp [failedLaunch, LaunchCall.preflight, initialRouting, resolveInitialRoutingStatusForTarget,
        hproxy, hready, hipc, hlegacy, rollback, hexe, rollbackExe_eq_iff hexe.2 hproxy]
  rw [if_neg hexe]
  by_cases hkind : target.launchKind = .appUserModelId
  · rw [if_pos hkind]
    cases hipc : env.backend.isIpcAvailable with
    | true =>
      simp [failedLaunch, LaunchCall.preflight, initialRouting, resolveInitialRoutingStatusForTarget,
        hproxy, hready, hipc, hmanaged, rollback, hkind, rollbackAumid_eq_iff hfresh hkind,
        AumidUnrouted]
    | false =>
      have hstatus : failedLaunch env (.target target) proxyId false sessionId routes =
          rollbackAumid env target proxyId routes := by
        simp [failedLaunch, LaunchCall.preflight, initialRouting, hproxy, hready, hipc, hkind,
          resolveInitialRoutingStatusForTarget, rollback, RoutingStatus.isProxifyre]
      rw [hstatus, AumidUnrouted, hipc]
      cases hfound : routes.find? (matchesAumid target proxyId) with
      | none => simpa [rollbackAumid, hfound] using find?_eq_none_iff_forall.mp hfound
      | some r =>
        have hmatch := List.find?_some hfound
        refine iff_of_false (ne_of_shorter (rollbackAumid_shorter hfound)) fun h => ?_
        rw [h.1 r (List.mem_of_find?_eq_some hfound)] at hmatch
        cases hmatch
  · rw [if_neg hkind, NoRouteMade]
    cases hipc : env.backend.isIpcAvailable with
    | true =>
      refine iff_of_false ?_ (by simp)
      obtain ⟨r, hr, hbound⟩ : ∃ r ∈ (writeRoute env.rt env.backend env.write .routeSessionCreated
          (ensureTargetRoute env.rt target proxyId (routeSource false) false (some sessionId) true
            routes) routes).2.2, r.sessionId = some sessionId :=
        exists_bound_of_ensureTargetRoute _ _ _ hexe
      refine ne_of_bound hfresh ?_ hbound
      simpa [failedLaunch, LaunchCall.preflight, initialRouting, hproxy, hready, hipc, hmanaged,
        resolveInitialRoutingStatusForTarget, rollback, hexe, hkind] using hr
    | false =>
      rw [← legacyRoute_eq_iff target.exePath (routeSource false) .routeLaunching hproxy hfresh]
      simp [failedLaunch, LaunchCall.preflight, initialRouting, hproxy, hready, hipc, hlegacy,
        resolveInitialRoutingStatusForTarget, rollback, hexe, hkind]

end Exactness

/-- A session-only launch that fails leaves the table as it was exactly when the rollback
    takes out what was put in. -/
theorem failedLaunch_eq_iff (env : Surroundings) (call : LaunchCall) (proxyId sessionId : Text)
    (routes : List AppRoute) (hfresh : ∀ r ∈ routes, r.sessionId ≠ some sessionId) :
    failedLaunch env call proxyId false sessionId routes = routes ↔
      RollbackExact env call proxyId routes := by
  by_cases hproxy : proxyId = []
  · refine iff_of_true ?_ (.inl hproxy)
    cases call <;> simp [failedLaunch, initialRouting, resolveInitialRoutingStatus,
      resolveInitialRoutingStatusForTarget, hproxy]
  cases hready : env.backend.ready with
  | false =>
    refine iff_of_true ?_ (.inr (.inl hready))
    cases call with
    | generic exePath direct =>
      cases direct <;> simp [failedLaunch, initialRouting, resolveInitialRoutingStatus, hproxy,
        hready, RoutingStatus.isProxifyre]
    | target target =>
      simp [failedLaunch, initialRouting, resolveInitialRoutingStatusForTarget, hproxy, hready,
        RoutingStatus.isProxifyre]
  | true =>
    cases call with
    | generic exePath direct =>
      rw [failedLaunch_generic_eq_iff hproxy hready]
      simp only [RollbackExact, hproxy, hready, Bool.true_eq_false, false_or]
    | target target =>
      rw [failedLaunch_target_eq_iff hproxy hready hfresh]
      simp only [RollbackExact, hproxy, hready, Bool.true_eq_false, false_or]

def ipcBackend : Surroundings where
  rt := plainRuntime
  backend := ⟨true, .running, true, ["p1".toList]⟩
  write := ⟨true, true, fun _ _ => none, 1⟩
  rewrite := ⟨true, true, fun _ _ => none, 2⟩

theorem failedLaunch_of_unrouted :
    failedLaunch ipcBackend (.generic "C:\\apps\\note.exe".toList false) "p1".toList false
      "8f00d1e2".toList [{ exePath := "C:\\apps\\chat.exe".toList, proxyId := "p1".toList }] =
      [{ exePath := "C:\\apps\\chat.exe".toList, proxyId := "p1".toList }] :=
  (failedLaunch_eq_iff ipcBackend _ _ _ _ (by decide)).mpr
    (.inr (.inr (.inr (.inr ⟨by decide, .inr (by unfold CachesKept; decide)⟩))))

/-- The rollback takes the saved route of the same executable. -/
theorem failedLaunch_removes_persistent_route :
    ¬ ∀ (env : Surroundings) (call : LaunchCall) (proxyId sessionId : Text)
        (routes : List AppRoute), (∀ r ∈ routes, r.sessionId ≠ some sessionId) →
      failedLaunch env call proxyId false sessionId routes = routes := by
  intro h
  have hrun := h ipcBackend (.generic "C:\\apps\\note.exe".toList false) "p1".toList
    "8f00d1e2".toList [{ exePath := "C:\\apps\\note.exe".toList, proxyId := "p1".toList }] (by decide)
  revert hrun
  decide

end ProxySwitch.FailedLaunches
