import Mathlib.Data.List.Nodup
import ProxySwitch.AppRoutes
import ProxySwitch.TransitionRuns

set_option autoImplicit false

namespace ProxySwitch.TemporaryRoutes
open AppRoutes KeyedLists RuntimeStrings TransitionRuns

abbrev Pair := Text × Text

structure TmpSession where
  id : Text
  exePath : Text
  proxyId : Text
  routingStatus : RoutingStatus
  ipcManaged : Bool

structure Manager where
  routes : List AppRoute
  live : List TmpSession
  ids : List Text

/-- A launch that succeeds, with the platform and the backend it finds and a second look at
    the pipe when the session is made; or the end of a session. -/
inductive Event
  | launch (call : LaunchCall) (proxyId sessionId : Text) (rt : Runtime) (backend : Backend)
      (write : ConfigWrite) (isIpcAvailable : Bool)
  | terminate (sessionId : Text) (rt : Runtime) (backend : Backend) (write : ConfigWrite)

/-- `CleanupSessionRoutes`; a managed session only sends `closeSession`. -/
def cleanupSessionRoutes (rt : Runtime) (backend : Backend) (write : ConfigWrite)
    (session : TmpSession) (routes : List AppRoute) : List AppRoute :=
  if session.ipcManaged then routes
  else match removeTmpRoutesForSession session.id routes with
    | (true, routes) => (writeConfig rt backend write routes).2
    | (false, routes) => routes

section Runs
variable (upper : Char → Char)

/-- Session ids are fresh, and the case folding is the same throughout. -/
def step (m : Manager) : Event → Option Manager
  | .launch call proxyId sessionId rt backend write isIpcAvailable =>
    match call.executable with
    | none => none
    | some exePath =>
      if sessionId = [] ∨ sessionId ∈ m.ids then none
      else
        let (routingStatus, _, routes) := initialRouting { rt with upper := upper } backend write
          call proxyId false sessionId m.routes
        some
          { routes := routes
            live :=
              { id := sessionId
                exePath := exePath
                proxyId := proxyId
                routingStatus := routingStatus
                ipcManaged := routingStatus == .routeSessionCreated && isIpcAvailable } :: m.live
            ids := sessionId :: m.ids }
  | .terminate sessionId rt backend write =>
    match m.live.find? (·.id == sessionId) with
    | none => none
    | some session => some
        { m with
          routes := cleanupSessionRoutes { rt with upper := upper } backend write session m.routes
          live := m.live.filter (·.id != sessionId) }

def pairOf (exePath proxyId : Text) : Pair := (exePath.map upper, proxyId)

def slot (route : AppRoute) : Pair × Bool := (pairOf upper route.exePath route.proxyId, route.isPersistent)

def HasTmp (m : Manager) (pair : Pair) : Prop := (pair, false) ∈ m.routes.map (slot upper)

def HasPersistent (m : Manager) (pair : Pair) : Prop := (pair, true) ∈ m.routes.map (slot upper)

def Needs (session : TmpSession) (pair : Pair) : Prop :=
  session.routingStatus.isProxifyre = true ∧ pairOf upper session.exePath session.proxyId = pair

def Owned (m : Manager) : Prop :=
  ∀ pair, HasTmp upper m pair ↔ ∃ session ∈ m.live, Needs upper session pair

def asksForRoute (call : LaunchCall) (proxyId : Text) (backend : Backend) : Bool :=
  (match call with
    | .generic _ direct => !direct
    | .target _ => true) && proxyId != [] && backend.ready

/-- A launch that asks for a route finds no persistent one, and if it finds none at all can make
    one. A managed session ends only while another session needs its route; any other
    session that asked for a route ends either as its last owner, the route being bound to it,
    or with the route bound to another one. -/
def KeepsOwned (m : Manager) : Event → Prop
  | .launch call proxyId _ rt backend _ _ =>
    ∀ exePath, call.executable = some exePath → asksForRoute call proxyId backend = true →
      ¬ HasPersistent upper m (pairOf upper exePath proxyId) ∧
        (¬ HasTmp upper m (pairOf upper exePath proxyId) → rt.tryResolveMsixIdentity exePath ≠ none)
  | .terminate sessionId _ _ _ =>
    ∀ session, m.live.find? (·.id == sessionId) = some session →
      session.routingStatus.isProxifyre = true →
        let shared := ∃ other ∈ m.live, other.id ≠ sessionId ∧
          Needs upper other (pairOf upper session.exePath session.proxyId)
        if session.ipcManaged then shared
        else (∀ r ∈ m.routes, slot upper r = (pairOf upper session.exePath session.proxyId, false) →
          r.sessionId = some sessionId) ↔ ¬ shared

variable {upper}

section Launch
variable {rt : Runtime} {backend : Backend} {write : ConfigWrite} {exePath proxyId sessionId : Text}
  {routes : List AppRoute}

theorem asksForRoute_eq_true {call : LaunchCall} (h : asksForRoute call proxyId backend = true) :
    proxyId ≠ [] ∧ backend.ready = true := by
  simp only [asksForRoute, Bool.and_eq_true, bne_iff_ne] at h
  exact ⟨h.1.2, h.2⟩

theorem initialRouting_of_not_asks {call : LaunchCall}
    (h : asksForRoute call proxyId backend = false) :
    (initialRouting rt backend write call proxyId false sessionId routes).1.isProxifyre = false ∧
      (initialRouting rt backend write call proxyId false sessionId routes).2.2 = routes := by
  by_cases hproxy : proxyId = []
  · cases call <;> simp [initialRouting, resolveInitialRoutingStatus,
      resolveInitialRoutingStatusForTarget, hproxy, RoutingStatus.isProxifyre]
  cases hready : backend.ready with
  | false =>
    cases call with
    | generic exePath direct =>
      cases direct <;> simp [initialRouting, resolveInitialRoutingStatus, hproxy, hready,
        RoutingStatus.isProxifyre]
    | target target =>
      simp [initialRouting, resolveInitialRoutingStatusForTarget, hproxy, hready,
        RoutingStatus.isProxifyre]
  | true =>
    cases call with
    | generic exePath direct =>
      have hdirect : direct = true := by simpa [asksForRoute, hproxy, hready] using h
      simp [initialRouting, resolveInitialRoutingStatus, hdirect, RoutingStatus.isProxifyre]
    | target target => simp [asksForRoute, hproxy, hready] at h

theorem initialRouting_of_asks {call : LaunchCall} (hcall : call.executable = some exePath)
    (h : asksForRoute call proxyId backend = true) :
    ∃ onSuccess ipcManaged, onSuccess.isProxifyre = true ∧
      initialRouting rt backend write call proxyId false sessionId routes =
        writeRoute rt backend write onSuccess (ensureRoute rt exePath proxyId (routeSource false)
          false (some sessionId) ipcManaged routes) routes := by
  obtain ⟨hproxy, hready⟩ := asksForRoute_eq_true h
  cases call with
  | generic path direct =>
    have hdirect : direct = false := by simpa [asksForRoute, hproxy, hready] using h
    have hpath : path = exePath := by
      simp only [LaunchCall.executable] at hcall
      split at hcall
      · cases hcall
      · exact Option.some.inj hcall
    subst hpath
    cases hipc : backend.isIpcAvailable with
    | true =>
      exact ⟨.routeSessionCreated, true, rfl,
        by simp [initialRouting, resolveInitialRoutingStatus, hdirect, hproxy, hready, hipc]⟩
    | false =>
      exact ⟨.routeLaunching, false, rfl,
        by simp [initialRouting, resolveInitialRoutingStatus, hdirect, hproxy, hready, hipc]⟩
  | target target =>
    simp only [LaunchCall.executable] at hcall
    split at hcall
    · rename_i hexe
      obtain rfl := Option.some.inj hcall
      cases hipc : backend.isIpcAvailable with
      | true =>
        exact ⟨.routeSessionCreated, true, rfl, by
          simp [initialRouting, resolveInitialRoutingStatusForTarget, ensureTargetRoute, hexe,
            hproxy, hready, hipc]⟩
      | false =>
        exact ⟨.routeLaunching, false, rfl, by
          simp [initialRouting, resolveInitialRoutingStatusForTarget, hexe, hproxy, hready, hipc]⟩
    · cases hcall

theorem executable_ne_nil {call : LaunchCall} (hcall : call.executable = some exePath) :
    exePath ≠ [] := by
  cases call with
  | generic path direct =>
    simp only [LaunchCall.executable] at hcall
    split at hcall
    · cases hcall
    · exact Option.some.inj hcall ▸ ‹_›
  | target target =>
    simp only [LaunchCall.executable] at hcall
    split at hcall
    · rename_i hexe
      exact Option.some.inj hcall ▸ hexe.2
    · cases hcall

@[simp] theorem slot_refresh (route : AppRoute) :
    slot upper (write.refresh rt backend route) = slot upper route := by
  simp [slot]

@[simp] theorem slot_reuseRoute (ipcManaged : Bool) (route : AppRoute) :
    slot upper (reuseRoute false (some sessionId) ipcManaged route) = slot upper route := by
  simp [slot, reuseRoute]

@[simp] theorem slot_newExeRoute (source : Text) (ipcManaged : Bool) (msix : Option (Text × Text)) :
    slot upper (newExeRoute rt exePath proxyId source false (some sessionId) ipcManaged msix) =
      (pairOf upper exePath proxyId, false) := by
  cases msix <;> simp [slot, newExeRoute]

theorem matchesExe_iff (hupper : rt.upper = upper) (route : AppRoute) :
    matchesExe rt exePath proxyId route = true ↔
      (slot upper route).1 = pairOf upper exePath proxyId := by
  simp [matchesExe, equalsIgnoreCase, slot, pairOf, hupper]

theorem launch_routes (upper : Char → Char) (hupper : rt.upper = upper) {call : LaunchCall}
    (hcall : call.executable = some exePath) (h : asksForRoute call proxyId backend = true)
    {routes' : List AppRoute}
    (hroutes : (initialRouting rt backend write call proxyId false sessionId routes).2.2 = routes') :
    (∀ r' ∈ routes', (∃ r ∈ routes, slot upper r = slot upper r' ∧ r.sessionId = r'.sessionId) ∨
      (slot upper r').1 = pairOf upper exePath proxyId ∧ r'.sessionId = some sessionId) ∧
    ((∃ r ∈ routes, (slot upper r).1 = pairOf upper exePath proxyId) ∧
        routes'.map (slot upper) = routes.map (slot upper) ∨
      (∀ r ∈ routes, (slot upper r).1 ≠ pairOf upper exePath proxyId) ∧
        (rt.tryResolveMsixIdentity exePath = none ∧
          routes'.map (slot upper) = routes.map (slot upper) ∨
        rt.tryResolveMsixIdentity exePath ≠ none ∧
          routes'.map (slot upper) =
            routes.map (slot upper) ++ [(pairOf upper exePath proxyId, false)])) := by
  obtain ⟨onSuccess, ipcManaged, _, hrouting⟩ := initialRouting_of_asks hcall h
  rw [hrouting] at hroutes
  subst hroutes
  have hslots : ∀ l : List AppRoute, (l.map (write.refresh rt backend)).map (slot upper) =
      l.map (slot upper) := by
    intro l
    rw [List.map_map]
    exact List.map_congr_left fun r _ => slot_refresh r
  have hunmatched : (∀ r ∈ routes, matchesExe rt exePath proxyId r = false) →
      ∀ r ∈ routes, (slot upper r).1 ≠ pairOf upper exePath proxyId := by
    intro hnone r hr hpair
    have hmatch := (matchesExe_iff hupper r).mpr hpair
    rw [hnone r hr] at hmatch
    cases hmatch
  rcases ensureRoute_cases rt (executable_ne_nil hcall) (asksForRoute_eq_true h).1
    (routeSource false) false (some sessionId) ipcManaged routes with
    ⟨x, result, hx, hensure⟩ | ⟨hnone, ⟨hmsix, hensure⟩ | ⟨msix, result, hmsix, hensure⟩⟩
  · rw [hensure, writeRoute_some]
    refine ⟨fun r' hr' => ?_, .inl ⟨⟨x, List.mem_of_find?_eq_some hx,
      (matchesExe_iff hupper x).mp (List.find?_some hx)⟩, ?_⟩⟩
    · obtain ⟨y, hy, rfl⟩ := List.mem_map.mp hr'
      rcases mem_updateFirst hy with hold | ⟨z, hz, hmatch, rfl⟩
      · exact .inl ⟨y, hold, by simp⟩
      · exact .inr ⟨by simpa using (matchesExe_iff hupper z).mp hmatch, by simp⟩
    · rw [hslots]
      exact map_updateFirst fun r => slot_reuseRoute ipcManaged r
  · rw [hensure, writeRoute_none]
    exact ⟨fun r hr => .inl ⟨r, hr, rfl, rfl⟩, .inr ⟨hunmatched hnone, .inl ⟨hmsix, rfl⟩⟩⟩
  · rw [hensure, writeRoute_some]
    refine ⟨fun r' hr' => ?_, .inr ⟨hunmatched hnone, .inr ⟨by simp [hmsix], ?_⟩⟩⟩
    · obtain ⟨y, hy, rfl⟩ := List.mem_map.mp hr'
      rcases List.mem_append.mp hy with hold | hnew
      · exact .inl ⟨y, hold, by simp⟩
      · obtain rfl := List.mem_singleton.mp hnew
        exact .inr ⟨by simp, by simp⟩
    · rw [hslots, List.map_append, List.map_singleton, slot_newExeRoute]

theorem launch_status {call : LaunchCall} (hcall : call.executable = some exePath)
    {routing : RoutingStatus × Text × List AppRoute}
    (hrouting : initialRouting rt backend write call proxyId false sessionId routes = routing) :
    routing.1.isProxifyre = asksForRoute call proxyId backend := by
  subst hrouting
  cases h : asksForRoute call proxyId backend with
  | false => exact (initialRouting_of_not_asks h).1
  | true =>
    obtain ⟨onSuccess, ipcManaged, hstatus, hrouting⟩ := initialRouting_of_asks hcall h
    rw [hrouting]
    exact writeRoute_isProxifyre rt backend write onSuccess hstatus _ _

end Launch

variable (upper)

/-- No pair has both kinds of route; a temporary route is bound to a session that launched its
    pair, if that session still lives. -/
structure Inv (m : Manager) : Prop where
  oneKind : ∀ pair, HasTmp upper m pair → ¬ HasPersistent upper m pair
  bound : ∀ r ∈ m.routes, r.isPersistent = false → ∀ s ∈ m.live, r.sessionId = some s.id →
    Needs upper s (slot upper r).1
  known : ∀ r ∈ m.routes, r.isPersistent = false → ∀ id, r.sessionId = some id → id ∈ m.ids
  issued : ∀ s ∈ m.live, s.id ∈ m.ids ∧ s.id ≠ []
  distinct : (m.live.map TmpSession.id).Nodup

variable {upper}

theorem hasTmp_iff {m : Manager} {pair : Pair} :
    HasTmp upper m pair ↔ ∃ r ∈ m.routes, slot upper r = (pair, false) := List.mem_map

section Launched
variable {m : Manager} {call : LaunchCall} {proxyId sessionId exePath : Text} {rt : Runtime}
  {backend : Backend} {write : ConfigWrite} {isIpcAvailable : Bool} {t : Manager}

theorem step_launch (hstep : step upper m
      (.launch call proxyId sessionId rt backend write isIpcAvailable) = some t) :
    ∃ exePath routing, call.executable = some exePath ∧ sessionId ≠ [] ∧ sessionId ∉ m.ids ∧
      initialRouting { rt with upper := upper } backend write call proxyId false sessionId m.routes =
        routing ∧
      t =
        { routes := routing.2.2
          live :=
            { id := sessionId
              exePath := exePath
              proxyId := proxyId
              routingStatus := routing.1
              ipcManaged := routing.1 == .routeSessionCreated && isIpcAvailable } :: m.live
          ids := sessionId :: m.ids } := by
  simp only [step] at hstep
  split at hstep
  · cases hstep
  rename_i path hpath
  split at hstep
  · cases hstep
  rename_i hfresh
  rw [not_or] at hfresh
  exact ⟨path, _, hpath, hfresh.1, hfresh.2, rfl, (Option.some.inj hstep).symm⟩

theorem launch_rows (hstep : step upper m
      (.launch call proxyId sessionId rt backend write isIpcAvailable) = some t)
    (hexe : call.executable = some exePath) :
    ∀ r' ∈ t.routes,
      (∃ r ∈ m.routes, slot upper r = slot upper r' ∧ r.sessionId = r'.sessionId) ∨
      asksForRoute call proxyId backend = true ∧
        (slot upper r').1 = pairOf upper exePath proxyId ∧ r'.sessionId = some sessionId := by
  obtain ⟨path, routing, hpath, _, _, hrouting, rfl⟩ := step_launch hstep
  obtain rfl : path = exePath := Option.some.inj (hpath.symm.trans hexe)
  intro r' hr'
  cases hasks : asksForRoute call proxyId backend with
  | false =>
    have hsame : routing.2.2 = m.routes := hrouting ▸ (initialRouting_of_not_asks hasks).2
    exact .inl ⟨r', hsame ▸ hr', rfl, rfl⟩
  | true =>
    obtain ⟨hrows, _⟩ := launch_routes upper rfl hexe hasks
      (congrArg (fun routing => routing.2.2) hrouting)
    rcases hrows r' hr' with hold | hnew
    · exact .inl hold
    · exact .inr ⟨rfl, hnew⟩

theorem launch_slots (hstep : step upper m
      (.launch call proxyId sessionId rt backend write isIpcAvailable) = some t)
    (hexe : call.executable = some exePath) :
    let pair := pairOf upper exePath proxyId
    (asksForRoute call proxyId backend = true → (∀ kind, (pair, kind) ∉ m.routes.map (slot upper)) →
        rt.tryResolveMsixIdentity exePath = none) ∧
        t.routes.map (slot upper) = m.routes.map (slot upper) ∨
      asksForRoute call proxyId backend = true ∧
        (∀ kind, (pair, kind) ∉ m.routes.map (slot upper)) ∧
        rt.tryResolveMsixIdentity exePath ≠ none ∧
        t.routes.map (slot upper) = m.routes.map (slot upper) ++ [(pair, false)] := by
  obtain ⟨path, routing, hpath, _, _, hrouting, rfl⟩ := step_launch hstep
  obtain rfl : path = exePath := Option.some.inj (hpath.symm.trans hexe)
  cases hasks : asksForRoute call proxyId backend with
  | false =>
    have hsame : routing.2.2 = m.routes := hrouting ▸ (initialRouting_of_not_asks hasks).2
    exact .inl ⟨fun h => by simp at h, by rw [hsame]⟩
  | true =>
    have hnoSlot : (∀ r ∈ m.routes, (slot upper r).1 ≠ pairOf upper path proxyId) →
        ∀ kind, (pairOf upper path proxyId, kind) ∉ m.routes.map (slot upper) := by
      intro hnone kind hmem
      obtain ⟨r, hr, hslot⟩ := List.mem_map.mp hmem
      exact hnone r hr (congrArg Prod.fst hslot)
    obtain ⟨_, ⟨⟨r, hr, hpair⟩, hslots⟩ | ⟨hnone, ⟨hmsix, hslots⟩ | ⟨hmsix, hslots⟩⟩⟩ :=
      launch_routes upper rfl hexe hasks
        (congrArg (fun routing => routing.2.2) hrouting)
    · refine .inl ⟨fun _ hno => absurd (List.mem_map.mpr ⟨r, hr, ?_⟩) (hno r.isPersistent), hslots⟩
      exact Prod.ext hpair rfl
    · exact .inl ⟨fun _ _ => hmsix, hslots⟩
    · exact .inr ⟨rfl, hnoSlot hnone, hmsix, hslots⟩

theorem inv_launch (hm : Inv upper m) (hstep : step upper m
      (.launch call proxyId sessionId rt backend write isIpcAvailable) = some t) : Inv upper t := by
  obtain ⟨exePath, routing, hexe, hname, hfresh, hrouting, ht⟩ := step_launch hstep
  have hstatus := launch_status hexe hrouting
  have hrows := launch_rows hstep hexe
  have hslots := launch_slots hstep hexe
  have hlive : ∀ s ∈ m.live, s.id ≠ sessionId := fun s hs heq =>
    hfresh (heq ▸ (hm.issued s hs).1)
  refine ⟨?_, ?_, ?_, ?_, ?_⟩
  · intro pair
    unfold HasTmp HasPersistent
    rcases hslots with ⟨_, hsame⟩ | ⟨_, hno, _, happend⟩
    · rw [hsame]
      exact hm.oneKind pair
    · rw [happend]
      intro htmp hpersistent
      have hpersistent' : (pair, true) ∈ m.routes.map (slot upper) := by simpa using hpersistent
      rcases List.mem_append.mp htmp with hold | hnew
      · exact hm.oneKind pair hold hpersistent'
      · obtain rfl : pair = pairOf upper exePath proxyId := by simpa using hnew
        exact hno true hpersistent'
  · intro r' hr' htmp s hs hbound
    subst ht
    rcases List.mem_cons.mp hs with rfl | hold
    · rcases hrows r' hr' with ⟨r, hr, hslot, hid⟩ | ⟨hasks, hpair, _⟩
      · -- an old route cannot name the fresh id
        have hkind : r.isPersistent = false := (congrArg Prod.snd hslot).trans htmp
        exact absurd (hm.known r hr hkind sessionId (hid.trans hbound)) hfresh
      · exact ⟨hstatus.trans hasks, hpair.symm⟩
    · rcases hrows r' hr' with ⟨r, hr, hslot, hid⟩ | ⟨_, _, hid⟩
      · have hkind : r.isPersistent = false := (congrArg Prod.snd hslot).trans htmp
        rw [← hslot]
        exact hm.bound r hr hkind s hold (hid.trans hbound)
      · exact absurd (Option.some.inj (hbound.symm.trans hid)) (hlive s hold)
  · intro r' hr' htmp id hid
    subst ht
    rcases hrows r' hr' with ⟨r, hr, hslot, hid'⟩ | ⟨_, _, hid'⟩
    · have hkind : r.isPersistent = false := (congrArg Prod.snd hslot).trans htmp
      exact List.mem_cons_of_mem _ (hm.known r hr hkind id (hid'.trans hid))
    · exact Option.some.inj (hid'.symm.trans hid) ▸ List.mem_cons_self
  · intro s hs
    subst ht
    rcases List.mem_cons.mp hs with rfl | hold
    · exact ⟨List.mem_cons_self, hname⟩
    · exact ⟨List.mem_cons_of_mem _ (hm.issued s hold).1, (hm.issued s hold).2⟩
  · subst ht
    refine List.nodup_cons.mpr ⟨?_, hm.distinct⟩
    intro hmem
    obtain ⟨s, hs, hid⟩ := List.mem_map.mp hmem
    exact hlive s hs hid

theorem owned_launch_iff (hm : Inv upper m) (howned : Owned upper m) (hstep : step upper m
      (.launch call proxyId sessionId rt backend write isIpcAvailable) = some t) :
    Owned upper t ↔
      KeepsOwned upper m (.launch call proxyId sessionId rt backend write isIpcAvailable) := by
  obtain ⟨exePath, routing, hexe, hname, hfresh, hrouting, ht⟩ := step_launch hstep
  have hstatus := launch_status hexe hrouting
  have hslots := launch_slots hstep hexe
  have hneeded : ∀ pair, (∃ s ∈ t.live, Needs upper s pair) ↔
      asksForRoute call proxyId backend = true ∧ pairOf upper exePath proxyId = pair ∨
        HasTmp upper m pair := by
    intro pair
    rw [howned pair, ht]
    simp [Needs, hstatus]
  constructor
  · intro h path hpath hasks
    obtain rfl : path = exePath := Option.some.inj (hpath.symm.trans hexe)
    have htmp : HasTmp upper t (pairOf upper path proxyId) :=
      (h _).mpr ((hneeded _).mpr (.inl ⟨hasks, rfl⟩))
    rcases hslots with ⟨_, hsame⟩ | ⟨_, hno, hmsix, _⟩
    · have hold : HasTmp upper m (pairOf upper path proxyId) := by
        unfold HasTmp at htmp ⊢
        rwa [hsame] at htmp
      exact ⟨hm.oneKind _ hold, fun hnone => absurd hold hnone⟩
    · exact ⟨hno true, fun _ => hmsix⟩
  · intro hkeeps pair
    rw [hneeded pair]
    rcases hslots with ⟨hnoRoute, hsame⟩ | ⟨hasks, hno, _, happend⟩
    · have htmp : HasTmp upper t pair ↔ HasTmp upper m pair := by
        unfold HasTmp
        rw [hsame]
      rw [htmp]
      refine ⟨.inr, ?_⟩
      rintro (⟨hasks, rfl⟩ | hold)
      · -- a route that was asked for and not made would have to be one of two kinds
        by_contra hnone
        obtain ⟨hpersistent, hmsix⟩ := hkeeps exePath hexe hasks
        refine hmsix hnone (hnoRoute hasks fun kind => ?_)
        cases kind
        · exact hnone
        · exact hpersistent
      · exact hold
    · unfold HasTmp
      rw [happend]
      simp [hasks, eq_comm, or_comm]

end Launched

section Terminated
variable {m t : Manager} {sessionId : Text} {rt : Runtime} {backend : Backend} {write : ConfigWrite}

theorem step_terminate (hstep : step upper m (.terminate sessionId rt backend write) = some t) :
    ∃ session, m.live.find? (·.id == sessionId) = some session ∧ session.id = sessionId ∧
      t =
        { m with
          routes := cleanupSessionRoutes { rt with upper := upper } backend write session m.routes
          live := m.live.filter (·.id != sessionId) } := by
  simp only [step] at hstep
  split at hstep
  · cases hstep
  · rename_i session hsession
    exact ⟨session, hsession, by simpa using List.find?_some hsession, (Option.some.inj hstep).symm⟩

def boundTo (sessionId : Text) (r : AppRoute) : Bool :=
  !r.isPersistent && r.sessionId == some sessionId

/-- The rows that the end of a session leaves: all for a managed session, else those that are
    not bound to it. -/
theorem cleanup_rows (upper : Char → Char) (rt : Runtime) (backend : Backend) (write : ConfigWrite)
    (session : TmpSession) (hname : session.id ≠ []) (routes : List AppRoute) :
    ∃ f : AppRoute → AppRoute, (∀ r, slot upper (f r) = slot upper r ∧ (f r).sessionId = r.sessionId) ∧
      cleanupSessionRoutes rt backend write session routes =
        (if session.ipcManaged then routes else routes.filter (!boundTo session.id ·)).map f := by
  unfold cleanupSessionRoutes
  split
  · exact ⟨id, fun _ => ⟨rfl, rfl⟩, (List.map_id _).symm⟩
  · simp only [removeTmpRoutesForSession, hname, if_false]
    cases routes.any fun r => !r.isPersistent && r.sessionId == some session.id with
    | true => exact ⟨write.refresh rt backend, fun r => ⟨by simp [slot], by simp⟩, rfl⟩
    | false => exact ⟨id, fun _ => ⟨rfl, rfl⟩, (List.map_id _).symm⟩

theorem terminate_rows (hm : Inv upper m)
    (hstep : step upper m (.terminate sessionId rt backend write) = some t) :
    ∃ session, m.live.find? (·.id == sessionId) = some session ∧ session.id = sessionId ∧
      t.live = m.live.filter (·.id != sessionId) ∧ t.ids = m.ids ∧
      (∀ r' ∈ t.routes, ∃ r ∈ m.routes, slot upper r = slot upper r' ∧ r.sessionId = r'.sessionId) ∧
      (t.routes.map (slot upper)).Sublist (m.routes.map (slot upper)) ∧
      ∀ pair, HasTmp upper t pair ↔ ∃ r ∈ m.routes, slot upper r = (pair, false) ∧
        (session.ipcManaged = false → r.sessionId ≠ some sessionId) := by
  obtain ⟨session, hsession, hid, rfl⟩ := step_terminate hstep
  have hname := (hm.issued session (List.mem_of_find?_eq_some hsession)).2
  obtain ⟨f, hf, hclean⟩ := cleanup_rows upper { rt with upper := upper } backend write
    session hname m.routes
  have hkept : ∀ r, r ∈ (if session.ipcManaged then m.routes
      else m.routes.filter (!boundTo session.id ·)) ↔
        r ∈ m.routes ∧ (session.ipcManaged = false → boundTo session.id r = false) := by
    intro r
    cases session.ipcManaged <;> simp
  refine ⟨session, hsession, hid, rfl, rfl, ?_, ?_, ?_⟩
  · intro r' hr'
    rw [hclean] at hr'
    obtain ⟨r, hr, rfl⟩ := List.mem_map.mp hr'
    exact ⟨r, ((hkept r).mp hr).1, (hf r).1.symm, (hf r).2.symm⟩
  · have hslots : slot upper ∘ f = slot upper := funext fun r => (hf r).1
    rw [hclean, List.map_map, hslots]
    refine List.Sublist.map _ ?_
    split
    · exact List.Sublist.refl _
    · exact List.filter_sublist
  · intro pair
    rw [hasTmp_iff, hclean]
    constructor
    · rintro ⟨r', hr', hslot⟩
      obtain ⟨r, hr, rfl⟩ := List.mem_map.mp hr'
      obtain ⟨hmem, hunbound⟩ := (hkept r).mp hr
      rw [(hf r).1] at hslot
      have htmp : r.isPersistent = false := congrArg Prod.snd hslot
      refine ⟨r, hmem, hslot, fun hipc => ?_⟩
      simpa [boundTo, htmp, hid] using hunbound hipc
    · rintro ⟨r, hr, hslot, hunbound⟩
      have htmp : r.isPersistent = false := congrArg Prod.snd hslot
      refine ⟨f r, List.mem_map_of_mem ((hkept r).mpr ⟨hr, fun hipc => ?_⟩), (hf r).1.trans hslot⟩
      simpa [boundTo, htmp, hid] using hunbound hipc

theorem inv_terminate (hm : Inv upper m)
    (hstep : step upper m (.terminate sessionId rt backend write) = some t) : Inv upper t := by
  obtain ⟨session, _, _, hlive, hids, hrows, hslots, _⟩ := terminate_rows hm hstep
  refine ⟨?_, ?_, ?_, ?_, ?_⟩
  · intro pair htmp hpersistent
    exact hm.oneKind pair (hslots.subset htmp) (hslots.subset hpersistent)
  · intro r' hr' htmp s hs hbound
    obtain ⟨r, hr, hslot, hid⟩ := hrows r' hr'
    rw [hlive] at hs
    rw [← hslot]
    exact hm.bound r hr ((congrArg Prod.snd hslot).trans htmp) s (List.mem_of_mem_filter hs)
      (hid.trans hbound)
  · intro r' hr' htmp id hid
    obtain ⟨r, hr, hslot, hid'⟩ := hrows r' hr'
    rw [hids]
    exact hm.known r hr ((congrArg Prod.snd hslot).trans htmp) id (hid'.trans hid)
  · intro s hs
    rw [hlive] at hs
    rw [hids]
    exact hm.issued s (List.mem_of_mem_filter hs)
  · rw [hlive]
    exact hm.distinct.sublist (List.filter_sublist.map _)

theorem owned_terminate_iff (hm : Inv upper m) (howned : Owned upper m)
    (hstep : step upper m (.terminate sessionId rt backend write) = some t) :
    Owned upper t ↔ KeepsOwned upper m (.terminate sessionId rt backend write) := by
  obtain ⟨session, hfind, hid, hlive, _, _, _, htmp⟩ := terminate_rows hm hstep
  have hmem := List.mem_of_find?_eq_some hfind
  have hothers : ∀ pair, (∃ s ∈ t.live, Needs upper s pair) ↔
      ∃ other ∈ m.live, other.id ≠ sessionId ∧ Needs upper other pair := by
    intro pair
    rw [hlive]
    simp [and_assoc]
  -- of the other pairs nothing changes
  have hother : ∀ pair, ¬ Needs upper session pair →
      (HasTmp upper t pair ↔ ∃ s ∈ t.live, Needs upper s pair) := by
    intro pair hnot
    rw [htmp pair, hothers pair]
    constructor
    · rintro ⟨r, hr, hslot, _⟩
      obtain ⟨s, hs, hneeds⟩ := (howned pair).mp (hasTmp_iff.mpr ⟨r, hr, hslot⟩)
      refine ⟨s, hs, fun heq => ?_, hneeds⟩
      have hsame : s = session :=
        List.inj_on_of_nodup_map hm.distinct hs hmem (heq.trans hid.symm)
      exact hnot (hsame ▸ hneeds)
    · rintro ⟨s, hs, _, hneeds⟩
      obtain ⟨r, hr, hslot⟩ := hasTmp_iff.mp ((howned pair).mpr ⟨s, hs, hneeds⟩)
      refine ⟨r, hr, hslot, fun _ hbound => hnot ?_⟩
      have hown := hm.bound r hr (congrArg Prod.snd hslot) session hmem (hid.symm ▸ hbound)
      rwa [hslot] at hown
  by_cases hrouted : session.routingStatus.isProxifyre = true
  · -- the pair of the session decides
    have hpair : ∀ pair, Needs upper session pair ↔
        pairOf upper session.exePath session.proxyId = pair := fun pair =>
      ⟨fun h => h.2, fun h => ⟨hrouted, h⟩⟩
    have hreduce : Owned upper t ↔
        (HasTmp upper t (pairOf upper session.exePath session.proxyId) ↔
          ∃ s ∈ t.live, Needs upper s (pairOf upper session.exePath session.proxyId)) := by
      refine ⟨fun h => h _, fun h pair => ?_⟩
      by_cases hp : pairOf upper session.exePath session.proxyId = pair
      · exact hp ▸ h
      · exact hother pair fun hneeds => hp hneeds.2
    obtain ⟨r₀, hr₀, hslot₀⟩ := hasTmp_iff.mp
      ((howned (pairOf upper session.exePath session.proxyId)).mpr ⟨session, hmem, hrouted, rfl⟩)
    have hkeeps : KeepsOwned upper m (.terminate sessionId rt backend write) ↔
        let shared := ∃ other ∈ m.live, other.id ≠ sessionId ∧
          Needs upper other (pairOf upper session.exePath session.proxyId)
        if session.ipcManaged then shared
        else (∀ r ∈ m.routes, slot upper r = (pairOf upper session.exePath session.proxyId, false) →
          r.sessionId = some sessionId) ↔ ¬ shared := by
      refine ⟨fun h => h session hfind hrouted, fun h other hfind' _ => ?_⟩
      obtain rfl : session = other := Option.some.inj (hfind.symm.trans hfind')
      exact h
    rw [hreduce, htmp, hothers, hkeeps]
    cases session.ipcManaged with
    | true =>
      have hthere : ∃ r ∈ m.routes,
          slot upper r = (pairOf upper session.exePath session.proxyId, false) := ⟨r₀, hr₀, hslot₀⟩
      simp [hthere]
    | false =>
      have hleft : (∃ r ∈ m.routes,
          slot upper r = (pairOf upper session.exePath session.proxyId, false) ∧
            r.sessionId ≠ some sessionId) ↔
          ¬ ∀ r ∈ m.routes, slot upper r = (pairOf upper session.exePath session.proxyId, false) →
            r.sessionId = some sessionId := by
        simp
      simp only [forall_const, hleft]
      exact not_iff_comm.trans ⟨Iff.symm, Iff.symm⟩
  · refine iff_of_true (fun pair => hother pair fun h => hrouted h.1) ?_
    intro other hfind' hneeds
    obtain rfl : session = other := Option.some.inj (hfind.symm.trans hfind')
    exact absurd hneeds hrouted

end Terminated

def start (routes : List AppRoute) : Manager := ⟨routes, [], []⟩

theorem not_hasTmp_start {routes : List AppRoute} (h : ∀ r ∈ routes, r.isPersistent = true)
    (pair : Pair) : ¬ HasTmp upper (start routes) pair := by
  intro htmp
  obtain ⟨r, hr, hslot⟩ := hasTmp_iff.mp htmp
  have hkind : r.isPersistent = false := congrArg Prod.snd hslot
  rw [h r hr] at hkind
  cases hkind

theorem inv_start {routes : List AppRoute} (h : ∀ r ∈ routes, r.isPersistent = true) :
    Inv upper (start routes) where
  oneKind pair htmp := absurd htmp (not_hasTmp_start h pair)
  bound _ _ _ s hs := by cases hs
  known r hr htmp := by rw [h r hr] at htmp; cases htmp
  issued s hs := by cases hs
  distinct := List.nodup_nil

theorem owned_start {routes : List AppRoute} (h : ∀ r ∈ routes, r.isPersistent = true) :
    Owned upper (start routes) := by
  intro pair
  exact iff_of_false (not_hasTmp_start h pair) (by simp [start])

/-- Temporary routes and live sessions agree throughout a run exactly when its launches find no
    persistent route, its managed sessions end only while their route is still needed, and its
    other sessions end either as the last owner that their route names, or as another one. -/
theorem always_owned_iff (upper : Char → Char) (routes : List AppRoute) (events : List Event)
    (h : ∀ r ∈ routes, r.isPersistent = true) :
    Always (step upper) (Owned upper) (start routes) events ↔
      Meets (step upper) (KeepsOwned upper) (start routes) events := by
  refine always_iff_meets (I := Inv upper) ?_ ?_ events (inv_start h) (owned_start h)
  · intro m event t hm hstep
    cases event with
    | launch call proxyId sessionId rt backend write isIpcAvailable => exact inv_launch hm hstep
    | terminate sessionId rt backend write => exact inv_terminate hm hstep
  · intro m event t hm howned hstep
    cases event with
    | launch call proxyId sessionId rt backend write isIpcAvailable =>
      exact owned_launch_iff hm howned hstep
    | terminate sessionId rt backend write => exact owned_terminate_iff hm howned hstep

end Runs

def launchNote (sessionId : Text) (isIpcAvailable : Bool) : Event :=
  .launch (.generic "C:\\apps\\note.exe".toList false) "p1".toList sessionId plainRuntime
    ⟨true, .running, isIpcAvailable, ["p1".toList]⟩ ⟨true, true, fun _ _ => none, 1⟩ isIpcAvailable

def endSession (sessionId : Text) : Event :=
  .terminate sessionId plainRuntime ⟨true, .running, true, ["p1".toList]⟩
    ⟨true, true, fun _ _ => none, 2⟩

theorem always_owned_legacy : Always (step Char.toUpper) (Owned Char.toUpper) (start [])
    [launchNote "8f00d1e2".toList false, endSession "8f00d1e2".toList] := by
  refine (always_owned_iff Char.toUpper [] _ (by simp)).mpr
    ((meets_cons rfl).mpr ⟨fun exePath hexe _ => ⟨by simp [HasPersistent, start], fun _ => ?_⟩,
      (meets_cons rfl).mpr ⟨fun session hfind _ => ?_, trivial⟩⟩)
  · exact Option.some_ne_none none
  · obtain rfl := Option.some.inj hfind
    refine iff_of_true (fun r hr _ => ?_) ?_
    · exact List.mem_singleton.mp hr ▸ rfl
    · rintro ⟨other, hother, hne, _⟩
      exact hne (List.mem_singleton.mp hother ▸ rfl)

theorem managed_session_leaves_route :
    ¬ ∀ (upper : Char → Char) (routes : List AppRoute) (events : List Event),
      (∀ r ∈ routes, r.isPersistent = true) →
        Always (step upper) (Owned upper) (start routes) events := by
  intro h
  have hrun := h Char.toUpper [] [launchNote "8f00d1e2".toList true, endSession "8f00d1e2".toList]
    (by simp)
  have hend := (always_iff_reached _ _).mp hrun _ [] _ (List.append_nil _).symm rfl
  obtain ⟨session, hsession, _⟩ :=
    (hend (pairOf Char.toUpper "C:\\apps\\note.exe".toList "p1".toList)).mp (by unfold HasTmp; decide)
  cases hsession

end ProxySwitch.TemporaryRoutes
