import ProxySwitch.KeyedLists
import ProxySwitch.RuntimeStrings

set_option autoImplicit false

namespace ProxySwitch.AppRoutes
open KeyedLists RuntimeStrings

inductive LaunchKind
  | exe
  | shortcut
  | appUserModelId
  | other (name : Text)
  deriving DecidableEq

inductive MatchKind
  | path
  | processName
  | msixPackage
  | appUserModelId
  | other (name : Text)
  deriving DecidableEq

def MatchKind.text : MatchKind → Text
  | .path => "path".toList
  | .processName => "process-name".toList
  | .msixPackage => "msix-package".toList
  | .appUserModelId => "app-user-model-id".toList
  | .other name => name

structure AppRoute where
  id : Text := []
  name : Text := []
  exePath : Text := []
  processName : Text := []
  proxyId : Text := []
  enabled : Bool := true
  isPersistent : Bool := true
  source : Text := "user".toList
  sessionId : Option Text := none
  matchKind : MatchKind := .path
  packageFamilyName : Text := []
  packageRelativeExePath : Text := []
  resolvedExePath : Text := []
  resolvedAt : Option ℕ := none
  launchKind : LaunchKind := .exe
  appUserModelId : Text := []
  shortcutPath : Text := []
  arguments : Text := []
  workingDirectory : Text := []
  ipcManaged : Bool := false
  deriving DecidableEq

structure LaunchTarget where
  launchKind : LaunchKind := .exe
  displayName : Text := []
  exePath : Text := []
  processName : Text := []
  appUserModelId : Text := []
  packageFamilyName : Text := []
  packageRelativeExePath : Text := []
  shortcutPath : Text := []
  arguments : Text := []
  workingDirectory : Text := []
  deriving DecidableEq

/-- What the code takes from its platform. `tryResolveMsixIdentity` may throw (`none`) and
    `newGuid` is the suffix of the identifiers that this call makes. -/
structure Runtime where
  upper : Char → Char
  getFileName : Text → Text
  getFileNameWithoutExtension : Text → Text
  fileExists : Text → Bool
  tryResolveMsixIdentity : Text → Option (Option (Text × Text))
  tryDiscoverMsixExePath : Text → Option Text
  newGuid : Text

def afterLastBackslash (path : Text) : Text := path.rtakeWhile (· ≠ '\\')

def plainRuntime : Runtime where
  upper := Char.toUpper
  getFileName := afterLastBackslash
  getFileNameWithoutExtension path := (afterLastBackslash path).takeWhile (· ≠ '.')
  fileExists path := path = "C:\\apps\\note.exe".toList
  tryResolveMsixIdentity _ := some none
  tryDiscoverMsixExePath _ := none
  newGuid := "0a1b2c".toList

inductive BackendState
  | disabled
  | notConfigured
  | exeMissing
  | serviceNotInstalled
  | stopped
  | running
  deriving DecidableEq

/-- The backend as one call finds it; `configured` is false when there is none, or when it is
    not an enabled `proxifyre` one. -/
structure Backend where
  configured : Bool
  state : BackendState
  isIpcAvailable : Bool
  proxyIds : List Text

/-- One call of `WriteConfig`: whether it comes to build the new content, whether it ends
    without an exception, and what the resolution of package paths finds. -/
structure ConfigWrite where
  built : Bool
  written : Bool
  resolveMsixPath : Text → Text → Option Text
  now : ℕ

def equalsIgnoreCase (upper : Char → Char) (a b : Text) : Bool := a.map upper == b.map upper

section Identity
variable (rt : Runtime)

def normalizeProcessName (name : Text) : Text :=
  if name = [] then []
  else
    let trimmed := trimWhiteSpace name
    if equalsIgnoreCase rt.upper (trimmed.drop (trimmed.length - 4)) ".exe".toList then trimmed
    else trimmed ++ ".exe".toList

def getStableRouteKey (route : AppRoute) : Text :=
  let identity := match route.matchKind with
    | .msixPackage => route.packageFamilyName ++ '/' :: route.packageRelativeExePath
    | .appUserModelId => route.appUserModelId
    | .processName => normalizeProcessName rt route.processName
    | _ => route.exePath
  route.matchKind.text ++ ':' :: route.proxyId ++ ':' :: identity

def cacheResolution (write : ConfigWrite) (route : AppRoute) (path : Text) : AppRoute :=
  { route with resolvedExePath := path, resolvedAt := some write.now }

def resolveByPackage (write : ConfigWrite) (route : AppRoute) : Text × AppRoute :=
  match write.resolveMsixPath route.packageFamilyName route.packageRelativeExePath with
  | some path =>
    if path = [] then (normalizeProcessName rt route.processName, route)
    else (path, cacheResolution write route path)
  | none => (normalizeProcessName rt route.processName, route)

def resolveBackendAppName (write : ConfigWrite) (route : AppRoute) : Text × AppRoute :=
  match route.matchKind with
  | .msixPackage => resolveByPackage rt write route
  | .appUserModelId =>
    if route.packageFamilyName ≠ [] ∧ route.packageRelativeExePath ≠ [] then
      resolveByPackage rt write route
    else (normalizeProcessName rt route.processName, route)
  | .processName => (normalizeProcessName rt route.processName, route)
  | _ =>
    if route.exePath ≠ [] ∧ rt.fileExists route.exePath then (route.exePath, route)
    else (normalizeProcessName rt route.processName, route)

theorem resolveByPackage_route (write : ConfigWrite) (route : AppRoute) :
    (resolveByPackage rt write route).2 = route ∨
      ∃ path, (resolveByPackage rt write route).2 = cacheResolution write route path := by
  unfold resolveByPackage
  cases write.resolveMsixPath route.packageFamilyName route.packageRelativeExePath with
  | none => exact .inl rfl
  | some path =>
    dsimp only
    split
    · exact .inl rfl
    · exact .inr ⟨path, rfl⟩

theorem resolveBackendAppName_route (write : ConfigWrite) (route : AppRoute) :
    (resolveBackendAppName rt write route).2 = route ∨
      ∃ path, (resolveBackendAppName rt write route).2 = cacheResolution write route path := by
  unfold resolveBackendAppName
  split
  · exact resolveByPackage_route rt write route
  · split
    · exact resolveByPackage_route rt write route
    · exact .inl rfl
  · exact .inl rfl
  · split <;> exact .inl rfl

end Identity

section Table
variable (rt : Runtime) (backend : Backend)

/-- What a call of `WriteConfig` does to one route: the legacy routes are resolved. -/
def ConfigWrite.refresh (write : ConfigWrite) (route : AppRoute) : AppRoute :=
  if write.built && route.enabled && !route.ipcManaged && backend.proxyIds.contains route.proxyId then
    (resolveBackendAppName rt write route).2
  else route

def writeConfig (write : ConfigWrite) (routes : List AppRoute) : Bool × List AppRoute :=
  (write.built && write.written, routes.map (write.refresh rt backend))

structure EnsureRouteResult where
  changed : Bool
  routeKey : Text

def reuseRoute (isPersistent : Bool) (sessionId : Option Text) (ipcManaged : Bool)
    (existing : AppRoute) : AppRoute :=
  let promoted : AppRoute :=
    if isPersistent && !existing.isPersistent then
      { existing with isPersistent := true, sessionId := none }
    else existing
  { promoted with
    enabled := true
    sessionId := if isPersistent then promoted.sessionId else sessionId
    ipcManaged := ipcManaged }

def matchesExe (exePath proxyId : Text) (route : AppRoute) : Bool :=
  equalsIgnoreCase rt.upper route.exePath exePath && route.proxyId == proxyId

def newExeRoute (exePath proxyId source : Text) (isPersistent : Bool) (sessionId : Option Text)
    (ipcManaged : Bool) (msix : Option (Text × Text)) : AppRoute :=
  let procName := rt.getFileName exePath
  let route : AppRoute :=
    { id := rt.getFileNameWithoutExtension exePath ++ '-' :: proxyId ++ '-' :: rt.newGuid
      name := procName ++ " via ".toList ++ proxyId
      exePath := exePath
      processName := procName
      proxyId := proxyId
      enabled := true
      isPersistent := isPersistent
      ipcManaged := ipcManaged
      source := source
      sessionId := if isPersistent then none else sessionId }
  match msix with
  | none => route
  | some (pfn, relExe) =>
    { route with
      matchKind := .msixPackage
      packageFamilyName := pfn
      packageRelativeExePath := relExe }

/-- `EnsureRoute` for an executable; `none` is an exception, which leaves the table alone. -/
def ensureRoute (exePath proxyId source : Text) (isPersistent : Bool) (sessionId : Option Text)
    (ipcManaged : Bool) (routes : List AppRoute) : Option (EnsureRouteResult × List AppRoute) :=
  if exePath = [] ∨ proxyId = [] then some (⟨false, []⟩, routes)
  else match routes.find? (matchesExe rt exePath proxyId) with
    | some existing =>
      let route := reuseRoute isPersistent sessionId ipcManaged existing
      some (⟨decide (route ≠ existing), getStableRouteKey rt route⟩,
        updateFirst (matchesExe rt exePath proxyId) (reuseRoute isPersistent sessionId ipcManaged)
          routes)
    | none =>
      (rt.tryResolveMsixIdentity exePath).map fun msix =>
        let route := newExeRoute rt exePath proxyId source isPersistent sessionId ipcManaged msix
        (⟨true, getStableRouteKey rt route⟩, routes ++ [route])

def lookupIdentity (target : LaunchTarget) : Text :=
  match target.launchKind with
  | .appUserModelId => target.appUserModelId
  | .shortcut => target.shortcutPath
  | _ => target.exePath

def matchesTarget (target : LaunchTarget) (proxyId : Text) (route : AppRoute) : Bool :=
  route.proxyId == proxyId && route.launchKind == target.launchKind &&
    lookupIdentity target != [] &&
    (route.appUserModelId == lookupIdentity target || route.shortcutPath == lookupIdentity target ||
      route.exePath == lookupIdentity target)

def newTargetRoute (target : LaunchTarget) (proxyId source : Text) (isPersistent : Bool)
    (sessionId : Option Text) (ipcManaged : Bool) : AppRoute :=
  let relExe :=
    if target.launchKind = .appUserModelId ∧ target.packageFamilyName ≠ [] ∧
        target.packageRelativeExePath = [] then
      (rt.tryDiscoverMsixExePath target.packageFamilyName).getD []
    else target.packageRelativeExePath
  { id := target.displayName ++ '-' :: proxyId ++ '-' :: rt.newGuid
    name := if target.displayName = [] then lookupIdentity target else target.displayName
    proxyId := proxyId
    enabled := true
    isPersistent := isPersistent
    ipcManaged := ipcManaged
    source := source
    sessionId := if isPersistent then none else sessionId
    launchKind := target.launchKind
    appUserModelId := target.appUserModelId
    packageFamilyName := target.packageFamilyName
    packageRelativeExePath := relExe
    exePath := target.exePath
    processName := target.processName
    shortcutPath := target.shortcutPath
    arguments := target.arguments
    workingDirectory := target.workingDirectory
    matchKind :=
      if target.launchKind = .appUserModelId ∨ target.packageFamilyName ≠ [] then .appUserModelId
      else if target.processName ≠ [] then .processName
      else .path }

def ensureTargetRoute (target : LaunchTarget) (proxyId source : Text) (isPersistent : Bool)
    (sessionId : Option Text) (ipcManaged : Bool) (routes : List AppRoute) :
    Option (EnsureRouteResult × List AppRoute) :=
  if target.launchKind = .exe ∧ target.exePath ≠ [] then
    ensureRoute rt target.exePath proxyId source isPersistent sessionId ipcManaged routes
  else match routes.find? (matchesTarget target proxyId) with
    | some existing =>
      let route := reuseRoute isPersistent sessionId ipcManaged existing
      some (⟨decide (route ≠ existing), getStableRouteKey rt route⟩,
        updateFirst (matchesTarget target proxyId) (reuseRoute isPersistent sessionId ipcManaged)
          routes)
    | none =>
      let route := newTargetRoute rt target proxyId source isPersistent sessionId ipcManaged
      some (⟨true, getStableRouteKey rt route⟩, routes ++ [route])

def removeRouteByExe (exePath proxyId : Text) (routes : List AppRoute) : Bool × List AppRoute :=
  (routes.any (matchesExe rt exePath proxyId), routes.eraseP (matchesExe rt exePath proxyId))

def removeRoute (routeId : Text) (routes : List AppRoute) : Bool × List AppRoute :=
  (routes.any (·.id == routeId), routes.eraseP (·.id == routeId))

def removeTmpRoutesForSession (sessionId : Text) (routes : List AppRoute) : Bool × List AppRoute :=
  if sessionId = [] then (false, routes)
  else
    let bound (route : AppRoute) := !route.isPersistent && route.sessionId == some sessionId
    (routes.any bound, routes.filter (!bound ·))

end Table

inductive RoutingStatus
  | direct
  | externalRoutingRequired
  | routeSessionCreated
  | routeLaunching
  | routeFailed
  deriving DecidableEq

def RoutingStatus.isProxifyre : RoutingStatus → Bool
  | .routeSessionCreated | .routeLaunching | .routeFailed => true
  | .direct | .externalRoutingRequired => false

/-- Routing goes on only with an installed service, running or not. -/
def Backend.ready (backend : Backend) : Bool :=
  backend.configured && (backend.state == .stopped || backend.state == .running)

def routeSource (isPersistentRoute : Bool) : Text :=
  if isPersistentRoute then "drop-zone-set".toList else "drop-zone-tmp".toList

section Launch
variable (rt : Runtime) (backend : Backend) (write : ConfigWrite)

/-- The `try` block around `EnsureRoute` and `WriteConfig`. -/
def writeRoute (onSuccess : RoutingStatus) (ensured : Option (EnsureRouteResult × List AppRoute))
    (routes : List AppRoute) : RoutingStatus × Text × List AppRoute :=
  match ensured with
  | none => (.routeFailed, [], routes)
  | some (result, routes) =>
    match writeConfig rt backend write routes with
    | (true, routes) => (onSuccess, result.routeKey, routes)
    | (false, routes) => (.routeFailed, [], routes)

/-- `direct` is the mode `"direct"`; a missing proxy is the empty text. -/
def resolveInitialRoutingStatus (exePath : Text) (direct : Bool) (proxyId : Text)
    (isPersistentRoute : Bool) (sessionId : Text) (routes : List AppRoute) :
    RoutingStatus × Text × List AppRoute :=
  if direct ∨ proxyId = [] then (.direct, [], routes)
  else if !backend.ready then (.externalRoutingRequired, [], routes)
  else
    let source := routeSource isPersistentRoute
    if backend.isIpcAvailable then
      writeRoute rt backend write .routeSessionCreated
        (ensureRoute rt exePath proxyId source isPersistentRoute (some sessionId) true routes) routes
    else
      writeRoute rt backend write .routeLaunching
        (ensureRoute rt exePath proxyId source isPersistentRoute (some sessionId) false routes) routes

def resolveInitialRoutingStatusForTarget (target : LaunchTarget) (proxyId : Text)
    (isPersistentRoute : Bool) (sessionId : Text) (routes : List AppRoute) :
    RoutingStatus × Text × List AppRoute :=
  if proxyId = [] then (.direct, [], routes)
  else if !backend.ready then (.externalRoutingRequired, [], routes)
  else
    let source := routeSource isPersistentRoute
    if backend.isIpcAvailable then
      writeRoute rt backend write .routeSessionCreated
        (ensureTargetRoute rt target proxyId source isPersistentRoute (some sessionId) true routes)
        routes
    else if target.launchKind = .appUserModelId then
      -- a store app is never routed by name
      (.routeFailed, [], routes)
    else
      writeRoute rt backend write .routeLaunching
        (ensureRoute rt target.exePath proxyId source isPersistentRoute (some sessionId) false routes)
        routes

/-- The arguments in which the two launch functions differ; `direct` is the mode. -/
inductive LaunchCall
  | generic (exePath : Text) (direct : Bool)
  | target (target : LaunchTarget)

def LaunchCall.executable : LaunchCall → Option Text
  | .generic exePath _ => if exePath = [] then none else some exePath
  | .target app =>
    if app.launchKind = .exe ∧ app.exePath ≠ [] then some app.exePath else none

def LaunchCall.preflight (rt : Runtime) : LaunchCall → Bool
  | .generic exePath _ => exePath ≠ [] && rt.fileExists exePath
  | .target _ => true

def initialRouting (call : LaunchCall) (proxyId : Text) (isPersistentRoute : Bool)
    (sessionId : Text) (routes : List AppRoute) : RoutingStatus × Text × List AppRoute :=
  match call with
  | .generic exePath direct =>
    resolveInitialRoutingStatus rt backend write exePath direct proxyId isPersistentRoute sessionId
      routes
  | .target target =>
    resolveInitialRoutingStatusForTarget rt backend write target proxyId isPersistentRoute sessionId
      routes

end Launch

section Refresh
variable (rt : Runtime) (backend : Backend) (write : ConfigWrite) (route : AppRoute)

theorem refresh_eq : ∃ path time, write.refresh rt backend route =
    { route with resolvedExePath := path, resolvedAt := time } := by
  unfold ConfigWrite.refresh
  split
  · rcases resolveBackendAppName_route rt write route with h | ⟨path, h⟩
    · exact ⟨_, _, h⟩
    · exact ⟨_, _, h⟩
  · exact ⟨_, _, rfl⟩

@[simp] theorem refresh_id : (write.refresh rt backend route).id = route.id := by
  obtain ⟨path, time, h⟩ := refresh_eq rt backend write route
  rw [h]

@[simp] theorem refresh_sessionId :
    (write.refresh rt backend route).sessionId = route.sessionId := by
  obtain ⟨path, time, h⟩ := refresh_eq rt backend write route
  rw [h]

@[simp] theorem refresh_exePath : (write.refresh rt backend route).exePath = route.exePath := by
  obtain ⟨path, time, h⟩ := refresh_eq rt backend write route
  rw [h]

@[simp] theorem refresh_proxyId : (write.refresh rt backend route).proxyId = route.proxyId := by
  obtain ⟨path, time, h⟩ := refresh_eq rt backend write route
  rw [h]

@[simp] theorem refresh_isPersistent :
    (write.refresh rt backend route).isPersistent = route.isPersistent := by
  obtain ⟨path, time, h⟩ := refresh_eq rt backend write route
  rw [h]

@[simp] theorem refresh_launchKind :
    (write.refresh rt backend route).launchKind = route.launchKind := by
  obtain ⟨path, time, h⟩ := refresh_eq rt backend write route
  rw [h]

@[simp] theorem refresh_appUserModelId :
    (write.refresh rt backend route).appUserModelId = route.appUserModelId := by
  obtain ⟨path, time, h⟩ := refresh_eq rt backend write route
  rw [h]

@[simp] theorem matchesExe_refresh (exePath proxyId : Text) :
    matchesExe rt exePath proxyId (write.refresh rt backend route) =
      matchesExe rt exePath proxyId route := by
  simp only [matchesExe, refresh_exePath, refresh_proxyId]

end Refresh

section Ensure
variable {rt : Runtime} {exePath proxyId source sessionId : Text} {ipcManaged : Bool}
  {routes : List AppRoute}

@[simp] theorem matchesExe_reuseRoute (isPersistent : Bool) (sessionId : Option Text)
    (route : AppRoute) : matchesExe rt exePath proxyId
      (reuseRoute isPersistent sessionId ipcManaged route) = matchesExe rt exePath proxyId route := by
  cases isPersistent <;> cases hp : route.isPersistent <;> simp [matchesExe, reuseRoute, hp]

@[simp] theorem matchesExe_newExeRoute (isPersistent : Bool) (sessionId : Option Text)
    (msix : Option (Text × Text)) : matchesExe rt exePath proxyId
      (newExeRoute rt exePath proxyId source isPersistent sessionId ipcManaged msix) = true := by
  cases msix <;> simp [matchesExe, newExeRoute, equalsIgnoreCase]

@[simp] theorem reuseRoute_sessionId (route : AppRoute) :
    (reuseRoute false (some sessionId) ipcManaged route).sessionId = some sessionId := by
  simp [reuseRoute]

@[simp] theorem newExeRoute_sessionId (msix : Option (Text × Text)) :
    (newExeRoute rt exePath proxyId source false (some sessionId) ipcManaged msix).sessionId =
      some sessionId := by
  cases msix <;> simp [newExeRoute]

/-- `EnsureRoute` takes over the first route of the pair, or appends one, or throws before it
    changes anything. -/
theorem ensureRoute_cases (rt : Runtime) {exePath proxyId : Text} (hexe : exePath ≠ [])
    (hproxy : proxyId ≠ []) (source : Text) (isPersistent : Bool) (sessionId : Option Text)
    (ipcManaged : Bool) (routes : List AppRoute) :
    (∃ x result, routes.find? (matchesExe rt exePath proxyId) = some x ∧
      ensureRoute rt exePath proxyId source isPersistent sessionId ipcManaged routes =
        some (result, updateFirst (matchesExe rt exePath proxyId)
          (reuseRoute isPersistent sessionId ipcManaged) routes)) ∨
    (∀ r ∈ routes, matchesExe rt exePath proxyId r = false) ∧
      (rt.tryResolveMsixIdentity exePath = none ∧
        ensureRoute rt exePath proxyId source isPersistent sessionId ipcManaged routes = none ∨
      ∃ msix result, rt.tryResolveMsixIdentity exePath = some msix ∧
        ensureRoute rt exePath proxyId source isPersistent sessionId ipcManaged routes =
          some (result, routes ++
            [newExeRoute rt exePath proxyId source isPersistent sessionId ipcManaged msix])) := by
  simp only [ensureRoute, hexe, hproxy, or_self, if_false]
  cases hfind : routes.find? (matchesExe rt exePath proxyId) with
  | some x => exact .inl ⟨x, _, rfl, rfl⟩
  | none =>
    refine .inr ⟨find?_eq_none_iff_forall.mp hfind, ?_⟩
    cases hmsix : rt.tryResolveMsixIdentity exePath with
    | none => exact .inl ⟨rfl, rfl⟩
    | some msix => exact .inr ⟨msix, _, rfl, rfl⟩

end Ensure

section Write
variable (rt : Runtime) (backend : Backend) (write : ConfigWrite)

@[simp] theorem writeRoute_none (onSuccess : RoutingStatus) (routes : List AppRoute) :
    writeRoute rt backend write onSuccess none routes = (.routeFailed, [], routes) := rfl

theorem writeRoute_some (onSuccess : RoutingStatus) (result : EnsureRouteResult)
    (routes routes' : List AppRoute) :
    (writeRoute rt backend write onSuccess (some (result, routes')) routes).2.2 =
      routes'.map (write.refresh rt backend) := by
  unfold writeRoute writeConfig
  cases write.built && write.written <;> rfl

theorem writeRoute_isProxifyre (onSuccess : RoutingStatus) (h : onSuccess.isProxifyre = true)
    (ensured : Option (EnsureRouteResult × List AppRoute)) (routes : List AppRoute) :
    (writeRoute rt backend write onSuccess ensured routes).1.isProxifyre = true := by
  unfold writeRoute writeConfig
  cases ensured with
  | none => rfl
  | some ensured =>
    dsimp only
    cases write.built && write.written
    · rfl
    · exact h

end Write

end ProxySwitch.AppRoutes
