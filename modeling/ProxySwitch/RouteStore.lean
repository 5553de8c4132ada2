import ProxySwitch.IdentityMatching

set_option autoImplicit false

/-!
# The route table and its two files

Everything the running program does to `AppRoutes`, and the writes that bring them to
`proxyswitch.json` and `app-config.json`. A task of the source is a sequence of these steps, and
the steps of several tasks may follow one another in any order.
-/
namespace ProxySwitch.RouteStore
open AppRoutes IdentityMatching KeyedLists RuntimeStrings

structure FoundProcess where
  name : Text
  executablePath : Text
  deriving DecidableEq

structure RouteSession where
  proxyId : Text
  routeKey : Text
  appUserModelId : Text
  ipcManaged : Bool
  needsProcessConfirmation : Bool := false

section Updates
variable (rt : Runtime) (now : ℕ) (session : RouteSession) (found : FoundProcess)

def learnName (route : AppRoute) : AppRoute :=
  if found.name ≠ [] ∧ equalsIgnoreCase rt.upper route.processName found.name = false then
    { route with processName := found.name }
  else route

def learnPath (route : AppRoute) : AppRoute :=
  if found.executablePath ≠ [] ∧
      equalsIgnoreCase rt.upper route.resolvedExePath found.executablePath = false then
    { route with resolvedExePath := found.executablePath, resolvedAt := some now }
  else route

def ofSession (route : AppRoute) : Bool :=
  if session.routeKey ≠ [] then getStableRouteKey rt route == session.routeKey
  else route.appUserModelId == session.appUserModelId

def isStoreAppRoute (route : AppRoute) : Bool :=
  route.proxyId == session.proxyId && route.launchKind == .appUserModelId &&
    ofSession rt session route

/-- `UpdateStoreAppRouteFromCandidate`, up to its writes. -/
def updateStoreAppRouteFromCandidate (routes : List AppRoute) : List AppRoute :=
  if session.proxyId = [] then routes
  else updateFirst (isStoreAppRoute rt session) (learnPath rt now found ∘ learnName rt found) routes

def confirm (route : AppRoute) : AppRoute :=
  if found.name ≠ [] ∧ route.processName ≠ [] ∧
      equalsIgnoreCase rt.upper route.processName found.name = false then route
  else
    let named := if found.name ≠ [] ∧ route.processName = [] then
      { route with processName := found.name } else route
    if found.executablePath ≠ [] ∧ route.resolvedExePath = [] then
      { named with resolvedExePath := found.executablePath, resolvedAt := some now }
    else named

/-- `TryConfirmRouteFromProcess`, up to its writes. -/
def tryConfirmRouteFromProcess (routes : List AppRoute) : List AppRoute :=
  if session.ipcManaged || !session.needsProcessConfirmation then routes
  else updateFirst (fun route => route.proxyId == session.proxyId &&
    route.matchKind == .appUserModelId && ofSession rt session route) (confirm rt now found) routes

end Updates

inductive Edit
  | ensureRoute (rt : Runtime) (exePath proxyId source : Text) (isPersistent : Bool)
    (sessionId : Option Text) (ipcManaged : Bool)
  | ensureTargetRoute (rt : Runtime) (target : LaunchTarget) (proxyId source : Text)
    (isPersistent : Bool) (sessionId : Option Text) (ipcManaged : Bool)
  | removeRouteByExe (rt : Runtime) (exePath proxyId : Text)
  | removeRoute (routeId : Text)
  | removeTmpRoutesForSession (sessionId : Text)
  | purgeTmpRoutes
  | updateStoreAppRoute (rt : Runtime) (now : ℕ) (session : RouteSession) (found : FoundProcess)
  | confirmRoute (rt : Runtime) (now : ℕ) (session : RouteSession) (found : FoundProcess)

/-- An exception of `EnsureRoute` leaves the table alone. -/
def Edit.apply (e : Edit) (routes : List AppRoute) : List AppRoute :=
  match e with
  | .ensureRoute rt exePath proxyId source isPersistent sessionId ipcManaged =>
    match AppRoutes.ensureRoute rt exePath proxyId source isPersistent sessionId ipcManaged
      routes with
    | some (_, routes) => routes
    | none => routes
  | .ensureTargetRoute rt target proxyId source isPersistent sessionId ipcManaged =>
    match AppRoutes.ensureTargetRoute rt target proxyId source isPersistent sessionId ipcManaged
      routes with
    | some (_, routes) => routes
    | none => routes
  | .removeRouteByExe rt exePath proxyId => (AppRoutes.removeRouteByExe rt exePath proxyId routes).2
  | .removeRoute routeId => (AppRoutes.removeRoute routeId routes).2
  | .removeTmpRoutesForSession sessionId => (AppRoutes.removeTmpRoutesForSession sessionId routes).2
  | .purgeTmpRoutes => routes.filter (·.isPersistent)
  | .updateStoreAppRoute rt now session found =>
    updateStoreAppRouteFromCandidate rt now session found routes
  | .confirmRoute rt now session found => tryConfirmRouteFromProcess rt now session found routes

/-- An endpoint and a name, with the case of the letters dropped. -/
abbrev Rule := Text × Text

structure AppConfigFile where
  rules : List Rule := []
  appRoutes : List AppRoute := []

/-- `liveRules` are those of the file that the service has read when it was last restarted. -/
structure Store where
  routes : List AppRoute
  proxyswitch : List AppRoute
  appConfig : AppConfigFile := {}
  hasStaleLiveRoutes : Bool := false
  liveRules : List Rule := []

/-- What one call of `WriteConfig` finds; `endpoint` is host and port of a configured proxy. -/
structure WriteCall where
  rt : Runtime
  backend : Backend
  write : ConfigWrite
  endpoint : Text → Text

def statusText : RoutingStatus → Text
  | .direct => "direct".toList
  | .externalRoutingRequired => "external-routing-required".toList
  | .routeSessionCreated => "proxifyre-route-session-created".toList
  | .routeLaunching => "proxifyre-route-launching".toList
  | .routeFailed => "proxifyre-route-failed".toList

/-- Where `WriteConfig` is called. The roll back of `LaunchGeneric` has the status of
    `ResolveInitialRoutingStatus`. -/
inductive ConfigWriter
  | initialRouting
  | genericRollback (routingStatus : RoutingStatus)
  | targetRollback
  | storeAppRoute
  | confirmedRoute
  | childRoutes
  | cleanupSessionRoutes
  | apply
  | settings
  | startup
  | exit

/-- Whether `MarkStaleLiveRoutes` follows a write that succeeded. -/
def ConfigWriter.marks : ConfigWriter → Bool
  | .cleanupSessionRoutes | .exit => true
  | .genericRollback routingStatus => statusText routingStatus == "proxifyre-route-active".toList
  | .initialRouting | .targetRollback | .storeAppRoute | .confirmedRoute | .childRoutes | .apply
  | .settings | .startup => false

/-- For `load`, settings saved a list and the services are made anew, with a backend that has
    nothing marked. -/
inductive Event
  | edit (e : Edit)
  | saveSwitchConfig (saved : Bool)
  | writeConfig (call : WriteCall) (writer : ConfigWriter)
  | restartService (succeeds : Bool)
  | load (saved loaded : List AppRoute)

section Store
variable (upper : Char → Char)

def rules (call : WriteCall) (routes : List AppRoute) : List Rule :=
  call.backend.proxyIds.flatMap fun proxyId =>
    (appNames { call.rt with upper := upper } call.backend call.write routes proxyId).map
      fun name => (call.endpoint proxyId, name.map upper)

def refreshed (call : WriteCall) (routes : List AppRoute) : List AppRoute :=
  (writeConfig { call.rt with upper := upper } call.backend call.write routes).2

def Store.writeConfig (s : Store) (call : WriteCall) (writer : ConfigWriter) : Store :=
  let routes := refreshed upper call s.routes
  if call.write.built && call.write.written then
    { s with
      routes := routes
      appConfig := ⟨rules upper call s.routes, routes.filter fun r => r.isPersistent && r.enabled⟩
      hasStaleLiveRoutes := s.hasStaleLiveRoutes || writer.marks }
  else { s with routes := routes }

def next (s : Store) : Event → Store
  | .edit e => { s with routes := e.apply s.routes }
  | .saveSwitchConfig saved =>
    if saved then { s with proxyswitch := s.routes.filter (·.isPersistent) } else s
  | .writeConfig call writer => s.writeConfig upper call writer
  | .restartService succeeds =>
    if succeeds then { s with liveRules := s.appConfig.rules, hasStaleLiveRoutes := false } else s
  | .load saved loaded =>
    { s with routes := loaded, proxyswitch := saved, hasStaleLiveRoutes := false }

end Store

end ProxySwitch.RouteStore
