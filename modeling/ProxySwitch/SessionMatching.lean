import ProxySwitch.AppRoutes
import ProxySwitch.SessionLifecycle
import ProxySwitch.TcpLocalRedirect
import ProxySwitch.WindowsPaths

set_option autoImplicit false

/-!
# Which session a started process belongs to

The two decisions of `HandleProcessStarted`: the session that `TryMergeActiveSession` merges a
process into, with the rule that decides so, and the route for which `AttachExternalLaunch`
attaches one. A missing text of the source is the empty one.
-/
namespace ProxySwitch.SessionMatching
open AppRoutes RuntimeStrings WindowsPaths
open SessionLifecycle (Role Status ended)
open TcpLocalRedirect (seconds)

structure ExternalProcessHit where
  processId : ℕ
  parentProcessId : Option ℕ := none
  name : Text := []
  executablePath : Text := []
  createdAt : Option ℕ := none
  deriving DecidableEq

/-- `exited` says whether `ExitedAt` is set. -/
structure TrackedProcess where
  processId : ℕ
  role : Role
  exited : Bool := false
  deriving DecidableEq

/-- `id` stands for the object, `external` for the kind of the session. -/
structure LaunchSession where
  id : ℕ
  external : Bool := false
  exePath : Text := []
  proxyId : Text := []
  rootProcessId : Option ℕ := none
  processes : List TrackedProcess := []
  status : Status := .running
  startedAt : ℕ := 0
  routeKey : Text := []
  launchKind : LaunchKind := .exe
  ipcManaged : Bool := false
  needsProcessConfirmation : Bool := false
  storeAppRuntimeRoot : Text := []
  deriving DecidableEq

namespace LaunchSession

def hasEnded (s : LaunchSession) : Bool := ended.contains s.status

def livePids (s : LaunchSession) : List ℕ :=
  (s.processes.filter fun p => !p.exited).map TrackedProcess.processId

def tracks (s : LaunchSession) (pid : ℕ) : Bool := s.processes.any (·.processId == pid)

end LaunchSession

/-- What one call of `HandleProcessStarted` reads besides the sessions; `parentMap` is the
    process table, `currentName` the file name of the program itself. -/
structure Surroundings where
  rt : Runtime
  routes : List AppRoute
  processStartTime : Option ℕ := none
  parentMap : ℕ → Option (Option ℕ) := fun _ => none
  currentName : Text := []

def launchKindText : LaunchKind → Text
  | .exe => "exe".toList
  | .shortcut => "shortcut".toList
  | .appUserModelId => "app-user-model-id".toList
  | .other name => name

def startsWithIgnoreCase (upper : Char → Char) (text start : Text) : Bool :=
  (start.map upper).isPrefixOf (text.map upper)

/-- The walk up the parents, at most `depth` of them and none twice. -/
def isAncestorOfAny (ancestors : List ℕ) (parentMap : ℕ → Option (Option ℕ)) :
    (depth : ℕ) → (visited : List ℕ) → (current : ℕ) → Bool
  | 0, _, _ => false
  | depth + 1, visited, current =>
    match parentMap current with
    | some (some parent) =>
      ancestors.contains parent ||
        (!visited.contains parent &&
          isAncestorOfAny ancestors parentMap depth (parent :: visited) parent)
    | _ => false

section Rules
variable (env : Surroundings) (session : LaunchSession) (hit : ExternalProcessHit)

def equalTexts (a b : Text) : Bool := equalsIgnoreCase env.rt.upper a b

def parentChain : Bool :=
  hit.parentProcessId.isSome &&
    isAncestorOfAny session.livePids env.parentMap 5 [hit.processId] hit.processId

def routeOfProxy (test : AppRoute → Bool) : Option AppRoute :=
  env.routes.find? fun r => r.proxyId == session.proxyId && r.enabled && test r

def isSessionRoute (test : AppRoute → Bool) : Bool :=
  match routeOfProxy env session test with
  | some route => session.routeKey == getStableRouteKey env.rt route
  | none => false

def hasPathOf (route : AppRoute) : Bool :=
  hit.executablePath ≠ [] &&
    (equalTexts env route.exePath hit.executablePath ||
      equalTexts env route.resolvedExePath hit.executablePath)

def hasNameOf (route : AppRoute) : Bool :=
  equalTexts env (normalizeProcessName env.rt route.processName) hit.name

def sameDirectory : Bool :=
  hit.executablePath ≠ [] && session.routeKey == [] &&
    match getDirectoryName hit.executablePath, getDirectoryName session.exePath with
    | some hitDir, some sessionDir =>
      hitDir ≠ [] && sessionDir ≠ [] && equalTexts env hitDir sessionDir
    | _, _ => false

def windowsApps : Text := "C:\\Program Files\\WindowsApps\\".toList

def knownBrokerNames : List Text :=
  ["ApplicationFrameHost.exe".toList, "explorer.exe".toList, "RuntimeBroker.exe".toList,
    "ShellExperienceHost.exe".toList]

def isLikelyBrokerProcess : Bool :=
  hit.name = [] || equalTexts env hit.name (env.currentName ++ ".exe".toList) ||
    knownBrokerNames.any (equalTexts env hit.name) || hit.executablePath = []

/-- Created from two seconds before the start of the session until thirty seconds after it, as
    far as that is known. -/
def createdNearStart : Bool :=
  match hit.createdAt <|> env.processStartTime with
  | some createdAt =>
    session.startedAt ≤ createdAt + seconds 2 && createdAt ≤ session.startedAt + seconds 30
  | none => true

def isPendingStoreAppConfirmationCandidate : Bool :=
  session.needsProcessConfirmation &&
    equalTexts env (launchKindText session.launchKind) "app-user-model-id".toList &&
    !isLikelyBrokerProcess env hit && createdNearStart env session hit &&
    hit.executablePath ≠ [] && startsWithIgnoreCase env.rt.upper hit.executablePath windowsApps

def underRuntimeRoot : Bool :=
  session.ipcManaged && session.storeAppRuntimeRoot ≠ [] && hit.executablePath ≠ [] &&
    startsWithIgnoreCase env.rt.upper hit.executablePath session.storeAppRuntimeRoot

/-- The numbered rules of `TryMergeActiveSession`. -/
inductive MergeRule
  | parentChain
  | routeIdentity
  | processName
  | sameDirectory
  | pendingStoreApp
  | runtimeRoot
  deriving DecidableEq

def MergeRule.role : MergeRule → Role
  | .pendingStoreApp => .storeAppCandidate
  | _ => .descendant

def accepts : MergeRule → Bool
  | .parentChain => parentChain env session hit
  | .routeIdentity => isSessionRoute env session (hasPathOf env hit)
  | .processName => isSessionRoute env session (hasNameOf env hit)
  | .sameDirectory => sameDirectory env session hit
  | .pendingStoreApp => isPendingStoreAppConfirmationCandidate env session hit
  | .runtimeRoot => underRuntimeRoot env session hit

def mergeRule : Option MergeRule :=
  [MergeRule.parentChain, .routeIdentity, .processName, .sameDirectory, .pendingStoreApp,
    .runtimeRoot].find? (accepts env session hit)

inductive Scan
  | unmatched
  | alreadyTracked
  | matched (session : LaunchSession) (rule : MergeRule)
  deriving DecidableEq

/-- The loop of `TryMergeActiveSession`, which stops at the first session that tracks the process
    or has a role for it. -/
def scan : List LaunchSession → Scan
  | [] => .unmatched
  | s :: rest =>
    if s.hasEnded || s.proxyId = [] then scan rest
    else if s.tracks hit.processId then .alreadyTracked
    else match mergeRule env s hit with
      | some rule => .matched s rule
      | none => scan rest

def matchesExternal (route : AppRoute) : Bool :=
  route.isPersistent && route.enabled &&
    (hasPathOf env hit route || hit.name ≠ [] && hasNameOf env hit route)

def externalRoute : Option AppRoute := env.routes.find? (matchesExternal env hit)

variable {env session} in
theorem isSessionRoute_of_some {test : AppRoute → Bool} {route : AppRoute}
    (h : routeOfProxy env session test = some route) :
    isSessionRoute env session test = (session.routeKey == getStableRouteKey env.rt route) := by
  simp only [isSessionRoute, h]

variable {env session} in
theorem isSessionRoute_of_none {test : AppRoute → Bool}
    (h : routeOfProxy env session test = none) : isSessionRoute env session test = false := by
  simp only [isSessionRoute, h]

variable {env session hit} in
theorem accepts_of_mergeRule {rule : MergeRule} (h : mergeRule env session hit = some rule) :
    accepts env session hit rule = true := List.find?_some h

variable {env hit} in
theorem scan_matched {sessions : List LaunchSession} {s : LaunchSession} {rule : MergeRule}
    (h : scan env hit sessions = .matched s rule) : s ∈ sessions ∧ s.hasEnded = false ∧
      s.proxyId ≠ [] ∧ s.tracks hit.processId = false ∧ mergeRule env s hit = some rule := by
  induction sessions with
  | nil => cases h
  | cons head rest ih =>
    unfold scan at h
    split at h
    · exact (ih h).imp (List.mem_cons_of_mem _) id
    · rename_i hopen
      simp only [Bool.or_eq_true, decide_eq_true_eq, not_or, Bool.not_eq_true] at hopen
      split at h
      · cases h
      · rename_i htracks
        split at h
        · rename_i hrule
          obtain ⟨rfl, rfl⟩ := Scan.matched.inj h
          exact ⟨List.mem_cons_self, hopen.1, hopen.2, eq_false_of_ne_true htracks, hrule⟩
        · exact (ih h).imp (List.mem_cons_of_mem _) id

end Rules

end ProxySwitch.SessionMatching
