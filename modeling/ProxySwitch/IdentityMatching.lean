import ProxySwitch.SessionMatching

set_option autoImplicit false

namespace ProxySwitch.IdentityMatching
open AppRoutes KeyedLists RuntimeStrings SessionMatching

def isPackaged (route : AppRoute) : Bool :=
  route.matchKind == .msixPackage || route.matchKind == .appUserModelId

def isLegacy (backend : Backend) (route : AppRoute) : Bool :=
  route.enabled && !route.ipcManaged && backend.proxyIds.contains route.proxyId

/-- The name that `BuildConfigJson` adds for a route; an empty one is skipped. -/
def writtenName (rt : Runtime) (backend : Backend) (write : ConfigWrite) (route : AppRoute) :
    Option Text :=
  if isLegacy backend route then
    let appName := (resolveBackendAppName rt write route).1
    if appName = [] then none else some appName
  else none

/-- `Distinct`, which keeps the first of equal texts. -/
def distinct (upper : Char → Char) (seen : List Text) : List Text → List Text
  | [] => []
  | name :: rest =>
    if seen.any (equalsIgnoreCase upper name) then distinct upper seen rest
    else name :: distinct upper (name :: seen) rest

/-- `appNames` of one proxy's rule. -/
def appNames (rt : Runtime) (backend : Backend) (write : ConfigWrite) (routes : List AppRoute)
    (proxyId : Text) : List Text :=
  distinct rt.upper []
    ((routes.filter (·.proxyId == proxyId)).filterMap (writtenName rt backend write))

/-- The path that the package identity of a route is resolved to; an AUMID route needs both parts
    of it. -/
def packagePath (write : ConfigWrite) (route : AppRoute) : Option Text :=
  if route.matchKind = .appUserModelId ∧
      (route.packageFamilyName = [] ∨ route.packageRelativeExePath = []) then none
  else (write.resolveMsixPath route.packageFamilyName route.packageRelativeExePath).filter (· ≠ [])

structure ByIdentity (env : Surroundings) (backend : Backend) (write : ConfigWrite) : Prop where
  written : ∀ route ∈ env.routes, isPackaged route = true → ∀ name,
    writtenName env.rt backend write route = some name → packagePath write route = some name
  attached : ∀ hit route, externalRoute env hit = some route → isPackaged route = true →
    hasPathOf env hit route = true
  merged : ∀ hit sessions session, scan env hit sessions = .matched session .processName →
    ∀ route, routeOfProxy env session (hasNameOf env hit) = some route → isPackaged route = false

/-- The process name of a route, as it is compared. -/
def nameKey (env : Surroundings) (route : AppRoute) : Text :=
  (normalizeProcessName env.rt route.processName).map env.rt.upper

/-- A packaged route that the driver matches has its package path found, or no process name; one
    that is watched for, and one of a session, comes after a route of another kind that takes its
    process name. -/
structure NamesUnused (env : Surroundings) (backend : Backend) (write : ConfigWrite) : Prop where
  resolved : ∀ route ∈ env.routes, isPackaged route = true → isLegacy backend route = true →
    route.processName = [] ∨ packagePath write route ≠ none
  watched : ∀ pre route post, env.routes = pre ++ route :: post →
    (route.isPersistent && route.enabled && decide (route.processName ≠ [])) = true →
      isPackaged route = true → ∃ other ∈ pre,
        (other.isPersistent && other.enabled && decide (other.processName ≠ [])) = true ∧
          nameKey env other = nameKey env route ∧ isPackaged other = false
  ofSession : ∀ pre route post, env.routes = pre ++ route :: post →
    (route.enabled && decide (route.proxyId ≠ [])) = true → isPackaged route = true →
      ∃ other ∈ pre, (other.enabled && decide (other.proxyId ≠ [])) = true ∧
        (other.proxyId, nameKey env other) = (route.proxyId, nameKey env route) ∧
          isPackaged other = false

section Names
variable {rt : Runtime} {upper : Char → Char} {name : Text} {names : List Text}

theorem mem_of_mem_distinct {seen : List Text} (h : name ∈ distinct upper seen names) :
    name ∈ names := by
  induction names generalizing seen with
  | nil => cases h
  | cons head rest ih =>
    unfold distinct at h
    split at h
    · exact List.mem_cons_of_mem _ (ih h)
    · obtain rfl | hrest := List.mem_cons.mp h
      · exact List.mem_cons_self
      · exact List.mem_cons_of_mem _ (ih hrest)

theorem mem_appNames {backend : Backend} {write : ConfigWrite} {routes : List AppRoute}
    {proxyId : Text} (h : name ∈ appNames rt backend write routes proxyId) :
    ∃ route ∈ routes, route.proxyId = proxyId ∧ writtenName rt backend write route = some name := by
  obtain ⟨route, hroute, hname⟩ := List.mem_filterMap.mp (mem_of_mem_distinct h)
  obtain ⟨hmem, hproxy⟩ := List.mem_filter.mp hroute
  exact ⟨route, hmem, beq_iff_eq.mp hproxy, hname⟩

theorem normalizeProcessName_eq_nil : normalizeProcessName rt name = [] ↔ name = [] := by
  unfold normalizeProcessName
  split
  · rename_i hname
    simp [hname]
  · rename_i hname
    refine iff_of_false ?_ hname
    dsimp only
    split
    · rename_i hexe
      intro hnil
      rw [hnil] at hexe
      cases hexe
    · simp

theorem nameKey_eq_nil {env : Surroundings} {route : AppRoute} :
    nameKey env route = [] ↔ route.processName = [] := by
  rw [nameKey, List.map_eq_nil_iff, normalizeProcessName_eq_nil]

end Names

section Exactness
variable {env : Surroundings} {backend : Backend} {write : ConfigWrite}

theorem packagePath_ne_nil {route : AppRoute} {path : Text}
    (h : packagePath write route = some path) : path ≠ [] := by
  unfold packagePath at h
  split at h
  · cases h
  · exact of_decide_eq_true (Option.mem_filter_iff.mp h).2

theorem resolveByPackage_eq (rt : Runtime) (route : AppRoute) :
    resolveByPackage rt write route =
      ((write.resolveMsixPath route.packageFamilyName route.packageRelativeExePath).filter
        (· ≠ [])).elim (normalizeProcessName rt route.processName, route)
          fun path => (path, cacheResolution write route path) := by
  unfold resolveByPackage
  cases write.resolveMsixPath route.packageFamilyName route.packageRelativeExePath with
  | none => rfl
  | some path =>
    dsimp only
    split
    · rename_i hempty
      rw [Option.filter_some_neg (by simp [hempty]), Option.elim_none]
    · rename_i hne
      rw [Option.filter_some_pos (by simp [hne]), Option.elim_some]

theorem resolveByPackage_fst (rt : Runtime) (route : AppRoute) :
    (resolveByPackage rt write route).1 =
      ((write.resolveMsixPath route.packageFamilyName route.packageRelativeExePath).filter
        (· ≠ [])).getD (normalizeProcessName rt route.processName) := by
  rw [resolveByPackage_eq]
  cases (write.resolveMsixPath route.packageFamilyName route.packageRelativeExePath).filter (· ≠ [])
    <;> rfl

theorem resolveBackendAppName_packaged (rt : Runtime) {route : AppRoute}
    (hpackaged : isPackaged route = true) : (resolveBackendAppName rt write route).1 =
      (packagePath write route).getD (normalizeProcessName rt route.processName) := by
  simp only [isPackaged, Bool.or_eq_true, beq_iff_eq] at hpackaged
  unfold resolveBackendAppName packagePath
  obtain hkind | hkind := hpackaged
  · simp only [hkind, reduceCtorEq, false_and, if_false]
    exact resolveByPackage_fst rt route
  · simp only [hkind, true_and]
    by_cases hwhole : route.packageFamilyName = [] ∨ route.packageRelativeExePath = []
    · rw [if_pos hwhole, if_neg fun h => hwhole.elim h.1 h.2, Option.getD_none]
    · rw [if_neg hwhole, if_pos (not_or.mp hwhole)]
      exact resolveByPackage_fst rt route

/-- The name of a packaged route is its package path, or the bare name. -/
theorem written_iff {route : AppRoute} (hpackaged : isPackaged route = true) :
    (∀ name, writtenName env.rt backend write route = some name →
        packagePath write route = some name) ↔
      (isLegacy backend route = true → route.processName = [] ∨ packagePath write route ≠ none) := by
  unfold writtenName
  cases isLegacy backend route with
  | false => simp
  | true =>
    simp only [if_true, resolveBackendAppName_packaged env.rt hpackaged, forall_const]
    cases hpath : packagePath write route with
    | some path =>
      simp [packagePath_ne_nil hpath]
    | none =>
      simp only [Option.getD_none, normalizeProcessName_eq_nil]
      by_cases hname : route.processName = [] <;> simp [hname]

theorem hasPathOf_nil (hit : ExternalProcessHit) (h : hit.executablePath = [])
    (route : AppRoute) : hasPathOf env hit route = false := by
  simp [hasPathOf, h]

theorem hasNameOf_eq (hit : ExternalProcessHit) (route : AppRoute) :
    hasNameOf env hit route = (nameKey env route == hit.name.map env.rt.upper) := rfl

def nameHit (env : Surroundings) (route : AppRoute) : ExternalProcessHit :=
  { processId := 0, name := normalizeProcessName env.rt route.processName }

theorem matchesExternal_nameHit {route : AppRoute} (hname : route.processName ≠ [])
    (other : AppRoute) : matchesExternal env (nameHit env route) other =
      ((other.isPersistent && other.enabled && decide (other.processName ≠ [])) &&
        nameKey env other == nameKey env route) := by
  have hkey : ((nameHit env route).name ≠ []) := mt normalizeProcessName_eq_nil.mp hname
  have hsame : nameKey env other = nameKey env route → other.processName ≠ [] := by
    intro h hnil
    exact hname (nameKey_eq_nil.mp (h ▸ nameKey_eq_nil.mpr hnil))
  unfold matchesExternal
  rw [hasPathOf_nil _ rfl, Bool.false_or, hasNameOf_eq, decide_eq_true hkey, Bool.true_and,
    Bool.and_assoc (other.isPersistent && other.enabled)]
  refine congrArg _ ?_
  rw [Bool.eq_iff_iff]
  simp only [Bool.and_eq_true, decide_eq_true_eq, beq_iff_eq]
  exact ⟨fun h => ⟨hsame h, h⟩, fun h => h.2⟩

theorem attached_iff : (∀ hit route, externalRoute env hit = some route →
    isPackaged route = true → hasPathOf env hit route = true) ↔
      ∀ pre route post, env.routes = pre ++ route :: post →
        (route.isPersistent && route.enabled && decide (route.processName ≠ [])) = true →
          isPackaged route = true → ∃ other ∈ pre,
            (other.isPersistent && other.enabled && decide (other.processName ≠ [])) = true ∧
              nameKey env other = nameKey env route ∧ isPackaged other = false := by
  constructor
  · intro h pre route post hroutes hwatched hpackaged
    refine (first_of_key_iff (fun r => r.isPersistent && r.enabled && decide (r.processName ≠ []))
      (nameKey env) (isPackaged · = false)).mp (fun k first hfirst => ?_) pre route post hroutes
      hwatched (by simp [hpackaged])
    have hkey := List.find?_some hfirst
    simp only [Bool.and_eq_true, decide_eq_true_eq, beq_iff_eq] at hkey
    obtain ⟨⟨-, hname⟩, rfl⟩ := hkey
    refine eq_false_of_ne_true fun hbare => ?_
    have hpath := h (nameHit env first) first ?_ hbare
    · rw [hasPathOf_nil _ rfl] at hpath
      cases hpath
    · rw [externalRoute, funext (matchesExternal_nameHit hname)]
      exact hfirst
  · intro h hit route hfound hpackaged
    by_contra hpath
    obtain ⟨hroute, pre, post, hroutes, hnone⟩ := List.find?_eq_some_iff_append.mp hfound
    rw [matchesExternal, eq_false_of_ne_true hpath, Bool.false_or, hasNameOf_eq] at hroute
    simp only [Bool.and_eq_true, decide_eq_true_eq, beq_iff_eq] at hroute
    obtain ⟨⟨hpersistent, henabled⟩, hname, hkey⟩ := hroute
    have hprocess : route.processName ≠ [] := by
      intro hnil
      rw [nameKey_eq_nil.mpr hnil] at hkey
      exact hname (List.map_eq_nil_iff.mp hkey.symm)
    obtain ⟨other, hother, hwatched, hsame, -⟩ := h pre route post hroutes
      (by simp [hpersistent, henabled, hprocess]) hpackaged
    have hbefore := hnone other hother
    simp only [Bool.and_eq_true, decide_eq_true_eq] at hwatched
    rw [matchesExternal, hasNameOf_eq, hsame, hkey] at hbefore
    simp [hwatched, hname] at hbefore

def sessionOf (env : Surroundings) (route : AppRoute) : LaunchSession :=
  { id := 0, proxyId := route.proxyId, routeKey := getStableRouteKey env.rt route }

theorem merged_iff : (∀ hit sessions session,
    scan env hit sessions = .matched session .processName →
      ∀ route, routeOfProxy env session (hasNameOf env hit) = some route →
        isPackaged route = false) ↔
      ∀ pre route post, env.routes = pre ++ route :: post →
        (route.enabled && decide (route.proxyId ≠ [])) = true → isPackaged route = true →
          ∃ other ∈ pre, (other.enabled && decide (other.proxyId ≠ [])) = true ∧
            (other.proxyId, nameKey env other) = (route.proxyId, nameKey env route) ∧
              isPackaged other = false := by
  have hroutes : ∀ (session : LaunchSession) (hit : ExternalProcessHit), session.proxyId ≠ [] →
      routeOfProxy env session (hasNameOf env hit) = env.routes.find? fun r =>
        (r.enabled && decide (r.proxyId ≠ [])) &&
          (r.proxyId, nameKey env r) == (session.proxyId, hit.name.map env.rt.upper) := by
    intro session hit hproxy
    refine congrArg (List.find? · env.routes) (funext fun r => ?_)
    rw [hasNameOf_eq, Bool.eq_iff_iff]
    simp only [Bool.and_eq_true, beq_iff_eq, decide_eq_true_eq, Prod.mk.injEq]
    constructor
    · rintro ⟨⟨hsame, henabled⟩, hname⟩
      exact ⟨⟨henabled, hsame ▸ hproxy⟩, hsame, hname⟩
    · rintro ⟨⟨henabled, -⟩, hsame, hname⟩
      exact ⟨⟨hsame, henabled⟩, hname⟩
  have hkey := first_of_key_iff (l := env.routes)
    (fun r => r.enabled && decide (r.proxyId ≠ [])) (fun r => (r.proxyId, nameKey env r))
    (isPackaged · = false)
  simp only [Bool.not_eq_false] at hkey
  rw [← hkey]
  constructor
  · intro h k first hfirst
    have htest := List.find?_some hfirst
    simp only [Bool.and_eq_true, decide_eq_true_eq, beq_iff_eq] at htest
    obtain ⟨⟨-, hproxy⟩, rfl⟩ := htest
    have hroute : routeOfProxy env (sessionOf env first) (hasNameOf env (nameHit env first)) =
        some first := (hroutes (sessionOf env first) (nameHit env first) hproxy).trans hfirst
    refine h (nameHit env first) [sessionOf env first] (sessionOf env first) ?_ first hroute
    have hrule : mergeRule env (sessionOf env first) (nameHit env first) = some .processName := by
      have hpath : isSessionRoute env (sessionOf env first)
          (hasPathOf env (nameHit env first)) = false := by
        refine isSessionRoute_of_none (List.find?_eq_none.mpr fun r _ => ?_)
        simp [hasPathOf_nil (nameHit env first) rfl]
      have hname : isSessionRoute env (sessionOf env first)
          (hasNameOf env (nameHit env first)) = true := by
        rw [isSessionRoute_of_some hroute]
        exact beq_self_eq_true _
      simp [mergeRule, accepts, parentChain, hpath, hname, show
        (nameHit env first).parentProcessId = none from rfl]
    have hopen : (sessionOf env first).hasEnded = false := rfl
    have htracks : (sessionOf env first).tracks (nameHit env first).processId = false := rfl
    simp [scan, hopen, htracks, hrule, show (sessionOf env first).proxyId ≠ [] from hproxy]
  · intro h hit sessions session hscan route hroute
    obtain ⟨-, -, hproxy, -, -⟩ := scan_matched hscan
    rw [hroutes session hit hproxy] at hroute
    exact h _ route hroute

/-- A configuration matches packaged apps by identity precisely when their names are unused. -/
theorem byIdentity_iff (env : Surroundings) (backend : Backend) (write : ConfigWrite) :
    ByIdentity env backend write ↔ NamesUnused env backend write := by
  constructor
  · intro h
    exact ⟨fun route hroute hpackaged => (written_iff hpackaged).mp (h.written route hroute hpackaged),
      attached_iff.mp h.attached, merged_iff.mp h.merged⟩
  · intro h
    exact ⟨fun route hroute hpackaged => (written_iff hpackaged).mpr (h.resolved route hroute hpackaged),
      attached_iff.mpr h.watched, merged_iff.mpr h.ofSession⟩

end Exactness

def claudeRoute : AppRoute :=
  { proxyId := "clash".toList
    processName := "claude.exe".toList
    matchKind := .msixPackage
    packageFamilyName := "Claude_pzs8sxrjxfjjc".toList
    packageRelativeExePath := "app\\claude.exe".toList }

theorem bare_name_written : ¬∀ env backend write, ByIdentity env backend write := by
  intro h
  have hwritten := (h { rt := plainRuntime, routes := [claudeRoute] }
    ⟨true, .running, false, ["clash".toList]⟩ ⟨true, true, fun _ _ => none, 0⟩).written
  have hpath := hwritten claudeRoute List.mem_cons_self rfl "claude.exe".toList (by decide)
  cases hpath

end ProxySwitch.IdentityMatching
