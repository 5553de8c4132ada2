import ProxySwitch.SessionMatching

set_option autoImplicit false

namespace ProxySwitch.RouteShadowing
open AppRoutes KeyedLists RuntimeStrings SessionMatching

section Merging
variable (env : SessionMatching.Surroundings) (hit : ExternalProcessHit) (session : LaunchSession)

def hasPath (route : AppRoute) : Bool :=
  route.proxyId == session.proxyId && route.enabled && hasPathOf env hit route

def IsOwn (route : AppRoute) : Prop := getStableRouteKey env.rt route = session.routeKey

/-- The loop comes to the session, and its parent chain, the stronger rule, does not decide. -/
structure Considered (earlier : List LaunchSession) : Prop where
  notTaken : scan env hit earlier = .unmatched
  running : session.hasEnded = false
  proxied : session.proxyId ≠ []
  untracked : session.tracks hit.processId = false
  noParentChain : parentChain env session hit = false

def MergesByIdentity (earlier later : List LaunchSession) : Prop :=
  (∃ route ∈ env.routes, hasPath env hit session route = true ∧ IsOwn env session route) →
    scan env hit (earlier ++ session :: later) = .matched session .routeIdentity

/-- A route with the path and another key stands before no own route, unless it comes after
    one. -/
def Unshadowed : Prop :=
  ∀ front route back, env.routes = front ++ route :: back → hasPath env hit session route = true →
    ¬IsOwn env session route →
      (∃ own ∈ back, hasPath env hit session own = true ∧ IsOwn env session own) →
        ∃ own ∈ front, hasPath env hit session own = true ∧ IsOwn env session own

variable {env hit session}

theorem scan_append {earlier : List LaunchSession} (h : scan env hit earlier = .unmatched)
    (later : List LaunchSession) : scan env hit (earlier ++ later) = scan env hit later := by
  induction earlier with
  | nil => rfl
  | cons s rest ih =>
    rw [List.cons_append, scan]
    unfold scan at h
    split at h
    · rename_i hskip
      rw [if_pos hskip]
      exact ih h
    · rename_i hopen
      rw [if_neg hopen]
      split at h
      · cases h
      · rename_i htracks
        rw [if_neg htracks]
        split at h
        · cases h
        · exact ih h

/-- The test of the second rule reads one route only. -/
theorem isSessionRoute_iff : isSessionRoute env session (hasPathOf env hit) = true ↔
    ∃ route, env.routes.find? (hasPath env hit session) = some route ∧ IsOwn env session route := by
  have hroute : routeOfProxy env session (hasPathOf env hit) =
      env.routes.find? (hasPath env hit session) := rfl
  cases hfind : env.routes.find? (hasPath env hit session) with
  | none => simp [isSessionRoute_of_none (hroute.trans hfind)]
  | some route =>
    rw [isSessionRoute_of_some (hroute.trans hfind), beq_iff_eq]
    simp [IsOwn, eq_comm]

theorem scan_considered {earlier : List LaunchSession} (h : Considered env hit session earlier)
    (later : List LaunchSession) :
    scan env hit (earlier ++ session :: later) = .matched session .routeIdentity ↔
      isSessionRoute env session (hasPathOf env hit) = true := by
  constructor
  · intro hscan
    exact accepts_of_mergeRule (scan_matched hscan).2.2.2.2
  · intro hroute
    have hrule : mergeRule env session hit = some .routeIdentity := by
      simp [mergeRule, accepts, h.noParentChain, hroute]
    rw [scan_append h.notTaken, scan, h.running, h.untracked, hrule]
    simp [h.proxied]

theorem mergesByIdentity_iff {earlier : List LaunchSession} (h : Considered env hit session earlier)
    (later : List LaunchSession) :
    MergesByIdentity env hit session earlier later ↔ Unshadowed env hit session := by
  rw [MergesByIdentity, scan_considered h, isSessionRoute_iff]
  exact first_good_iff (hasPath env hit session) (IsOwn env session)

end Merging

def editorRoute : AppRoute :=
  { exePath := "C:\\apps\\note.exe".toList, processName := "note.exe".toList
    proxyId := "clash".toList }

def editorShortcut : AppRoute :=
  { editorRoute with
    launchKind := .shortcut, matchKind := .processName
    shortcutPath := "C:\\apps\\Note.lnk".toList }

def startedEditor : ExternalProcessHit :=
  { processId := 7, name := "note.exe".toList, executablePath := "C:\\apps\\note.exe".toList }

def shortcutSession : LaunchSession :=
  { id := 1, proxyId := "clash".toList, routeKey := getStableRouteKey plainRuntime editorShortcut }

def bothRoutes : SessionMatching.Surroundings where
  rt := plainRuntime
  routes := [editorRoute, editorShortcut]

theorem considered_shortcutSession : Considered bothRoutes startedEditor shortcutSession [] :=
  ⟨rfl, rfl, by decide, rfl, rfl⟩

/-- With the routes in the other order the process is merged, though the other one has its path as well. -/
theorem mergesByIdentity_own_first :
    MergesByIdentity { bothRoutes with routes := [editorShortcut, editorRoute] } startedEditor shortcutSession []
      [] := by
  refine (mergesByIdentity_iff ⟨rfl, rfl, by decide, rfl, rfl⟩ []).mpr ?_
  intro front route back hroutes _ hforeign _
  cases front with
  | nil =>
    obtain rfl : editorShortcut = route := (List.cons.inj hroutes).1
    exact absurd rfl hforeign
  | cons first front =>
    obtain rfl : editorShortcut = first := (List.cons.inj hroutes).1
    exact ⟨editorShortcut, List.mem_cons_self, by decide, rfl⟩

/-- The route of the executable hides the one of the shortcut. -/
theorem executable_hides_shortcut :
    ¬ ∀ (env : SessionMatching.Surroundings) (hit : ExternalProcessHit) (session : LaunchSession)
      (earlier later : List LaunchSession), Considered env hit session earlier →
        MergesByIdentity env hit session earlier later := by
  intro h
  have hmerged := h bothRoutes startedEditor shortcutSession [] [] considered_shortcutSession
    ⟨editorShortcut, by decide, by decide, rfl⟩
  have hscan : scan bothRoutes startedEditor [shortcutSession] = .unmatched := by decide
  rw [List.nil_append, hscan] at hmerged
  cases hmerged

end ProxySwitch.RouteShadowing
