import ProxySwitch.RouteEdits
import ProxySwitch.RuntimeReload
import ProxySwitch.TransitionRuns

set_option autoImplicit false

namespace ProxySwitch.RouteUniqueness
open AppRoutes KeyedLists RouteEdits RouteStore RuntimeReload RuntimeStrings TransitionRuns

/-- `stored` are the routes that the import reads from the other file. -/
inductive Event
  | ensureRoute (rt : Runtime) (exePath proxyId source : Text) (isPersistent : Bool)
    (sessionId : Option Text) (ipcManaged : Bool)
  | ensureTargetRoute (rt : Runtime) (target : LaunchTarget) (proxyId source : Text)
    (isPersistent : Bool) (sessionId : Option Text) (ipcManaged : Bool)
  | importPersistentRoutes (s : Setup) (stored : List AppRoute)
  | removeRouteByExe (rt : Runtime) (exePath proxyId : Text)
  | removeRoute (routeId : Text)
  | removeTmpRoutesForSession (sessionId : Text)

section Runs
variable (upper : Char → Char)

def setupWithUpper (s : Setup) : Setup := { s with rt := withUpper upper s.rt }

def step (routes : List AppRoute) : Event → Option (List AppRoute)
  | .ensureRoute rt exePath proxyId source isPersistent sessionId ipcManaged =>
    some (Edit.apply (.ensureRoute (withUpper upper rt) exePath proxyId source isPersistent sessionId
      ipcManaged) routes)
  | .ensureTargetRoute rt target proxyId source isPersistent sessionId ipcManaged =>
    some (Edit.apply (.ensureTargetRoute (withUpper upper rt) target proxyId source isPersistent
      sessionId ipcManaged) routes)
  | .importPersistentRoutes s stored =>
    some (stored.foldl (importRoute (setupWithUpper upper s)) routes)
  | .removeRouteByExe rt exePath proxyId =>
    some (Edit.apply (.removeRouteByExe (withUpper upper rt) exePath proxyId) routes)
  | .removeRoute routeId => some (Edit.apply (.removeRoute routeId) routes)
  | .removeTmpRoutesForSession sessionId =>
    some (Edit.apply (.removeTmpRoutesForSession sessionId) routes)

def SameKey (a b : AppRoute) : Prop := a.proxyId = b.proxyId ∧ keyOf upper a = keyOf upper b

def SamePath (a b : AppRoute) : Prop :=
  a.proxyId = b.proxyId ∧ b.exePath ≠ [] ∧ equalsIgnoreCase upper a.exePath b.exePath = true

def Unique (routes : List AppRoute) : Prop :=
  routes.Pairwise fun a b => ¬SameKey upper a b ∧ ¬SamePath upper a b

def FreshExe (rt : Runtime) (exePath proxyId source : Text) (isPersistent : Bool)
    (sessionId : Option Text) (ipcManaged : Bool) (routes : List AppRoute) : Prop :=
  exePath ≠ [] → proxyId ≠ [] → routes.find? (matchesExe (withUpper upper rt) exePath proxyId) = none →
    ∀ msix, rt.tryResolveMsixIdentity exePath = some msix → ∀ existing ∈ routes, ¬SameKey upper existing
      (newExeRoute (withUpper upper rt) exePath proxyId source isPersistent sessionId ipcManaged msix)

def FreshImports (s : Setup) : List AppRoute → List AppRoute → Prop
  | _, [] => True
  | routes, route :: rest =>
    ((importable route && !isKnown (setupWithUpper upper s) routes route) = true →
      ∀ existing ∈ routes, ¬SamePath upper existing route) ∧
    FreshImports s (importRoute (setupWithUpper upper s) routes route) rest

def AddsFresh (routes : List AppRoute) : Event → Prop
  | .ensureRoute rt exePath proxyId source isPersistent sessionId ipcManaged =>
    FreshExe upper rt exePath proxyId source isPersistent sessionId ipcManaged routes
  | .ensureTargetRoute rt target proxyId source isPersistent sessionId ipcManaged =>
    if target.launchKind = .exe ∧ target.exePath ≠ [] then
      FreshExe upper rt target.exePath proxyId source isPersistent sessionId ipcManaged routes
    else routes.find? (matchesTarget target proxyId) = none → ∀ existing ∈ routes,
      ¬SameKey upper existing
        (newTargetRoute rt target proxyId source isPersistent sessionId ipcManaged) ∧
      ¬SamePath upper existing
        (newTargetRoute rt target proxyId source isPersistent sessionId ipcManaged)
  | .importPersistentRoutes s stored => FreshImports upper s routes stored
  | .removeRouteByExe .. | .removeRoute .. | .removeTmpRoutesForSession .. => True

end Runs

section Steps
variable {upper : Char → Char} {routes : List AppRoute}

theorem unique_append_iff {route : AppRoute} (h : Unique upper routes) :
    Unique upper (routes ++ [route]) ↔
      ∀ existing ∈ routes, ¬SameKey upper existing route ∧ ¬SamePath upper existing route := by
  rw [Unique, List.pairwise_append]
  simp only [List.mem_singleton, forall_eq]
  exact ⟨fun happ => happ.2.2, fun hfree => ⟨h, List.pairwise_singleton _ _, hfree⟩⟩

theorem unique_reuse (c : Ensuring) (h : Unique upper routes) :
    Unique upper (updateFirst c.finds c.reuse routes) := by
  refine pairwise_updateFirst (fun a b hab => ?_) (fun a b hab => ?_) h
  · rw [Ensuring.reuse_eq]
    exact hab
  · rw [Ensuring.reuse_eq]
    exact hab

/-- A call adds nothing, or the route that it makes where none is found. -/
theorem unique_ensure_iff (c : Ensuring) (h : Unique upper routes) : Unique upper (c.apply routes) ↔
    (routes.find? c.finds = none → ∀ route, c.made = some route → ∀ existing ∈ routes,
      ¬SameKey upper existing route ∧ ¬SamePath upper existing route) := by
  unfold Ensuring.apply
  cases hfind : routes.find? c.finds with
  | some existing => exact iff_of_true (unique_reuse c h) (fun hnone => absurd hnone (Option.some_ne_none _))
  | none =>
    cases hmade : c.made with
    | none => simpa using h
    | some route => simpa using unique_append_iff h

theorem not_samePath_of_find {rt : Runtime} {exePath proxyId source : Text} {isPersistent : Bool}
    {sessionId : Option Text} {ipcManaged : Bool} {msix : Option (Text × Text)}
    (h : routes.find? (matchesExe (withUpper upper rt) exePath proxyId) = none) :
    ∀ existing ∈ routes, ¬SamePath upper existing
      (newExeRoute (withUpper upper rt) exePath proxyId source isPersistent sessionId ipcManaged
        msix) := by
  rintro existing hexisting ⟨hproxy, -, hpath⟩
  have hnot := find?_eq_none_iff_forall.mp h existing hexisting
  have hproxyId : (newExeRoute (withUpper upper rt) exePath proxyId source isPersistent sessionId
      ipcManaged msix).proxyId = proxyId := by cases msix <;> rfl
  have hexePath : (newExeRoute (withUpper upper rt) exePath proxyId source isPersistent sessionId
      ipcManaged msix).exePath = exePath := by cases msix <;> rfl
  rw [hproxyId] at hproxy
  rw [hexePath] at hpath
  rw [matchesExe, hproxy, beq_self_eq_true, Bool.and_true] at hnot
  exact absurd (hpath.symm.trans hnot) (by decide)

theorem unique_ensureExe_iff (rt : Runtime) (exePath proxyId source : Text) (isPersistent : Bool)
    (sessionId : Option Text) (ipcManaged : Bool) (h : Unique upper routes) :
    Unique upper ((ensureExe (withUpper upper rt) proxyId source isPersistent sessionId ipcManaged
        exePath).apply routes) ↔
      FreshExe upper rt exePath proxyId source isPersistent sessionId ipcManaged routes := by
  unfold ensureExe FreshExe
  by_cases hempty : exePath = [] ∨ proxyId = []
  · rw [if_pos hempty]
    exact iff_of_true h fun hexe hproxy => absurd hempty (not_or.mpr ⟨hexe, hproxy⟩)
  · rw [if_neg hempty]
    obtain ⟨hexe, hproxy⟩ := not_or.mp hempty
    rw [Change.apply, unique_ensure_iff _ h]
    constructor
    · intro hfresh _ _ hfind msix hmsix existing hexisting
      exact (hfresh hfind _ (Option.map_eq_some_iff.mpr ⟨msix, hmsix, rfl⟩) existing hexisting).1
    · intro hfresh hfind route hmade existing hexisting
      obtain ⟨msix, hmsix, rfl⟩ := Option.map_eq_some_iff.mp hmade
      exact ⟨hfresh hexe hproxy hfind msix hmsix existing hexisting,
        not_samePath_of_find hfind existing hexisting⟩

/-- The import asks for the key, and so a route that it adds has a new one. -/
theorem not_sameKey_of_unknown {s : Setup} {route : AppRoute}
    (h : isKnown (setupWithUpper upper s) routes route = false) :
    ∀ existing ∈ routes, ¬SameKey upper existing route := by
  rintro existing hexisting ⟨hproxy, hkey⟩
  have hnot := List.any_eq_false.mp h existing hexisting
  refine hnot (Bool.and_eq_true_iff.mpr ⟨beq_iff_eq.mpr hproxy, beq_iff_eq.mpr ?_⟩)
  exact hkey

theorem unique_import_iff (s : Setup) (stored : List AppRoute) (h : Unique upper routes) :
    Unique upper (stored.foldl (importRoute (setupWithUpper upper s)) routes) ↔
      FreshImports upper s routes stored := by
  induction stored generalizing routes with
  | nil => exact iff_of_true h trivial
  | cons route rest ih =>
    rw [List.foldl_cons, FreshImports]
    by_cases hnew : (importable route && !isKnown (setupWithUpper upper s) routes route) = true
    · have happend : importRoute (setupWithUpper upper s) routes route = routes ++ [route] := if_pos hnew
      have hunknown := (Bool.and_eq_true_iff.mp hnew).2
      rw [Bool.not_eq_true'] at hunknown
      have hone : Unique upper (routes ++ [route]) ↔ ∀ existing ∈ routes, ¬SamePath upper existing route := by
        rw [unique_append_iff h]
        exact forall₂_congr fun existing hexisting =>
          and_iff_right (not_sameKey_of_unknown hunknown existing hexisting)
      rw [happend]
      constructor
      · intro hafter
        obtain ⟨added, hfold, -⟩ := foldl_importRoute (s := setupWithUpper upper s) (l := routes ++ [route]) rest
        have hhead : Unique upper (routes ++ [route]) :=
          List.Pairwise.sublist (List.sublist_append_left _ added) (hfold ▸ hafter)
        exact ⟨fun _ => hone.mp hhead, (ih hhead).mp hafter⟩
      · rintro ⟨hfree, hrest⟩
        exact (ih (hone.mpr (hfree hnew))).mpr hrest
    · have hsame : importRoute (setupWithUpper upper s) routes route = routes := if_neg hnew
      rw [hsame, ih h]
      exact (and_iff_right fun htrue => absurd htrue hnew).symm

theorem unique_step {routes' : List AppRoute} {e : Event} (h : Unique upper routes)
    (hstep : step upper routes e = some routes') :
    Unique upper routes' ↔ AddsFresh upper routes e := by
  cases e with
  | ensureRoute rt exePath proxyId source isPersistent sessionId ipcManaged =>
    obtain rfl := Option.some.inj hstep
    rw [apply_eq]
    exact unique_ensureExe_iff rt exePath proxyId source isPersistent sessionId ipcManaged h
  | ensureTargetRoute rt target proxyId source isPersistent sessionId ipcManaged =>
    obtain rfl := Option.some.inj hstep
    rw [apply_eq, change, ensureTarget, AddsFresh]
    split_ifs
    · exact unique_ensureExe_iff rt target.exePath proxyId source isPersistent sessionId ipcManaged h
    · rw [Change.apply, unique_ensure_iff _ h]
      exact ⟨fun hfresh hfind => hfresh hfind _ rfl,
        fun hfresh hfind route hmade => Option.some.inj hmade ▸ hfresh hfind⟩
  | importPersistentRoutes s stored =>
    obtain rfl := Option.some.inj hstep
    exact unique_import_iff s stored h
  | removeRouteByExe rt exePath proxyId =>
    obtain rfl := Option.some.inj hstep
    exact iff_of_true (h.sublist List.eraseP_sublist) trivial
  | removeRoute routeId =>
    obtain rfl := Option.some.inj hstep
    exact iff_of_true (h.sublist List.eraseP_sublist) trivial
  | removeTmpRoutesForSession sessionId =>
    obtain rfl := Option.some.inj hstep
    refine iff_of_true ?_ trivial
    rw [apply_eq, change]
    split_ifs
    · exact h
    · exact h.sublist List.filter_sublist

end Steps

section Runs
variable (upper : Char → Char)

/-- A run from an empty table has one route for each key and each path precisely when every route
    that it adds is free in what the lookup before it leaves out. -/
theorem always_unique_routes_iff (events : List Event) :
    Always (step upper) (Unique upper) [] events ↔ Meets (step upper) (AddsFresh upper) [] events :=
  always_iff_meets (I := fun _ => True) (fun _ _ _ _ _ => trivial)
    (fun _ _ _ _ hroutes hstep => unique_step hroutes hstep) events trivial List.Pairwise.nil

end Runs

def noteShortcut : LaunchTarget :=
  { launchKind := .shortcut, exePath := "C:\\apps\\note.exe".toList
    processName := "note.exe".toList, shortcutPath := "C:\\apps\\Note.lnk".toList }

def dropBoth : List Event :=
  [.ensureRoute plainRuntime "C:\\apps\\note.exe".toList "clash".toList "drop-zone-set".toList true
      none false,
    .ensureTargetRoute plainRuntime noteShortcut "clash".toList "drop-zone-set".toList true none false]

theorem shortcut_repeats_path :
    ¬∀ (upper : Char → Char) (events : List Event), Always (step upper) (Unique upper) [] events := by
  intro h
  have hlast := (always_iff_reached _ _).mp (h Char.toUpper dropBoth) dropBoth [] _
    (List.append_nil _).symm rfl
  have hpair := List.rel_of_pairwise_cons hlast (List.mem_singleton_self _)
  exact hpair.2 ⟨rfl, by decide, by decide⟩

end ProxySwitch.RouteUniqueness
