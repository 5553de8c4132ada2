import Mathlib.Data.List.Forall2
import ProxySwitch.IdentityMatching

set_option autoImplicit false

/-!
# Reloading the services

`SetupServices` over the routes of the two files: `proxyswitch.json`, which Settings saves, and
the `app-config.json` that the last `WriteConfig` left. The first is loaded, the second is
imported into it, paths under WindowsApps are migrated, and the second is written anew.
-/
namespace ProxySwitch.RuntimeReload
open AppRoutes IdentityMatching RuntimeStrings
open SessionMatching (startsWithIgnoreCase)

/-- `listed` are the routes whose names the rules have. -/
structure AppConfigFile where
  appRoutes : List AppRoute
  listed : List AppRoute

/-- There is no `appConfig` if `ConfigPath` is empty or the file is missing or not readable. -/
structure Files where
  proxyswitch : List AppRoute
  appConfig : Option AppConfigFile

/-- What one call of `SetupServices` finds: the platform, the backend settings, and whether its
    writes succeed. `GetFullPath` may throw. -/
structure Setup where
  rt : Runtime
  backend : Backend
  write : ConfigWrite
  importSaved : Bool
  migrationSaved : Bool
  getFullPath : Text → Option Text
  windowsApps : Text

def persistent (routes : List AppRoute) : List AppRoute := routes.filter (·.isPersistent)

def Files.saveSwitchConfig (files : Files) (routes : List AppRoute) : Files :=
  { files with proxyswitch := persistent routes }

section Setup
variable (s : Setup)

def importable (route : AppRoute) : Bool :=
  route.enabled && route.isPersistent && route.proxyId != []

def isKnown (routes : List AppRoute) (route : AppRoute) : Bool :=
  routes.any fun existing => existing.proxyId == route.proxyId &&
    getStableRouteKey s.rt existing == getStableRouteKey s.rt route

def importRoute (routes : List AppRoute) (route : AppRoute) : List AppRoute :=
  if importable route && !isKnown s routes route then routes ++ [route] else routes

def importPersistentRoutesFromAppConfig (files : Files) (routes : List AppRoute) :
    List AppRoute × Files :=
  match files.appConfig with
  | none => (routes, files)
  | some appConfig =>
    let all := appConfig.appRoutes.foldl (importRoute s) routes
    (all, if routes.length < all.length && s.importSaved then files.saveSwitchConfig all else files)

/-- One turn of the loop, with whether it migrates the route; `none` is an exception. -/
def migrateRoute (route : AppRoute) : Option (AppRoute × Bool) :=
  if route.matchKind ≠ .path ∨ route.exePath = [] then some (route, false)
  else (s.getFullPath route.exePath).bind fun fullExe =>
    if startsWithIgnoreCase s.rt.upper fullExe s.windowsApps then
      (s.rt.tryResolveMsixIdentity route.exePath).map fun
        | some (pfn, relExe) =>
          ({ route with
              matchKind := .msixPackage
              packageFamilyName := pfn
              packageRelativeExePath := relExe
              resolvedExePath := fullExe
              resolvedAt := some s.write.now }, true)
        | none => (route, false)
    else some (route, false)

/-- The routes after the loop, or where it was left, and how many were migrated. -/
def migrateWindowsAppsRoutes : List AppRoute → List AppRoute × Option ℕ
  | [] => ([], some 0)
  | route :: rest =>
    match migrateRoute s route with
    | none => (route :: rest, none)
    | some (migrated, counts) =>
      let (others, count) := migrateWindowsAppsRoutes rest
      (migrated :: others, count.map (· + counts.toNat))

def writeAppConfig (files : Files) (routes : List AppRoute) : List AppRoute × Files :=
  let listed := (routes.filter fun r => (writtenName s.rt s.backend s.write r).isSome).map
    (s.write.refresh s.rt s.backend)
  let (written, routes) := writeConfig s.rt s.backend s.write routes
  (routes, if written then
    { files with appConfig := some ⟨routes.filter fun r => r.isPersistent && r.enabled, listed⟩ }
  else files)

def setupServices (files : Files) (routes : List AppRoute) : List AppRoute × Files :=
  let (routes, files) :=
    if s.backend.configured then importPersistentRoutesFromAppConfig s files routes
    else (routes, files)
  match migrateWindowsAppsRoutes s routes with
  | (routes, none) => (routes, files)
  | (routes, some migrated) =>
    let files := if 0 < migrated && s.migrationSaved then files.saveSwitchConfig routes else files
    if s.backend.configured then writeAppConfig s files routes else (routes, files)

/-- `LoadConfig` and `SetupServices`: the routes in memory, and the files. -/
def reloadRuntimeServices (files : Files) : List AppRoute × Files :=
  setupServices s files files.proxyswitch

end Setup

def plainSetup : Setup where
  rt := plainRuntime
  backend := ⟨true, .running, true, ["clash".toList]⟩
  write := ⟨true, true, fun _ _ => none, 0⟩
  importSaved := true
  migrationSaved := true
  getFullPath := some
  windowsApps := "C:\\Program Files\\WindowsApps".toList

/-- `OnSave` of Settings. -/
def onSave (edited : List AppRoute) (files : Files) : Files := { files with proxyswitch := edited }

/-- `b` is the route `a` as the resolution of a package path and the migration of a path under
    WindowsApps may leave it. -/
def SameRoute (a b : AppRoute) : Prop :=
  ∃ path time, b = { a with resolvedExePath := path, resolvedAt := time } ∨
    ∃ pfn relExe, a.matchKind = .path ∧ b =
      { a with
        matchKind := .msixPackage
        packageFamilyName := pfn
        packageRelativeExePath := relExe
        resolvedExePath := path
        resolvedAt := time }

abbrev SameRoutes : List AppRoute → List AppRoute → Prop := List.Forall₂ SameRoute

section Routes
variable {s : Setup} {a b : AppRoute} {l l' : List AppRoute} {files : Files}

theorem sameRoute_refl (a : AppRoute) : SameRoute a a := ⟨a.resolvedExePath, a.resolvedAt, .inl rfl⟩

theorem sameRoute_isPersistent (h : SameRoute a b) : b.isPersistent = a.isPersistent := by
  obtain ⟨path, time, rfl | ⟨pfn, relExe, -, rfl⟩⟩ := h <;> rfl

theorem sameRoute_sessionId (h : SameRoute a b) : b.sessionId = a.sessionId := by
  obtain ⟨path, time, rfl | ⟨pfn, relExe, -, rfl⟩⟩ := h <;> rfl

theorem sameRoute_migrateRoute {counts : Bool} (h : migrateRoute s a = some (b, counts)) :
    SameRoute a b := by
  unfold migrateRoute at h
  split at h
  · cases h
    exact sameRoute_refl a
  · rename_i hpath
    simp only [not_or, not_not] at hpath
    obtain ⟨fullExe, -, h⟩ := Option.bind_eq_some_iff.mp h
    split at h
    · obtain ⟨identity, -, h⟩ := Option.map_eq_some_iff.mp h
      cases identity with
      | none =>
        cases h
        exact sameRoute_refl a
      | some identity =>
        cases h
        exact ⟨_, _, .inr ⟨_, _, hpath.1, rfl⟩⟩
    · cases h
      exact sameRoute_refl a

theorem sameRoute_refresh (h : SameRoute a b) :
    SameRoute a (s.write.refresh s.rt s.backend b) := by
  obtain ⟨path', time', hrefresh⟩ := refresh_eq s.rt s.backend s.write b
  rw [hrefresh]
  obtain ⟨path, time, rfl | ⟨pfn, relExe, hkind, rfl⟩⟩ := h
  · exact ⟨path', time', .inl rfl⟩
  · exact ⟨path', time', .inr ⟨pfn, relExe, hkind, rfl⟩⟩

theorem sameRoutes_refl (l : List AppRoute) : SameRoutes l l :=
  List.forall₂_same.mpr fun a _ => sameRoute_refl a

theorem sameRoutes_persistent (h : SameRoutes l l') : SameRoutes (persistent l) (persistent l') := by
  induction h with
  | nil => exact .nil
  | cons hsame hrest ih =>
    unfold persistent at *
    rw [List.filter_cons, List.filter_cons, sameRoute_isPersistent hsame]
    split
    · exact .cons hsame ih
    · exact ih

theorem sameRoutes_migrate (l : List AppRoute) :
    SameRoutes l (migrateWindowsAppsRoutes s l).1 := by
  induction l with
  | nil => exact .nil
  | cons a rest ih =>
    unfold migrateWindowsAppsRoutes
    cases hmigrate : migrateRoute s a with
    | none => exact sameRoutes_refl _
    | some migrated => exact .cons (sameRoute_migrateRoute hmigrate) ih

theorem sameRoutes_writeAppConfig (h : SameRoutes l l') :
    SameRoutes l (writeAppConfig s files l').1 :=
  List.forall₂_map_right_iff.mpr (h.imp fun _ _ hsame => sameRoute_refresh hsame)

theorem writeAppConfig_proxyswitch (s : Setup) (files : Files) (routes : List AppRoute) :
    (writeAppConfig s files routes).2.proxyswitch = files.proxyswitch := by
  simp only [writeAppConfig]
  split <;> rfl

/-- The import appends the routes that are not known, which are persistent. -/
theorem foldl_importRoute (stale : List AppRoute) : ∃ added,
    stale.foldl (importRoute s) l = l ++ added ∧ persistent added = added ∧
      (added = [] ↔ ∀ route ∈ stale, importable route = true → isKnown s l route = true) := by
  induction stale generalizing l with
  | nil => exact ⟨[], (List.append_nil l).symm, rfl, iff_of_true rfl (List.forall_mem_nil _)⟩
  | cons route rest ih =>
    rw [List.foldl_cons]
    by_cases hnew : (importable route && !isKnown s l route) = true
    · obtain ⟨added, hfold, hpersistent, -⟩ := ih (l := l ++ [route])
      obtain ⟨himport, hunknown⟩ := Bool.and_eq_true_iff.mp hnew
      refine ⟨route :: added, ?_, ?_, iff_of_false (List.cons_ne_nil _ _) fun hknown => ?_⟩
      · rw [importRoute, if_pos hnew, hfold, List.append_assoc, List.singleton_append]
      · simp only [importable, Bool.and_eq_true] at himport
        rw [persistent, List.filter_cons, if_pos himport.1.2]
        exact congrArg _ hpersistent
      · rw [hknown route List.mem_cons_self himport] at hunknown
        cases hunknown
    · obtain ⟨added, hfold, hpersistent, hnone⟩ := ih (l := l)
      refine ⟨added, ?_, hpersistent, hnone.trans ?_⟩
      · rw [importRoute, if_neg hnew, hfold]
      · rw [List.forall_mem_cons]
        refine (and_iff_right fun himport => ?_).symm
        simpa [himport] using hnew

/-- The routes of `proxyswitch.json` with those that are imported from the other file. -/
def loaded (s : Setup) (files : Files) : List AppRoute :=
  if s.backend.configured then
    (importPersistentRoutesFromAppConfig s files files.proxyswitch).1
  else files.proxyswitch

/-- If the backend is an enabled `proxifyre` one and its `app-config.json` can be read, every
    enabled persistent route in it that has a proxy has the proxy and the stable key of a route
    that was saved. -/
def NothingStale (s : Setup) (edited : List AppRoute) (files : Files) : Prop :=
  s.backend.configured = true → ∀ appConfig, files.appConfig = some appConfig →
    ∀ route ∈ appConfig.appRoutes, importable route = true → isKnown s edited route = true

theorem loaded_onSave (s : Setup) (edited : List AppRoute) (files : Files) : ∃ added,
    loaded s (onSave edited files) = edited ++ added ∧ persistent added = added ∧
      (added = [] ↔ NothingStale s edited files) := by
  unfold loaded NothingStale
  cases s.backend.configured with
  | false => exact ⟨[], (List.append_nil _).symm, rfl, iff_of_true rfl nofun⟩
  | true =>
    simp only [if_true, importPersistentRoutesFromAppConfig, onSave, forall_const]
    cases files.appConfig with
    | none => exact ⟨[], (List.append_nil _).symm, rfl, iff_of_true rfl nofun⟩
    | some appConfig =>
      obtain ⟨added, hfold, hpersistent, hnone⟩ :=
        foldl_importRoute (s := s) (l := edited) appConfig.appRoutes
      refine ⟨added, hfold, hpersistent, hnone.trans ?_⟩
      simp only [Option.some.injEq, forall_eq']

/-- `proxyswitch.json` is as it was, or has the persistent ones of what was loaded; the other file
    is as it was. -/
def Saved (s : Setup) (files saved : Files) : Prop :=
  saved.appConfig = files.appConfig ∧ (saved.proxyswitch = files.proxyswitch ∨
    ∃ l, SameRoutes (loaded s files) l ∧ saved.proxyswitch = persistent l)

theorem import_files (s : Setup) (files : Files) (routes : List AppRoute) :
    (importPersistentRoutesFromAppConfig s files routes).2 = files ∨
      (importPersistentRoutesFromAppConfig s files routes).2 =
        files.saveSwitchConfig (importPersistentRoutesFromAppConfig s files routes).1 := by
  unfold importPersistentRoutesFromAppConfig
  split
  · exact .inl rfl
  · dsimp only
    split
    · exact .inr rfl
    · exact .inl rfl

theorem import_spec (s : Setup) (files : Files) :
    let imported := if s.backend.configured then
      importPersistentRoutesFromAppConfig s files files.proxyswitch else (files.proxyswitch, files)
    imported.1 = loaded s files ∧ Saved s files imported.2 := by
  unfold Saved loaded
  cases s.backend.configured with
  | false => exact ⟨rfl, rfl, .inl rfl⟩
  | true =>
    refine ⟨rfl, ?_⟩
    simp only [if_true]
    obtain h | h := import_files s files files.proxyswitch
    · rw [h]
      exact ⟨rfl, .inl rfl⟩
    · rw [h]
      exact ⟨rfl, .inr ⟨_, sameRoutes_refl _, rfl⟩⟩

/-- What was loaded, with some of it migrated, is written to `app-config.json` if the backend is
    an enabled `proxifyre` one and the migration does not throw. -/
theorem reload_cases (s : Setup) (files : Files) : ∃ l saved, SameRoutes (loaded s files) l ∧
    Saved s files saved ∧ reloadRuntimeServices s files =
      if s.backend.configured && (migrateWindowsAppsRoutes s (loaded s files)).2.isSome then
        writeAppConfig s saved l
      else (l, saved) := by
  have himport := import_spec s files
  unfold reloadRuntimeServices setupServices
  generalize (if s.backend.configured = true then
    importPersistentRoutesFromAppConfig s files files.proxyswitch else (files.proxyswitch, files)) =
      imported at himport
  obtain ⟨routes, before⟩ := imported
  obtain ⟨rfl, hbefore⟩ : routes = loaded s files ∧ Saved s files before := himport
  have hmigrate := sameRoutes_migrate (s := s) (loaded s files)
  dsimp only at hmigrate ⊢
  generalize migrateWindowsAppsRoutes s (loaded s files) = migrated at hmigrate
  obtain ⟨routes, count⟩ := migrated
  cases count with
  | none => exact ⟨routes, before, hmigrate, hbefore, by simp⟩
  | some count =>
    refine ⟨routes, if 0 < count && s.migrationSaved then before.saveSwitchConfig routes else before,
      hmigrate, ?_, by simp⟩
    split
    · exact ⟨hbefore.1, .inr ⟨routes, hmigrate, rfl⟩⟩
    · exact hbefore

theorem reload_spec (s : Setup) (files : Files) :
    SameRoutes (loaded s files) (reloadRuntimeServices s files).1 ∧
      ((reloadRuntimeServices s files).2.proxyswitch = files.proxyswitch ∨
        ∃ l, SameRoutes (loaded s files) l ∧
          (reloadRuntimeServices s files).2.proxyswitch = persistent l) := by
  obtain ⟨l, saved, hl, hsaved, hreload⟩ := reload_cases s files
  rw [hreload]
  split
  · rw [writeAppConfig_proxyswitch]
    exact ⟨sameRoutes_writeAppConfig hl, hsaved.2⟩
  · exact ⟨hl, hsaved.2⟩

/-- `SetupServices` comes to write `app-config.json`, and succeeds. -/
def rewrites (s : Setup) (files : Files) : Bool :=
  s.backend.configured && (migrateWindowsAppsRoutes s (loaded s files)).2.isSome &&
    (s.write.built && s.write.written)

theorem writeAppConfig_appConfig (h : SameRoutes l l') :
    (s.write.built && s.write.written) = false ∧
        (writeAppConfig s files l').2.appConfig = files.appConfig ∨
      (s.write.built && s.write.written) = true ∧ ∃ appConfig,
        (writeAppConfig s files l').2.appConfig = some appConfig ∧
          ∀ b ∈ appConfig.listed, ∃ a ∈ l, SameRoute a b := by
  rw [← show (writeConfig s.rt s.backend s.write l').1 = (s.write.built && s.write.written) from rfl]
  unfold writeAppConfig
  dsimp only
  by_cases hwritten : (writeConfig s.rt s.backend s.write l').1 = true
  · rw [if_pos hwritten]
    refine .inr ⟨hwritten, _, rfl, fun b hb => ?_⟩
    obtain ⟨c, hc, rfl⟩ := List.mem_map.mp hb
    obtain ⟨i, hi, rfl⟩ := List.getElem_of_mem (List.mem_filter.mp hc).1
    have hsame := h.get (h.length_eq ▸ hi) hi
    exact ⟨_, List.get_mem _ _, sameRoute_refresh hsame⟩
  · rw [if_neg hwritten]
    exact .inl ⟨eq_false_of_ne_true hwritten, rfl⟩

theorem reload_appConfig (s : Setup) (files : Files) :
    rewrites s files = false ∧
        (reloadRuntimeServices s files).2.appConfig = files.appConfig ∨
      rewrites s files = true ∧ ∃ appConfig,
        (reloadRuntimeServices s files).2.appConfig = some appConfig ∧
          ∀ b ∈ appConfig.listed, ∃ a ∈ loaded s files, SameRoute a b := by
  obtain ⟨l, saved, hl, hsaved, hreload⟩ := reload_cases s files
  rw [hreload]
  unfold rewrites
  split
  · rename_i hcomes
    rw [hcomes, Bool.true_and, ← hsaved.1]
    exact writeAppConfig_appConfig hl
  · rename_i hstops
    rw [eq_false_of_ne_true hstops]
    exact .inl ⟨rfl, hsaved.1⟩

end Routes

end ProxySwitch.RuntimeReload
