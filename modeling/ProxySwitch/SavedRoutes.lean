import ProxySwitch.RouteEdits
import ProxySwitch.RuntimeReload
import ProxySwitch.TransitionRuns

set_option autoImplicit false

namespace ProxySwitch.SavedRoutes
open AppRoutes KeyedLists RouteEdits RouteStore RuntimeReload RuntimeStrings TransitionRuns

/-- `saved` are the `appRoutes` that `proxyswitch.json` got last. -/
structure World where
  routes : List AppRoute
  saved : List AppRoute

section Decisions
variable (rt : Runtime) (found : FoundProcess) (route : AppRoute)

/-- `changed` of `UpdateStoreAppRouteFromCandidate`. -/
def learns : Bool :=
  (found.name ≠ [] && !equalsIgnoreCase rt.upper route.processName found.name) ||
    (found.executablePath ≠ [] && !equalsIgnoreCase rt.upper route.resolvedExePath found.executablePath)

/-- `changed` of `TryConfirmRouteFromProcess`, which gives up on another name. -/
def confirms : Bool :=
  !(found.name ≠ [] && route.processName ≠ [] && !equalsIgnoreCase rt.upper route.processName found.name) &&
    ((found.name ≠ [] && route.processName = []) ||
      (found.executablePath ≠ [] && route.resolvedExePath = []))

/-- A call of `EnsureRoute` saves a change if there is anything to save. -/
def savesEnsured (ensured : Option (EnsureRouteResult × List AppRoute)) : Bool :=
  ensured.any fun result => result.1.changed && result.2.any (·.isPersistent)

/-- Whether the operation calls `SaveSwitchConfig`. -/
def saves (routes : List AppRoute) : Edit → Bool
  | .ensureRoute rt exePath proxyId source isPersistent sessionId ipcManaged =>
    savesEnsured (AppRoutes.ensureRoute rt exePath proxyId source isPersistent sessionId ipcManaged
      routes)
  | .ensureTargetRoute rt target proxyId source isPersistent sessionId ipcManaged =>
    savesEnsured (AppRoutes.ensureTargetRoute rt target proxyId source isPersistent sessionId
      ipcManaged routes)
  | .removeRouteByExe rt exePath proxyId =>
    (routes.find? (matchesExe rt exePath proxyId)).any (·.isPersistent)
  | .removeRoute routeId => (routes.find? (·.id == routeId)).any (·.isPersistent)
  | .removeTmpRoutesForSession _ | .purgeTmpRoutes => false
  | .updateStoreAppRoute rt _ session found =>
    session.proxyId ≠ [] && (routes.find? (isStoreAppRoute rt session)).any (learns rt found)
  | .confirmRoute rt _ session found =>
    !(session.ipcManaged || !session.needsProcessConfirmation) &&
      (routes.find? fun route => route.proxyId == session.proxyId &&
        route.matchKind == .appUserModelId && ofSession rt session route).any (confirms rt found)

end Decisions

/-- `WriteConfig` writes another file; it is called after many of the operations. -/
inductive Event
  | edit (e : Edit)
  | importPersistentRoutes (s : Setup) (stored : List AppRoute)
  | writeConfig (rt : Runtime) (backend : Backend) (write : ConfigWrite)

def World.update (w : World) (routes : List AppRoute) (save : Bool) : World :=
  ⟨routes, if save then persistent routes else w.saved⟩

def step (w : World) : Event → Option World
  | .edit e => some (w.update (e.apply w.routes) (saves w.routes e))
  | .importPersistentRoutes s stored =>
    let routes := stored.foldl (importRoute s) w.routes
    some (w.update routes (decide (w.routes.length < routes.length)))
  | .writeConfig rt backend write =>
    some (w.update (writeConfig rt backend write w.routes).2 false)

def SameButCache (a b : AppRoute) : Prop :=
  ∃ path time, b = { a with resolvedExePath := path, resolvedAt := time }

/-- The file has the persistent routes in their order, each up to its resolution cache. -/
def Synced (w : World) : Prop := List.Forall₂ SameButCache (persistent w.routes) w.saved

section Edits
variable {rt : Runtime} {found : FoundProcess} {routes : List AppRoute}

theorem learn_eq_self {now : ℕ} {route : AppRoute} (h : learns rt found route = false) :
    learnPath rt now found (learnName rt found route) = route := by
  simp only [learns, Bool.or_eq_false_iff, Bool.and_eq_false_iff, decide_eq_false_iff_not,
    Bool.not_eq_false'] at h
  obtain ⟨hname, hpath⟩ := h
  have hsame : learnName rt found route = route := by
    refine if_neg fun hlearn => ?_
    rcases hname with hempty | hequal
    · exact hempty hlearn.1
    · exact absurd (hequal.symm.trans hlearn.2) (by decide)
  rw [hsame]
  refine if_neg fun hlearn => ?_
  rcases hpath with hempty | hequal
  · exact hempty hlearn.1
  · exact absurd (hequal.symm.trans hlearn.2) (by decide)

theorem confirm_eq_self {now : ℕ} {route : AppRoute} (h : confirms rt found route = false) :
    confirm rt now found route = route := by
  unfold confirm
  split
  · rfl
  · rename_i hmatch
    simp only [confirms, Bool.and_eq_false_iff, Bool.or_eq_false_iff, Bool.not_eq_false',
      Bool.and_eq_true, decide_eq_true_eq, Bool.not_eq_true', decide_eq_false_iff_not] at h
    rcases h with hmismatch | ⟨hname, hpath⟩
    · exact absurd ⟨hmismatch.1.1, hmismatch.1.2, hmismatch.2⟩ hmatch
    · rw [if_neg fun hlearn => hpath.elim (· hlearn.1) (· hlearn.2),
        if_neg fun hlearn => hname.elim (· hlearn.1) (· hlearn.2)]

theorem ensureRoute_unchanged {exePath proxyId source : Text} {isPersistent : Bool}
    {sessionId : Option Text} {ipcManaged : Bool} {result : EnsureRouteResult}
    {routes' : List AppRoute}
    (h : ensureRoute rt exePath proxyId source isPersistent sessionId ipcManaged routes =
      some (result, routes')) (hchanged : result.changed = false) : routes' = routes := by
  unfold ensureRoute at h
  split at h
  · exact (Prod.mk.inj (Option.some.inj h)).2.symm
  · split at h
    · rename_i existing hfind
      obtain ⟨rfl, rfl⟩ := Prod.mk.inj (Option.some.inj h)
      refine updateFirst_eq_self fun found hfound => ?_
      obtain rfl := Option.some.inj (hfind.symm.trans hfound)
      exact of_not_not (of_decide_eq_false hchanged)
    · obtain ⟨msix, -, hmade⟩ := Option.map_eq_some_iff.mp h
      obtain rfl := (Prod.mk.inj hmade).1
      cases hchanged

theorem ensureTargetRoute_unchanged {target : LaunchTarget} {proxyId source : Text}
    {isPersistent : Bool} {sessionId : Option Text} {ipcManaged : Bool} {result : EnsureRouteResult}
    {routes' : List AppRoute}
    (h : ensureTargetRoute rt target proxyId source isPersistent sessionId ipcManaged routes =
      some (result, routes')) (hchanged : result.changed = false) : routes' = routes := by
  unfold ensureTargetRoute at h
  split at h
  · exact ensureRoute_unchanged h hchanged
  · split at h
    · rename_i existing hfind
      obtain ⟨rfl, rfl⟩ := Prod.mk.inj (Option.some.inj h)
      refine updateFirst_eq_self fun found hfound => ?_
      obtain rfl := Option.some.inj (hfind.symm.trans hfound)
      exact of_not_not (of_decide_eq_false hchanged)
    · obtain rfl := (Prod.mk.inj (Option.some.inj h)).1
      cases hchanged

theorem persistent_of_none {e : Edit} (hremoval : isRemoval e = false)
    (h : (e.apply routes).any (·.isPersistent) = false) :
    persistent (e.apply routes) = persistent routes := by
  have hafter : persistent (e.apply routes) = [] :=
    List.filter_eq_nil_iff.mpr fun route hroute => List.any_eq_false.mp h route hroute
  have hids := persistentIds_sublist hremoval routes
  have hnil : persistentIds (e.apply routes) = [] := congrArg (List.map AppRoute.id) hafter
  rw [hnil, List.sublist_nil] at hids
  rw [hafter, persistent, List.map_eq_nil_iff.mp hids]

/-- A call of `EnsureRoute` that does not save changed nothing, or leaves no persistent route. -/
theorem persistent_of_ensured {e : Edit} {ensured : Option (EnsureRouteResult × List AppRoute)}
    (hremoval : isRemoval e = false) (hthrown : ensured = none → e.apply routes = routes)
    (hreturned : ∀ result routes', ensured = some (result, routes') →
      e.apply routes = routes' ∧ (result.changed = false → routes' = routes))
    (h : savesEnsured ensured = false) : persistent (e.apply routes) = persistent routes := by
  cases hensured : ensured with
  | none => rw [hthrown hensured]
  | some result =>
    obtain ⟨happly, hunchanged⟩ := hreturned result.1 result.2 hensured
    rw [hensured, savesEnsured, Option.any_some, Bool.and_eq_false_iff] at h
    rcases h with hchanged | hnone
    · rw [happly, hunchanged hchanged]
    · rw [← happly] at hnone
      exact persistent_of_none hremoval hnone

theorem persistent_of_not_saves {e : Edit} (h : saves routes e = false) :
    persistent (e.apply routes) = persistent routes := by
  cases e with
  | ensureRoute rt exePath proxyId source isPersistent sessionId ipcManaged =>
    refine persistent_of_ensured rfl (fun hthrown => ?_) (fun result routes' hreturned => ⟨?_, ?_⟩) h
    · simp only [Edit.apply, hthrown]
    · simp only [Edit.apply, hreturned]
    · exact ensureRoute_unchanged hreturned
  | ensureTargetRoute rt target proxyId source isPersistent sessionId ipcManaged =>
    refine persistent_of_ensured rfl (fun hthrown => ?_) (fun result routes' hreturned => ⟨?_, ?_⟩) h
    · simp only [Edit.apply, hthrown]
    · simp only [Edit.apply, hreturned]
    · exact ensureTargetRoute_unchanged hreturned
  | removeRouteByExe rt exePath proxyId =>
    exact filter_eraseP fun route hfind => by simpa [saves, hfind] using h
  | removeRoute routeId => exact filter_eraseP fun route hfind => by simpa [saves, hfind] using h
  | removeTmpRoutesForSession sessionId =>
    rw [apply_eq, change]
    split_ifs
    · rfl
    · exact persistent_dropTemporary routes _
  | purgeTmpRoutes =>
    rw [apply_eq]
    exact persistent_dropTemporary routes _
  | updateStoreAppRoute rt now session found =>
    rw [apply_eq, change]
    split_ifs with hproxy
    · rfl
    · refine congrArg persistent (updateFirst_eq_self fun route hfind => learn_eq_self ?_)
      simpa [saves, hproxy, hfind] using h
  | confirmRoute rt now session found =>
    rw [apply_eq, change]
    split_ifs with hskip
    · rfl
    · refine congrArg persistent (updateFirst_eq_self fun route hfind => confirm_eq_self ?_)
      simpa [saves, eq_false_of_ne_true hskip, hfind] using h

end Edits

section Steps
variable {w w' : World}

theorem sameButCache_refl (a : AppRoute) : SameButCache a a := ⟨a.resolvedExePath, a.resolvedAt, rfl⟩

theorem synced_of_saved (routes : List AppRoute) : Synced (w.update routes true) :=
  List.forall₂_same.mpr fun a _ => sameButCache_refl a

theorem synced_update {routes : List AppRoute} {save : Bool} (h : Synced w)
    (hsave : save = false → persistent routes = persistent w.routes) :
    Synced (w.update routes save) := by
  cases save with
  | true => exact synced_of_saved routes
  | false =>
    unfold Synced World.update
    rw [hsave rfl]
    exact h

/-- What `WriteConfig` does to the table is not seen up to the caches. -/
theorem synced_writeConfig (rt : Runtime) (backend : Backend) (write : ConfigWrite) (h : Synced w) :
    Synced (w.update (writeConfig rt backend write w.routes).2 false) := by
  have hroutes : persistent (w.routes.map (write.refresh rt backend)) =
      (persistent w.routes).map (write.refresh rt backend) := by
    unfold persistent
    rw [List.filter_map]
    exact congrArg (List.map _) (List.filter_congr fun route _ =>
      refresh_isPersistent rt backend write route)
  unfold Synced World.update writeConfig
  rw [hroutes]
  refine List.forall₂_map_left_iff.mpr (h.imp fun a b hsame => ?_)
  obtain ⟨path, time, hrefresh⟩ := refresh_eq rt backend write a
  obtain ⟨path', time', rfl⟩ := hsame
  rw [hrefresh]
  exact ⟨path', time', rfl⟩

theorem synced_step {e : Event} (h : Synced w) (hstep : step w e = some w') : Synced w' := by
  cases e with
  | edit e =>
    obtain rfl := Option.some.inj hstep
    exact synced_update h persistent_of_not_saves
  | importPersistentRoutes s stored =>
    obtain rfl := Option.some.inj hstep
    refine synced_update h fun hkept => ?_
    obtain ⟨added, hall, -⟩ := foldl_importRoute (s := s) (l := w.routes) stored
    rw [hall, List.length_append] at hkept
    have hnone : added = [] := by
      apply List.eq_nil_of_length_eq_zero
      have hlength := of_decide_eq_false hkept
      omega
    rw [hall, hnone, List.append_nil]
  | writeConfig rt backend write =>
    obtain rfl := Option.some.inj hstep
    exact synced_writeConfig rt backend write h

end Steps

/-- With successful writes the file has the persistent routes after every run from a state in
    which it has them. -/
theorem always_synced (w : World) (events : List Event) (h : Synced w) : Always step Synced w events :=
  always_of_invariant (fun _ _ _ hs hstep => synced_step hs hstep) events h

def dropTwice : List Event :=
  [.edit (.ensureRoute plainRuntime "C:\\apps\\note.exe".toList "clash".toList
      "drop-zone-tmp".toList false (some "s1".toList) true),
    .edit (.ensureRoute plainRuntime "C:\\apps\\note.exe".toList "clash".toList
      "drop-zone-set".toList true none true),
    .edit (.removeTmpRoutesForSession "s1".toList)]

theorem always_synced_dropTwice : Always step Synced ⟨[], []⟩ dropTwice :=
  always_synced ⟨[], []⟩ dropTwice List.Forall₂.nil

example : ((exec step ⟨[], []⟩ dropTwice).map fun w => w.saved.map AppRoute.sessionId) =
    some [none] := by decide

end ProxySwitch.SavedRoutes
