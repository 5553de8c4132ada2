import ProxySwitch.RouteEdits
import ProxySwitch.RuntimeReload
import ProxySwitch.TransitionRuns

set_option autoImplicit false

namespace ProxySwitch.StableKeys
open AppRoutes KeyedLists RouteEdits RouteStore RuntimeReload RuntimeStrings TransitionRuns

/-- A route with its history: whether `EnsureRoute` made it, and the keys that the sessions got for
    it. -/
structure Entry where
  route : AppRoute
  created : Bool
  handed : List Text := []

def routesOf (entries : List Entry) : List AppRoute := entries.map Entry.route

section Updates
variable (upper : Char → Char)

def Entry.reuse (c : Ensuring) (entry : Entry) : Entry :=
  { entry with
    route := c.reuse entry.route
    handed := keyOf upper (c.reuse entry.route) :: entry.handed }

def Entry.change (f : AppRoute → AppRoute) (entry : Entry) : Entry := { entry with route := f entry.route }

def Entry.reload (path : AppRoute → Text) (time : AppRoute → Option ℕ) (entry : Entry) : Entry :=
  { entry with
    route := { entry.route with resolvedExePath := path entry.route, resolvedAt := time entry.route }
    handed := [] }

def create (route : AppRoute) : Entry := ⟨route, true, [keyOf upper route]⟩

def track (entries : List Entry) : Change → List Entry
  | .keep => entries
  | .ensure c =>
    match entries.find? (c.finds ·.route) with
    | some _ => updateFirst (c.finds ·.route) (Entry.reuse upper c) entries
    | none => entries ++ c.made.toList.map (create upper)
  | .remove p => entries.eraseP (p ·.route)
  | .dropTemporary p => entries.filter fun entry => entry.route.isPersistent || !p entry.route
  | .learn p f => updateFirst (p ·.route) (Entry.change f) entries

end Updates

def editWithUpper (upper : Char → Char) : Edit → Edit
  | .ensureRoute rt exePath proxyId source isPersistent sessionId ipcManaged =>
    .ensureRoute (withUpper upper rt) exePath proxyId source isPersistent sessionId ipcManaged
  | .ensureTargetRoute rt target proxyId source isPersistent sessionId ipcManaged =>
    .ensureTargetRoute (withUpper upper rt) target proxyId source isPersistent sessionId ipcManaged
  | .removeRouteByExe rt exePath proxyId => .removeRouteByExe (withUpper upper rt) exePath proxyId
  | .removeRoute routeId => .removeRoute routeId
  | .removeTmpRoutesForSession sessionId => .removeTmpRoutesForSession sessionId
  | .purgeTmpRoutes => .purgeTmpRoutes
  | .updateStoreAppRoute rt now session found =>
    .updateStoreAppRoute (withUpper upper rt) now session found
  | .confirmRoute rt now session found => .confirmRoute (withUpper upper rt) now session found

/-- `hasResolvableBackendAppName` resolves one route, `writeConfig` those that it writes; `add`
    stands for routes that come into the table from a file. A `restart` ends the sessions and keeps
    the persistent routes, the caches as the file has them. -/
inductive Event
  | edit (e : Edit)
  | hasResolvableBackendAppName (rt : Runtime) (write : ConfigWrite) (p : AppRoute → Bool)
  | writeConfig (rt : Runtime) (backend : Backend) (write : ConfigWrite)
  | add (routes : List AppRoute)
  | restart (path : AppRoute → Text) (time : AppRoute → Option ℕ)

def start (routes : List AppRoute) : List Entry := routes.map (⟨·, false, []⟩)

def step (upper : Char → Char) (entries : List Entry) : Event → Option (List Entry)
  | .edit e => some (track upper entries (RouteEdits.change (editWithUpper upper e)))
  | .hasResolvableBackendAppName rt write p =>
    some (updateFirst (p ·.route) (Entry.change fun r => (resolveBackendAppName rt write r).2) entries)
  | .writeConfig rt backend write => some (entries.map (Entry.change (write.refresh rt backend)))
  | .add routes => some (entries ++ start routes)
  | .restart path time =>
    some ((entries.filter (·.route.isPersistent)).map (Entry.reload path time))

/-- Every key that was handed out for a route that `EnsureRoute` made is its key still. -/
def KeysStable (upper : Char → Char) (entries : List Entry) : Prop :=
  ∀ entry ∈ entries, entry.created = true → ∀ key ∈ entry.handed, keyOf upper entry.route = key

section History
variable {upper : Char → Char} {entries : List Entry}

theorem find?_routesOf (p : AppRoute → Bool) :
    (routesOf entries).find? p = (entries.find? (p ·.route)).map Entry.route := List.find?_map

theorem routesOf_track (c : Change) : routesOf (track upper entries c) = c.apply (routesOf entries) := by
  cases c with
  | keep => rfl
  | ensure c =>
    unfold track Change.apply Ensuring.apply
    dsimp only
    rw [find?_routesOf]
    cases entries.find? (c.finds ·.route) with
    | some entry => exact map_updateFirst_comp fun _ => rfl
    | none =>
      dsimp only [Option.map_none]
      rw [routesOf, List.map_append, List.map_map]
      exact congrArg _ (List.map_id _)
  | remove p => exact List.eraseP_map.symm
  | dropTemporary p =>
    simp only [track, Change.apply, routesOf, List.filter_map]
    rfl
  | learn p f => exact map_updateFirst_comp fun _ => rfl

theorem handed_returned {c : Ensuring} {route : AppRoute}
    (h : c.returned (routesOf entries) = some route) :
    ∃ entry ∈ track upper entries (.ensure c), entry.route = route ∧
      keyOf upper route ∈ entry.handed := by
  unfold Ensuring.returned at h
  rw [find?_routesOf] at h
  simp only [track]
  cases hfind : entries.find? (c.finds ·.route) with
  | some entry =>
    rw [hfind] at h
    obtain rfl := Option.some.inj h
    exact ⟨Entry.reuse upper c entry, mem_updateFirst_of_find hfind, rfl, List.mem_cons_self⟩
  | none =>
    rw [hfind] at h
    refine ⟨create upper route, List.mem_append_right _ ?_, rfl, List.mem_singleton_self _⟩
    exact List.mem_map.mpr ⟨route, Option.mem_toList.mpr h, rfl⟩

section Results
variable {rt : Runtime} {proxyId source : Text} {isPersistent : Bool} {sessionId : Option Text}
  {ipcManaged : Bool} {routes routes' : List AppRoute} {result : EnsureRouteResult} {c : Ensuring}

theorem ensureRoute_routeKey {exePath : Text}
    (hc : ensureExe (withUpper upper rt) proxyId source isPersistent sessionId ipcManaged exePath =
      .ensure c)
    (h : ensureRoute (withUpper upper rt) exePath proxyId source isPersistent sessionId ipcManaged
      routes = some (result, routes')) :
    ∃ route, c.returned routes = some route ∧ result.routeKey = keyOf upper route := by
  unfold ensureExe at hc
  split at hc
  · cases hc
  · rename_i hboth
    obtain rfl := Change.ensure.inj hc
    rw [ensureRoute, if_neg hboth] at h
    simp only [Ensuring.returned]
    cases hfind : routes.find? (matchesExe (withUpper upper rt) exePath proxyId) with
    | some existing =>
      rw [hfind] at h
      obtain rfl := (Prod.mk.inj (Option.some.inj h)).1
      exact ⟨_, rfl, rfl⟩
    | none =>
      rw [hfind] at h
      obtain ⟨msix, hmsix, hmade⟩ := Option.map_eq_some_iff.mp h
      obtain rfl := (Prod.mk.inj hmade).1
      exact ⟨_, Option.map_eq_some_iff.mpr ⟨msix, hmsix, rfl⟩, rfl⟩

theorem ensureTargetRoute_routeKey {target : LaunchTarget}
    (hc : ensureTarget (withUpper upper rt) proxyId source isPersistent sessionId ipcManaged target =
      .ensure c)
    (h : ensureTargetRoute (withUpper upper rt) target proxyId source isPersistent sessionId
      ipcManaged routes = some (result, routes')) :
    ∃ route, c.returned routes = some route ∧ result.routeKey = keyOf upper route := by
  unfold ensureTarget at hc
  split at hc
  · rename_i hexe
    rw [ensureTargetRoute, if_pos hexe] at h
    exact ensureRoute_routeKey hc h
  · rename_i hother
    obtain rfl := Change.ensure.inj hc
    rw [ensureTargetRoute, if_neg hother] at h
    simp only [Ensuring.returned]
    cases hfind : routes.find? (matchesTarget target proxyId) with
    | some existing =>
      rw [hfind] at h
      obtain rfl := (Prod.mk.inj (Option.some.inj h)).1
      exact ⟨_, rfl, rfl⟩
    | none =>
      rw [hfind] at h
      obtain rfl := (Prod.mk.inj (Option.some.inj h)).1
      exact ⟨_, rfl, rfl⟩

end Results

end History

/-- What a route that `EnsureRoute` made keeps to. -/
structure Kept (upper : Char → Char) (entry : Entry) : Prop where
  storeApp : entry.route.launchKind = .appUserModelId → entry.route.matchKind = .appUserModelId
  keys : ∀ key ∈ entry.handed, keyOf upper entry.route = key

def Inv (upper : Char → Char) (entries : List Entry) : Prop :=
  ∀ entry ∈ entries, entry.created = true → Kept upper entry

section Steps
variable {upper : Char → Char} {entries entries' : List Entry}

/-- An update that shows neither in the kinds nor in the key. -/
theorem Kept.change {entry : Entry} {f : AppRoute → AppRoute} (h : Kept upper entry)
    (hlaunch : (f entry.route).launchKind = entry.route.launchKind)
    (hmatch : (f entry.route).matchKind = entry.route.matchKind)
    (hkey : keyOf upper (f entry.route) = keyOf upper entry.route) :
    Kept upper (entry.change f) :=
  ⟨fun hstore => hmatch.trans (h.storeApp (hlaunch.symm.trans hstore)),
    fun key hmem => hkey.trans (h.keys key hmem)⟩

theorem Kept.reuse {entry : Entry} (c : Ensuring) (h : Kept upper entry) :
    Kept upper (Entry.reuse upper c entry) := by
  have hkey : keyOf upper (c.reuse entry.route) = keyOf upper entry.route := by
    rw [Ensuring.reuse_eq]
    rfl
  refine ⟨fun hstore => ?_, fun key hmem => ?_⟩
  · have hkinds := h.storeApp
    unfold Entry.reuse at hstore ⊢
    rw [Ensuring.reuse_eq] at hstore ⊢
    exact hkinds hstore
  · rcases List.mem_cons.mp hmem with rfl | hold
    · rfl
    · exact hkey.trans (h.keys key hold)

/-- A store app's route is keyed by its AUMID, which no process teaches. -/
theorem Kept.learn {entry : Entry} {f : AppRoute → AppRoute} (h : Kept upper entry)
    (hlearned : Learned entry.route (f entry.route))
    (hkind : entry.route.launchKind = .appUserModelId ∨ entry.route.matchKind = .appUserModelId) :
    Kept upper (entry.change f) := by
  have hmatch : entry.route.matchKind = .appUserModelId := hkind.elim h.storeApp id
  obtain ⟨name, path, time, hlearned⟩ := hlearned
  refine h.change ?_ ?_ ?_
  · rw [hlearned]
  · rw [hlearned]
  · rw [hlearned]
    simp only [keyOf, getStableRouteKey, hmatch]

theorem Kept.refresh {entry : Entry} {f : AppRoute → AppRoute} (h : Kept upper entry)
    (hcache : ∃ path time, f entry.route =
      { entry.route with resolvedExePath := path, resolvedAt := time }) :
    Kept upper (entry.change f) := by
  obtain ⟨path, time, hcache⟩ := hcache
  refine h.change ?_ ?_ ?_
  · rw [hcache]
  · rw [hcache]
  · rw [hcache]
    rfl

theorem inv_track {c : Change} (h : Inv upper entries) (hproper : c.Proper) :
    Inv upper (track upper entries c) := by
  cases c with
  | keep => exact h
  | ensure c =>
    unfold track
    dsimp only
    split
    · refine (forall_mem_updateFirst_iff h).mpr fun entry hfind hcreated => ?_
      exact (h entry (List.mem_of_find?_eq_some hfind) hcreated).reuse c
    · refine List.forall_mem_append.mpr ⟨h, fun entry hentry _ => ?_⟩
      obtain ⟨route, hroute, rfl⟩ := List.mem_map.mp hentry
      have hmade := hproper route (Option.mem_toList.mp hroute)
      exact ⟨hmade.storeApp, fun key hkey => (List.mem_singleton.mp hkey).symm⟩
  | remove p => exact fun entry hentry => h entry (List.mem_of_mem_eraseP hentry)
  | dropTemporary p => exact fun entry hentry => h entry (List.mem_of_mem_filter hentry)
  | learn p f =>
    refine (forall_mem_updateFirst_iff h).mpr fun entry hfind hcreated => ?_
    have hlearn := hproper entry.route
    have hfound := List.find?_some hfind
    exact (h entry (List.mem_of_find?_eq_some hfind) hcreated).learn hlearn.1 (hlearn.2 hfound)

theorem inv_step {e : Event} (h : Inv upper entries) (hstep : step upper entries e = some entries') :
    Inv upper entries' := by
  cases e with
  | edit e =>
    obtain rfl := Option.some.inj hstep
    exact inv_track h (change_proper _)
  | hasResolvableBackendAppName rt write p =>
    obtain rfl := Option.some.inj hstep
    refine (forall_mem_updateFirst_iff h).mpr fun entry hfind hcreated => ?_
    refine (h entry (List.mem_of_find?_eq_some hfind) hcreated).refresh ?_
    rcases resolveBackendAppName_route rt write entry.route with hsame | ⟨path, hcache⟩
    · exact ⟨_, _, hsame⟩
    · exact ⟨_, _, hcache⟩
  | writeConfig rt backend write =>
    obtain rfl := Option.some.inj hstep
    intro entry hentry hcreated
    obtain ⟨old, hold, rfl⟩ := List.mem_map.mp hentry
    exact (h old hold hcreated).refresh (refresh_eq rt backend write old.route)
  | add routes =>
    obtain rfl := Option.some.inj hstep
    refine List.forall_mem_append.mpr ⟨h, fun entry hentry hcreated => ?_⟩
    obtain ⟨route, -, rfl⟩ := List.mem_map.mp hentry
    cases hcreated
  | restart path time =>
    obtain rfl := Option.some.inj hstep
    intro entry hentry hcreated
    obtain ⟨old, hold, rfl⟩ := List.mem_map.mp hentry
    exact ⟨(h old (List.mem_of_mem_filter hold) hcreated).storeApp, List.forall_mem_nil _⟩

end Steps

/-- In every run from any table, the keys that the calls of `EnsureRoute` returned for a route that
    one of them made stay its key. -/
theorem always_keysStable (upper : Char → Char) (routes : List AppRoute) (events : List Event) :
    Always (step upper) (KeysStable upper) (start routes) events := by
  have hstart : Inv upper (start routes) := by
    intro entry hentry hcreated
    obtain ⟨route, -, rfl⟩ := List.mem_map.mp hentry
    cases hcreated
  exact always_mono (fun entries h entry hentry hcreated => (h entry hentry hcreated).keys)
    (always_of_invariant (fun _ _ _ => inv_step) events hstart)

end ProxySwitch.StableKeys
