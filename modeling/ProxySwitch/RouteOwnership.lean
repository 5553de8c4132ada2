import ProxySwitch.RouteEdits
import ProxySwitch.TransitionRuns

set_option autoImplicit false

namespace ProxySwitch.RouteOwnership
open AppRoutes KeyedLists RouteEdits RouteStore RuntimeStrings TransitionRuns

/-- `launches` remembers, for every call of `EnsureRoute` for a session, the session and the
    identifier of the route that it got. -/
structure World where
  routes : List AppRoute
  launches : List (Text × Text) := []

def launchOf (routes : List AppRoute) : Change → Option (Text × Text)
  | .ensure c => c.sessionId.bind fun sessionId =>
    (c.returned routes).map fun route => (sessionId, route.id)
  | .keep | .remove _ | .dropTemporary _ | .learn _ _ => none

def step (w : World) (e : Edit) : Option World :=
  some ⟨e.apply w.routes, (launchOf w.routes (change e)).toList ++ w.launches⟩

structure Owned (launches : List (Text × Text)) (route : AppRoute) : Prop where
  persistent : route.isPersistent = true → route.sessionId = none
  temporary : route.isPersistent = false →
    ∃ sessionId, route.sessionId = some sessionId ∧ (sessionId, route.id) ∈ launches

def AllOwned (w : World) : Prop := ∀ route ∈ w.routes, Owned w.launches route

def KeepsPersistent (w : World) (e : Edit) : Prop :=
  isRemoval e = false → (persistentIds w.routes).Sublist (persistentIds (e.apply w.routes))

/-- A temporary launch is for a session if it finds a temporary route or makes one, and for none if
    it finds a persistent one. -/
def LaunchesOwn (w : World) (e : Edit) : Prop :=
  match change e with
  | .ensure c => c.isPersistent = false →
      (∀ existing, w.routes.find? c.finds = some existing →
        (c.sessionId = none ↔ existing.isPersistent = true)) ∧
      (w.routes.find? c.finds = none → c.made ≠ none → c.sessionId ≠ none)
  | .keep | .remove _ | .dropTemporary _ | .learn _ _ => True

section Steps
variable {w w' : World} {e : Edit}

theorem Owned.mono {launches launches' : List (Text × Text)} {route : AppRoute}
    (hsub : launches ⊆ launches') (h : Owned launches route) : Owned launches' route :=
  ⟨h.persistent, fun htemporary =>
    (h.temporary htemporary).imp fun _ howner => ⟨howner.1, hsub howner.2⟩⟩

theorem Owned.congr {launches : List (Text × Text)} {r r' : AppRoute} (hid : r'.id = r.id)
    (hpersistent : r'.isPersistent = r.isPersistent) (hsession : r'.sessionId = r.sessionId)
    (h : Owned launches r) : Owned launches r' :=
  ⟨by rw [hpersistent, hsession]; exact h.persistent,
    by rw [hpersistent, hsession, hid]; exact h.temporary⟩

theorem returned_persistent {c : Ensuring} (hmade : ∀ route, c.made = some route → MadeBy c route)
    (h : AllOwned w) (hcall : c.isPersistent = true) {route : AppRoute}
    (hroute : c.returned w.routes = some route) :
    route.isPersistent = true ∧ route.sessionId = none := by
  unfold Ensuring.returned at hroute
  split at hroute
  · rename_i existing hfind
    obtain rfl := Option.some.inj hroute
    rw [Ensuring.reuse_isPersistent, Ensuring.reuse_sessionId, hcall, Bool.or_true]
    refine ⟨rfl, ?_⟩
    rw [if_pos rfl]
    split
    · rename_i hpersistent
      exact (h existing (List.mem_of_find?_eq_some hfind)).persistent hpersistent
    · rfl
  · have hfields := hmade route hroute
    refine ⟨hfields.isPersistent.trans hcall, ?_⟩
    rw [hfields.sessionId, if_pos hcall]

theorem returned_sessionId {c : Ensuring} (hmade : ∀ route, c.made = some route → MadeBy c route)
    (hcall : c.isPersistent = false) {route : AppRoute} {routes : List AppRoute}
    (hroute : c.returned routes = some route) : route.sessionId = c.sessionId := by
  unfold Ensuring.returned at hroute
  split at hroute
  · obtain rfl := Option.some.inj hroute
    rw [Ensuring.reuse_sessionId, hcall]
    rfl
  · rw [(hmade route hroute).sessionId, hcall]
    rfl

theorem owned_returned_iff {c : Ensuring} (hmade : ∀ route, c.made = some route → MadeBy c route)
    (h : AllOwned w) {route : AppRoute} (hroute : c.returned w.routes = some route) :
    Owned ((launchOf w.routes (.ensure c)).toList ++ w.launches) route ↔
      (c.isPersistent = false → (c.sessionId = none ↔ route.isPersistent = true)) := by
  cases hcall : c.isPersistent with
  | true =>
    obtain ⟨hpersistent, hnone⟩ := returned_persistent hmade h hcall hroute
    refine iff_of_true ⟨fun _ => hnone, fun htemporary => ?_⟩ (fun h => by cases h)
    rw [hpersistent] at htemporary
    cases htemporary
  | false =>
    have hsession := returned_sessionId hmade hcall hroute
    simp only [forall_const]
    constructor
    · intro howned
      cases hpersistent : route.isPersistent with
      | true => exact iff_of_true (hsession ▸ howned.persistent hpersistent) rfl
      | false =>
        obtain ⟨sessionId, hsome, -⟩ := howned.temporary hpersistent
        rw [← hsession, hsome]
        exact iff_of_false (Option.some_ne_none _) Bool.false_ne_true
    · intro hagree
      refine ⟨fun hpersistent => hsession.trans (hagree.mpr hpersistent), fun htemporary => ?_⟩
      obtain ⟨sessionId, hsome⟩ := Option.ne_none_iff_exists'.mp fun hnone => by
        rw [hagree.mp hnone] at htemporary
        cases htemporary
      refine ⟨sessionId, hsession.trans hsome, List.mem_append_left _ ?_⟩
      rw [launchOf, hsome, Option.bind_some, hroute]
      exact List.mem_singleton_self _

theorem returned_guard_iff {c : Ensuring} (hmade : ∀ route, c.made = some route → MadeBy c route)
    (hcall : c.isPersistent = false) (routes : List AppRoute) :
    (∀ route, c.returned routes = some route → (c.sessionId = none ↔ route.isPersistent = true)) ↔
      (∀ existing, routes.find? c.finds = some existing →
        (c.sessionId = none ↔ existing.isPersistent = true)) ∧
      (routes.find? c.finds = none → c.made ≠ none → c.sessionId ≠ none) := by
  unfold Ensuring.returned
  cases hfind : routes.find? c.finds with
  | some existing => simp [Ensuring.reuse_isPersistent, hcall]
  | none =>
    cases hroute : c.made with
    | none => simp
    | some route =>
      have hpersistent := (hmade route hroute).isPersistent.trans hcall
      simp [hpersistent]

/-- The guard is exact: in an owned table a step keeps every route owned precisely when it is
    met. -/
theorem allOwned_step (h : AllOwned w) (hstep : step w e = some w') :
    AllOwned w' ↔ LaunchesOwn w e := by
  obtain rfl := Option.some.inj hstep
  have hproper := change_proper e
  unfold LaunchesOwn
  simp only [AllOwned, apply_eq]
  have hmono : ∀ launches, ∀ route ∈ w.routes, Owned (launches ++ w.launches) route :=
    fun launches route hroute => (h route hroute).mono (List.subset_append_right _ _)
  cases hchange : change e with
  | keep => exact iff_of_true (hmono _) trivial
  | ensure c =>
    rw [hchange] at hproper
    rw [Change.apply, Ensuring.forall_apply_iff (hmono _)]
    constructor
    · intro hafter hcall
      refine (returned_guard_iff hproper hcall w.routes).mp fun route hroute => ?_
      exact (owned_returned_iff hproper h hroute).mp (hafter route hroute) hcall
    · intro hguard route hroute
      refine (owned_returned_iff hproper h hroute).mpr fun hcall => ?_
      exact (returned_guard_iff hproper hcall w.routes).mpr (hguard hcall) route hroute
  | remove p => exact iff_of_true (fun route hroute => hmono _ route (List.mem_of_mem_eraseP hroute)) trivial
  | dropTemporary p =>
    exact iff_of_true (fun route hroute => hmono _ route (List.mem_of_mem_filter hroute)) trivial
  | learn p f =>
    rw [hchange] at hproper
    rw [Change.apply, forall_mem_updateFirst_iff (hmono _)]
    refine iff_of_true (fun route hfind => ?_) trivial
    obtain ⟨name, path, time, hlearned⟩ := (hproper route).1
    rw [hlearned]
    exact Owned.congr (r := route) rfl rfl rfl (hmono _ route (List.mem_of_find?_eq_some hfind))

theorem keepsPersistent (w : World) (e : Edit) : KeepsPersistent w e :=
  fun hremoval => persistentIds_sublist hremoval w.routes

end Steps

/-- A run from an owned table keeps it owned, and the persistent routes in it, precisely when
    every temporary launch of it is for a session and finds no persistent route. -/
theorem always_allOwned_iff (w : World) (events : List Edit) (h : AllOwned w) :
    Always step AllOwned w events ∧ Meets step KeepsPersistent w events ↔
      Meets step LaunchesOwn w events := by
  have howned : Always step AllOwned w events ↔ Meets step LaunchesOwn w events :=
    always_iff_meets (I := fun _ => True) (fun _ _ _ _ _ => trivial)
      (fun s e t _ hs hstep => allOwned_step hs hstep) events trivial h
  rw [howned, and_iff_left_iff_imp]
  exact fun _ => meets_of_always (P := fun _ => True) (fun s e _ => keepsPersistent s e)
    (always_of_invariant (fun _ _ _ _ _ => trivial) events trivial)

def dropNote (isPersistent : Bool) (sessionId : Text) : Edit :=
  .ensureRoute plainRuntime "C:\\apps\\note.exe".toList "clash".toList (routeSource isPersistent)
    isPersistent (some sessionId) true

theorem always_allOwned_promoted : Always step AllOwned ⟨[], []⟩ [dropNote false "s1".toList,
      dropNote true "s2".toList, .removeTmpRoutesForSession "s1".toList] ∧
    Meets step KeepsPersistent ⟨[], []⟩ [dropNote false "s1".toList, dropNote true "s2".toList,
      .removeTmpRoutesForSession "s1".toList] := by
  refine (always_allOwned_iff ⟨[], []⟩ _ (List.forall_mem_nil _)).mpr ⟨?_, ?_, trivial, trivial⟩
  · exact fun _ => ⟨fun _ hfind => absurd hfind.symm (Option.some_ne_none _), fun _ _ => Option.some_ne_none _⟩
  · intro hcall
    cases hcall

/-- The route that was dropped to stay takes the session of the second drop. -/
theorem persistent_route_bound : ¬∀ (w : World) (events : List Edit), AllOwned w →
    Always step AllOwned w events ∧ Meets step KeepsPersistent w events := by
  intro h
  have halways := (h ⟨[], []⟩ [dropNote true "s1".toList, dropNote false "s2".toList]
    (List.forall_mem_nil _)).1
  have hlast := (always_iff_reached _ _).mp halways _ [] _ (List.append_nil _).symm rfl
  have hbound := (hlast _ List.mem_cons_self).persistent (by decide)
  revert hbound
  decide

end ProxySwitch.RouteOwnership
