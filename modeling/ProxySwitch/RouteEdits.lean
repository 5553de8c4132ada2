import ProxySwitch.RouteStore

set_option autoImplicit false

namespace ProxySwitch.RouteEdits
open AppRoutes KeyedLists RouteStore RuntimeStrings

section Keys
variable (upper : Char → Char)

def withUpper (rt : Runtime) : Runtime := { rt with upper := upper }

def keyOf (route : AppRoute) : Text := getStableRouteKey (withUpper upper plainRuntime) route

end Keys

/-- One call of `EnsureRoute`; no route is `made` where it throws. -/
structure Ensuring where
  finds : AppRoute → Bool
  made : Option AppRoute
  isPersistent : Bool
  sessionId : Option Text
  ipcManaged : Bool

namespace Ensuring
variable (c : Ensuring) (routes : List AppRoute)

def reuse : AppRoute → AppRoute := reuseRoute c.isPersistent c.sessionId c.ipcManaged

def apply : List AppRoute :=
  match routes.find? c.finds with
  | some _ => updateFirst c.finds c.reuse routes
  | none => routes ++ c.made.toList

def returned : Option AppRoute :=
  match routes.find? c.finds with
  | some existing => some (c.reuse existing)
  | none => c.made

end Ensuring

/-- `dropTemporary` removes the routes with the test that are not persistent, and `learn` changes
    the first route with the test. -/
inductive Change
  | keep
  | ensure (c : Ensuring)
  | remove (p : AppRoute → Bool)
  | dropTemporary (p : AppRoute → Bool)
  | learn (p : AppRoute → Bool) (f : AppRoute → AppRoute)

def Change.apply (routes : List AppRoute) : Change → List AppRoute
  | .keep => routes
  | .ensure c => c.apply routes
  | .remove p => routes.eraseP p
  | .dropTemporary p => routes.filter fun r => r.isPersistent || !p r
  | .learn p f => updateFirst p f routes

namespace Ensuring
variable {c : Ensuring} {routes : List AppRoute}

/-- Of routes that are all good, only the one that the call returns has to be looked at. -/
theorem forall_apply_iff {P : AppRoute → Prop} (h : ∀ r ∈ routes, P r) :
    (∀ r ∈ c.apply routes, P r) ↔ ∀ r, c.returned routes = some r → P r := by
  unfold apply returned
  cases hfind : routes.find? c.finds with
  | some existing =>
    dsimp only
    rw [forall_mem_updateFirst_iff h, hfind]
    simp
  | none =>
    dsimp only
    rw [List.forall_mem_append, and_iff_right h]
    simp

end Ensuring

section Forms
variable (rt : Runtime) (proxyId source : Text) (isPersistent : Bool) (sessionId : Option Text)
  (ipcManaged : Bool)

def ensureExe (exePath : Text) : Change :=
  if exePath = [] ∨ proxyId = [] then .keep
  else .ensure
    { finds := matchesExe rt exePath proxyId
      made := (rt.tryResolveMsixIdentity exePath).map
        (newExeRoute rt exePath proxyId source isPersistent sessionId ipcManaged)
      isPersistent := isPersistent
      sessionId := sessionId
      ipcManaged := ipcManaged }

def ensureTarget (target : LaunchTarget) : Change :=
  if target.launchKind = .exe ∧ target.exePath ≠ [] then
    ensureExe rt proxyId source isPersistent sessionId ipcManaged target.exePath
  else .ensure
    { finds := matchesTarget target proxyId
      made := some (newTargetRoute rt target proxyId source isPersistent sessionId ipcManaged)
      isPersistent := isPersistent
      sessionId := sessionId
      ipcManaged := ipcManaged }

end Forms

def change : Edit → Change
  | .ensureRoute rt exePath proxyId source isPersistent sessionId ipcManaged =>
    ensureExe rt proxyId source isPersistent sessionId ipcManaged exePath
  | .ensureTargetRoute rt target proxyId source isPersistent sessionId ipcManaged =>
    ensureTarget rt proxyId source isPersistent sessionId ipcManaged target
  | .removeRouteByExe rt exePath proxyId => .remove (matchesExe rt exePath proxyId)
  | .removeRoute routeId => .remove (·.id == routeId)
  | .removeTmpRoutesForSession sessionId =>
    if sessionId = [] then .keep else .dropTemporary (·.sessionId == some sessionId)
  | .purgeTmpRoutes => .dropTemporary fun _ => true
  | .updateStoreAppRoute rt now session found =>
    if session.proxyId = [] then .keep
    else .learn (isStoreAppRoute rt session) (learnPath rt now found ∘ learnName rt found)
  | .confirmRoute rt now session found =>
    if session.ipcManaged || !session.needsProcessConfirmation then .keep
    else .learn (fun route => route.proxyId == session.proxyId &&
      route.matchKind == .appUserModelId && ofSession rt session route) (confirm rt now found)

def isRemoval : Edit → Bool
  | .removeRouteByExe .. | .removeRoute .. => true
  | _ => false

def persistentIds (routes : List AppRoute) : List Text :=
  (routes.filter (·.isPersistent)).map AppRoute.id

section Equations
variable (rt : Runtime) (proxyId source : Text) (isPersistent : Bool) (sessionId : Option Text)
  (ipcManaged : Bool) (routes : List AppRoute)

theorem ensureExe_apply (exePath : Text) :
    Edit.apply (.ensureRoute rt exePath proxyId source isPersistent sessionId ipcManaged) routes =
      (ensureExe rt proxyId source isPersistent sessionId ipcManaged exePath).apply routes := by
  simp only [Edit.apply, ensureRoute, ensureExe]
  split_ifs
  · rfl
  · simp only [Change.apply, Ensuring.apply]
    cases routes.find? (matchesExe rt exePath proxyId) with
    | some existing => rfl
    | none =>
      cases rt.tryResolveMsixIdentity exePath with
      | none => exact (List.append_nil _).symm
      | some msix => rfl

theorem ensureTarget_apply (target : LaunchTarget) :
    Edit.apply (.ensureTargetRoute rt target proxyId source isPersistent sessionId ipcManaged)
        routes =
      (ensureTarget rt proxyId source isPersistent sessionId ipcManaged target).apply routes := by
  unfold ensureTarget
  split_ifs with hexe
  · rw [← ensureExe_apply]
    simp only [Edit.apply, ensureTargetRoute, if_pos hexe]
  · simp only [Edit.apply, ensureTargetRoute, if_neg hexe, Change.apply, Ensuring.apply]
    cases routes.find? (matchesTarget target proxyId) with
    | some existing => rfl
    | none => rfl

theorem apply_eq (e : Edit) : e.apply routes = (change e).apply routes := by
  cases e with
  | ensureRoute rt exePath proxyId source isPersistent sessionId ipcManaged =>
    exact ensureExe_apply rt proxyId source isPersistent sessionId ipcManaged routes exePath
  | ensureTargetRoute rt target proxyId source isPersistent sessionId ipcManaged =>
    exact ensureTarget_apply rt proxyId source isPersistent sessionId ipcManaged routes target
  | removeRouteByExe rt exePath proxyId => rfl
  | removeRoute routeId => rfl
  | removeTmpRoutesForSession sessionId =>
    simp only [Edit.apply, AppRoutes.removeTmpRoutesForSession, change]
    split_ifs
    · rfl
    · simp only [Change.apply, Bool.not_and, Bool.not_not]
  | purgeTmpRoutes => simp only [Edit.apply, change, Change.apply, Bool.not_true, Bool.or_false]
  | updateStoreAppRoute rt now session found =>
    simp only [Edit.apply, updateStoreAppRouteFromCandidate, change]
    split_ifs
    · rfl
    · rfl
  | confirmRoute rt now session found =>
    simp only [Edit.apply, tryConfirmRouteFromProcess, change]
    split_ifs
    · rfl
    · rfl

end Equations

section Fields
variable {c : Ensuring}

theorem Ensuring.reuse_isPersistent (c : Ensuring) (r : AppRoute) :
    (c.reuse r).isPersistent = (r.isPersistent || c.isPersistent) := by
  unfold Ensuring.reuse reuseRoute
  cases c.isPersistent <;> cases h : r.isPersistent <;> simp [h]

theorem Ensuring.reuse_sessionId (c : Ensuring) (r : AppRoute) : (c.reuse r).sessionId =
    if c.isPersistent then (if r.isPersistent then r.sessionId else none) else c.sessionId := by
  unfold Ensuring.reuse reuseRoute
  cases c.isPersistent <;> cases r.isPersistent <;> simp

theorem Ensuring.reuse_eq (c : Ensuring) (r : AppRoute) : c.reuse r =
    { r with
      enabled := true
      isPersistent := (c.reuse r).isPersistent
      sessionId := (c.reuse r).sessionId
      ipcManaged := c.ipcManaged } := by
  unfold Ensuring.reuse reuseRoute
  cases c.isPersistent <;> cases h : r.isPersistent <;> simp [h]

structure MadeBy (c : Ensuring) (route : AppRoute) : Prop where
  isPersistent : route.isPersistent = c.isPersistent
  sessionId : route.sessionId = if c.isPersistent then none else c.sessionId
  storeApp : route.launchKind = .appUserModelId → route.matchKind = .appUserModelId

theorem newExeRoute_madeBy {rt : Runtime} {exePath proxyId source : Text}
    {msix : Option (Text × Text)} : MadeBy c
      (newExeRoute rt exePath proxyId source c.isPersistent c.sessionId c.ipcManaged msix) := by
  have hexe : LaunchKind.exe ≠ .appUserModelId := by decide
  cases msix with
  | none => exact ⟨rfl, rfl, fun h => absurd h hexe⟩
  | some package => exact ⟨rfl, rfl, fun h => absurd h hexe⟩

theorem newTargetRoute_madeBy {rt : Runtime} {target : LaunchTarget} {proxyId source : Text} :
    MadeBy c (newTargetRoute rt target proxyId source c.isPersistent c.sessionId c.ipcManaged) :=
  ⟨rfl, rfl, fun h => if_pos (.inl h)⟩

def Learned (r r' : AppRoute) : Prop :=
  ∃ name path time, r' = { r with processName := name, resolvedExePath := path, resolvedAt := time }

theorem learned_learnName (rt : Runtime) (found : FoundProcess) (r : AppRoute) :
    Learned r (learnName rt found r) := by
  unfold learnName
  split
  · exact ⟨_, _, _, rfl⟩
  · exact ⟨_, _, _, rfl⟩

theorem learned_learnPath (rt : Runtime) (now : ℕ) (found : FoundProcess) {r r' : AppRoute}
    (h : Learned r r') : Learned r (learnPath rt now found r') := by
  obtain ⟨name, path, time, rfl⟩ := h
  unfold learnPath
  split
  · exact ⟨_, _, _, rfl⟩
  · exact ⟨_, _, _, rfl⟩

theorem learned_confirm (rt : Runtime) (now : ℕ) (found : FoundProcess) (r : AppRoute) :
    Learned r (confirm rt now found r) := by
  unfold confirm
  dsimp only
  split_ifs
  · exact ⟨_, _, _, rfl⟩
  · exact ⟨_, _, _, rfl⟩
  · exact ⟨_, _, _, rfl⟩
  · exact ⟨_, _, _, rfl⟩
  · exact ⟨_, _, _, rfl⟩

/-- What the edits keep to: how a route is made, and that only a store app's route learns. -/
def Change.Proper : Change → Prop
  | .ensure c => ∀ route, c.made = some route → MadeBy c route
  | .learn p f => ∀ r, Learned r (f r) ∧
      (p r = true → r.launchKind = .appUserModelId ∨ r.matchKind = .appUserModelId)
  | .keep | .remove _ | .dropTemporary _ => True

theorem ensureExe_proper (rt : Runtime) (proxyId source : Text) (isPersistent : Bool)
    (sessionId : Option Text) (ipcManaged : Bool) (exePath : Text) :
    (ensureExe rt proxyId source isPersistent sessionId ipcManaged exePath).Proper := by
  unfold ensureExe
  split_ifs
  · trivial
  · intro route hmade
    obtain ⟨msix, -, rfl⟩ := Option.map_eq_some_iff.mp hmade
    exact newExeRoute_madeBy

theorem ensureTarget_proper (rt : Runtime) (proxyId source : Text) (isPersistent : Bool)
    (sessionId : Option Text) (ipcManaged : Bool) (target : LaunchTarget) :
    (ensureTarget rt proxyId source isPersistent sessionId ipcManaged target).Proper := by
  unfold ensureTarget
  split_ifs
  · exact ensureExe_proper rt proxyId source isPersistent sessionId ipcManaged target.exePath
  · intro route hmade
    obtain rfl := Option.some.inj hmade
    exact newTargetRoute_madeBy

theorem change_proper (e : Edit) : (change e).Proper := by
  cases e with
  | ensureRoute rt exePath proxyId source isPersistent sessionId ipcManaged =>
    exact ensureExe_proper rt proxyId source isPersistent sessionId ipcManaged exePath
  | ensureTargetRoute rt target proxyId source isPersistent sessionId ipcManaged =>
    exact ensureTarget_proper rt proxyId source isPersistent sessionId ipcManaged target
  | removeRouteByExe rt exePath proxyId => trivial
  | removeRoute routeId => trivial
  | purgeTmpRoutes => trivial
  | removeTmpRoutesForSession sessionId =>
    simp only [change]
    split_ifs
    · trivial
    · trivial
  | updateStoreAppRoute rt now session found =>
    simp only [change]
    split_ifs
    · trivial
    · intro r
      refine ⟨learned_learnPath rt now found (learned_learnName rt found r), fun hp => .inl ?_⟩
      simp only [isStoreAppRoute, Bool.and_eq_true, beq_iff_eq] at hp
      exact hp.1.2
  | confirmRoute rt now session found =>
    simp only [change]
    split_ifs
    · trivial
    · intro r
      refine ⟨learned_confirm rt now found r, fun hp => .inr ?_⟩
      simp only [Bool.and_eq_true, beq_iff_eq] at hp
      exact hp.1.2

theorem persistent_dropTemporary (routes : List AppRoute) (p : AppRoute → Bool) :
    (Change.apply routes (.dropTemporary p)).filter (·.isPersistent) = routes.filter (·.isPersistent) := by
  unfold Change.apply
  rw [List.filter_filter]
  refine List.filter_congr fun route _ => ?_
  cases route.isPersistent <;> rfl

theorem persistentIds_sublist {e : Edit} (hremoval : isRemoval e = false) (routes : List AppRoute) :
    (persistentIds routes).Sublist (persistentIds (e.apply routes)) := by
  have hproper := change_proper e
  rw [apply_eq]
  cases hchange : change e with
  | keep => exact .refl _
  | ensure c =>
    simp only [Change.apply, Ensuring.apply]
    split
    · refine sublist_updateFirst (fun route => ?_) fun route hpersistent => ?_
      · rw [Ensuring.reuse_eq]
      · rw [Ensuring.reuse_isPersistent, hpersistent, Bool.true_or]
    · unfold persistentIds
      rw [List.filter_append, List.map_append]
      exact List.sublist_append_left _ _
  | remove p =>
    cases e with
    | removeRouteByExe => cases hremoval
    | removeRoute => cases hremoval
    | purgeTmpRoutes => cases hchange
    | ensureRoute | ensureTargetRoute | removeTmpRoutesForSession | updateStoreAppRoute
    | confirmRoute =>
      simp only [change, ensureTarget, ensureExe] at hchange
      split_ifs at hchange
  | dropTemporary p =>
    unfold persistentIds
    rw [persistent_dropTemporary]
  | learn p f =>
    rw [hchange] at hproper
    refine sublist_updateFirst (fun route => ?_) fun route hpersistent => ?_
    · obtain ⟨name, path, time, hlearned⟩ := (hproper route).1
      rw [hlearned]
    · obtain ⟨name, path, time, hlearned⟩ := (hproper route).1
      rw [hlearned]
      exact hpersistent

end Fields

end ProxySwitch.RouteEdits
