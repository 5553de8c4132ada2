import ProxySwitch.RouteStore
import ProxySwitch.TransitionRuns

set_option autoImplicit false

namespace ProxySwitch.ExternalWatcher
open AppRoutes RouteStore RuntimeStrings SessionMatching TransitionRuns

/-- `running` is the WMI watcher, which there is while there is work. -/
structure ExternalProcessWatcher where
  watchedNames : List Text
  watchedPaths : List Text
  running : Bool

def isWatchable (route : AppRoute) : Bool := route.isPersistent && route.enabled

section Watcher
variable (rt : Runtime)

def refreshWatchedSet (routes : List AppRoute) : ExternalProcessWatcher :=
  let watchable := routes.filter isWatchable
  let names := (watchable.map fun r => normalizeProcessName rt r.processName).filter (· ≠ [])
  let paths := (watchable.flatMap fun r => [r.exePath, r.resolvedExePath]).filter (· ≠ [])
  { watchedNames := names, watchedPaths := paths, running := names ≠ [] || paths ≠ [] }

/-- Whether the start of the process is handed to `ProcessDetected`; the sets ignore case. -/
def onEventArrived (watcher : ExternalProcessWatcher) (hit : ExternalProcessHit) : Bool :=
  watcher.running &&
    (hit.name ≠ [] && watcher.watchedNames.any (equalsIgnoreCase rt.upper · hit.name) ||
      hit.executablePath ≠ [] &&
        watcher.watchedPaths.any (equalsIgnoreCase rt.upper · hit.executablePath))

/-- The route match of `AttachExternalLaunch` succeeds. -/
def attaches (routes : List AppRoute) (hit : ExternalProcessHit) : Bool :=
  (externalRoute { rt := rt, routes := routes } hit).isSome

/-- A name or a path by which processes are recognised, in upper case. -/
inductive Identity
  | name (text : Text)
  | path (text : Text)
  deriving DecidableEq

def Identity.isOf (hit : ExternalProcessHit) : Identity → Bool
  | .name text => hit.name ≠ [] && hit.name.map rt.upper == text
  | .path text => hit.executablePath ≠ [] && hit.executablePath.map rt.upper == text

/-- The identities of a route; an empty text is none. -/
def identitiesOf (route : AppRoute) : List Identity :=
  let name := normalizeProcessName rt route.processName
  (if name = [] then [] else [.name (name.map rt.upper)]) ++
    ([route.exePath, route.resolvedExePath].filter (· ≠ [])).map fun p => .path (p.map rt.upper)

def identities (routes : List AppRoute) : List Identity :=
  (routes.filter isWatchable).flatMap (identitiesOf rt)

end Watcher

structure World where
  store : Store
  watcher : Option ExternalProcessWatcher := none

/-- A step of the route table; `SetupServices` makes the watcher last, and a reload disposes it
    first. -/
inductive Event
  | store (e : RouteStore.Event)
  | startWatcher

def isLoad : RouteStore.Event → Bool
  | .load _ _ => true
  | _ => false

section Runs
variable (rt : Runtime)

def step (w : World) : Event → Option World
  | .store e => some
      { store := next rt.upper w.store e
        watcher := if isLoad e then none else w.watcher }
  | .startWatcher => some { w with watcher := some (refreshWatchedSet rt w.store.routes) }

def Agrees (w : World) : Prop :=
  ∀ watcher, w.watcher = some watcher →
    ∀ hit, onEventArrived rt watcher hit = attaches rt w.store.routes hit

def SameIdentities (routes routes' : List AppRoute) : Prop :=
  ∀ i, i ∈ identities rt routes ↔ i ∈ identities rt routes'

/-- While a watcher runs, the enabled persistent routes keep the names and paths that they have
    together. -/
def KeepsIdentities (w : World) : Event → Prop
  | .store e => isLoad e = false → w.watcher ≠ none →
      SameIdentities rt w.store.routes (next rt.upper w.store e).routes
  | .startWatcher => True

variable {rt}

section Sets
variable {routes : List AppRoute} {hit : ExternalProcessHit}

theorem mem_identities {i : Identity} : i ∈ identities rt routes ↔
    ∃ route ∈ routes, isWatchable route = true ∧ i ∈ identitiesOf rt route := by
  simp only [identities, List.mem_flatMap, List.mem_filter, and_assoc]

theorem mem_identitiesOf {route : AppRoute} {i : Identity} : i ∈ identitiesOf rt route ↔
    (normalizeProcessName rt route.processName ≠ [] ∧
      i = .name ((normalizeProcessName rt route.processName).map rt.upper)) ∨
    ∃ p, (p = route.exePath ∨ p = route.resolvedExePath) ∧ p ≠ [] ∧ i = .path (p.map rt.upper) := by
  simp only [identitiesOf, List.mem_append, List.mem_map, List.mem_filter, List.mem_cons,
    List.not_mem_nil, or_false, decide_eq_true_eq]
  refine or_congr ?_ ?_
  · split
    · rename_i hname
      simp [hname]
    · rename_i hname
      simp [hname]
  · constructor
    · rintro ⟨p, ⟨hp, hne⟩, rfl⟩
      exact ⟨p, hp, hne, rfl⟩
    · rintro ⟨p, hp, hne, rfl⟩
      exact ⟨p, ⟨hp, hne⟩, rfl⟩

theorem matchesExternal_iff (env : Surroundings) {route : AppRoute} :
    matchesExternal env hit route = true ↔
      isWatchable route = true ∧ ∃ i ∈ identitiesOf env.rt route, i.isOf env.rt hit = true := by
  simp only [matchesExternal, hasPathOf, hasNameOf, equalTexts, equalsIgnoreCase, isWatchable,
    Bool.and_eq_true, Bool.or_eq_true, beq_iff_eq, decide_eq_true_eq]
  refine and_congr_right fun _ => ⟨?_, ?_⟩
  · rintro (⟨hne, hpath⟩ | ⟨hne, hname⟩)
    · obtain hpath | hpath := hpath
      · refine ⟨.path (route.exePath.map env.rt.upper), mem_identitiesOf.mpr (.inr
          ⟨route.exePath, .inl rfl, ?_, rfl⟩), by simp [Identity.isOf, hne, hpath]⟩
        rintro hempty
        rw [hempty, List.map_nil, eq_comm, List.map_eq_nil_iff] at hpath
        exact hne hpath
      · refine ⟨.path (route.resolvedExePath.map env.rt.upper), mem_identitiesOf.mpr (.inr
          ⟨route.resolvedExePath, .inr rfl, ?_, rfl⟩), by simp [Identity.isOf, hne, hpath]⟩
        rintro hempty
        rw [hempty, List.map_nil, eq_comm, List.map_eq_nil_iff] at hpath
        exact hne hpath
    · refine ⟨.name ((normalizeProcessName env.rt route.processName).map env.rt.upper),
        mem_identitiesOf.mpr (.inl ⟨?_, rfl⟩), by simp [Identity.isOf, hne, hname]⟩
      intro hempty
      rw [hempty, List.map_nil, eq_comm, List.map_eq_nil_iff] at hname
      exact hne hname
  · rintro ⟨i, hi, hof⟩
    obtain ⟨-, rfl⟩ | ⟨p, hp, -, rfl⟩ := mem_identitiesOf.mp hi
    · simp only [Identity.isOf, Bool.and_eq_true, decide_eq_true_eq, beq_iff_eq] at hof
      exact .inr ⟨hof.1, hof.2.symm⟩
    · simp only [Identity.isOf, Bool.and_eq_true, decide_eq_true_eq, beq_iff_eq] at hof
      refine .inl ⟨hof.1, ?_⟩
      obtain rfl | rfl := hp
      · exact .inl hof.2.symm
      · exact .inr hof.2.symm

theorem attaches_iff : attaches rt routes hit = true ↔
    ∃ i ∈ identities rt routes, i.isOf rt hit = true := by
  simp only [attaches, externalRoute, List.find?_isSome, matchesExternal_iff]
  constructor
  · rintro ⟨route, hroute, hwatchable, i, hi, hof⟩
    exact ⟨i, mem_identities.mpr ⟨route, hroute, hwatchable, hi⟩, hof⟩
  · rintro ⟨i, hi, hof⟩
    obtain ⟨route, hroute, hwatchable, hi⟩ := mem_identities.mp hi
    exact ⟨route, hroute, hwatchable, i, hi, hof⟩

theorem mem_watchedNames {text : Text} : text ∈ (refreshWatchedSet rt routes).watchedNames ↔
    ∃ route ∈ routes, isWatchable route = true ∧
      normalizeProcessName rt route.processName = text ∧ text ≠ [] := by
  simp only [refreshWatchedSet, List.mem_filter, List.mem_map, decide_eq_true_eq]
  constructor
  · rintro ⟨⟨route, ⟨hroute, hwatchable⟩, rfl⟩, hne⟩
    exact ⟨route, hroute, hwatchable, rfl, hne⟩
  · rintro ⟨route, hroute, hwatchable, rfl, hne⟩
    exact ⟨⟨route, ⟨hroute, hwatchable⟩, rfl⟩, hne⟩

theorem mem_watchedPaths {text : Text} : text ∈ (refreshWatchedSet rt routes).watchedPaths ↔
    ∃ route ∈ routes, isWatchable route = true ∧
      (text = route.exePath ∨ text = route.resolvedExePath) ∧ text ≠ [] := by
  simp only [refreshWatchedSet, List.mem_filter, List.mem_flatMap, List.mem_cons,
    List.not_mem_nil, or_false, decide_eq_true_eq]
  constructor
  · rintro ⟨⟨route, ⟨hroute, hwatchable⟩, htext⟩, hne⟩
    exact ⟨route, hroute, hwatchable, htext, hne⟩
  · rintro ⟨route, hroute, hwatchable, htext, hne⟩
    exact ⟨⟨route, ⟨hroute, hwatchable⟩, htext⟩, hne⟩

theorem refreshWatchedSet_running {text : Text}
    (h : text ∈ (refreshWatchedSet rt routes).watchedNames ∨
      text ∈ (refreshWatchedSet rt routes).watchedPaths) :
    (refreshWatchedSet rt routes).running = true := by
  simp only [refreshWatchedSet, Bool.or_eq_true, decide_eq_true_eq]
  exact h.imp List.ne_nil_of_mem List.ne_nil_of_mem

theorem onEventArrived_iff : onEventArrived rt (refreshWatchedSet rt routes) hit = true ↔
    ∃ i ∈ identities rt routes, i.isOf rt hit = true := by
  simp only [onEventArrived, equalsIgnoreCase, Bool.and_eq_true, Bool.or_eq_true,
    List.any_eq_true, decide_eq_true_eq, beq_iff_eq]
  constructor
  · rintro ⟨-, ⟨hne, text, htext, hsame⟩ | ⟨hne, text, htext, hsame⟩⟩
    · obtain ⟨route, hroute, hwatchable, rfl, hname⟩ := mem_watchedNames.mp htext
      exact ⟨_, mem_identities.mpr ⟨route, hroute, hwatchable, mem_identitiesOf.mpr
        (.inl ⟨hname, rfl⟩)⟩, by simp [Identity.isOf, hne, hsame]⟩
    · obtain ⟨route, hroute, hwatchable, hpath, hnonempty⟩ := mem_watchedPaths.mp htext
      exact ⟨_, mem_identities.mpr ⟨route, hroute, hwatchable, mem_identitiesOf.mpr
        (.inr ⟨text, hpath, hnonempty, rfl⟩)⟩, by simp [Identity.isOf, hne, hsame]⟩
  · rintro ⟨i, hi, hof⟩
    obtain ⟨route, hroute, hwatchable, hi⟩ := mem_identities.mp hi
    obtain ⟨hname, rfl⟩ | ⟨p, hp, hnonempty, rfl⟩ := mem_identitiesOf.mp hi
    · simp only [Identity.isOf, Bool.and_eq_true, decide_eq_true_eq, beq_iff_eq] at hof
      have hmem : _ ∈ (refreshWatchedSet rt routes).watchedNames :=
        mem_watchedNames.mpr ⟨route, hroute, hwatchable, rfl, hname⟩
      exact ⟨refreshWatchedSet_running (.inl hmem), .inl ⟨hof.1, _, hmem, hof.2.symm⟩⟩
    · simp only [Identity.isOf, Bool.and_eq_true, decide_eq_true_eq, beq_iff_eq] at hof
      have hmem : p ∈ (refreshWatchedSet rt routes).watchedPaths :=
        mem_watchedPaths.mpr ⟨route, hroute, hwatchable, hp, hnonempty⟩
      exact ⟨refreshWatchedSet_running (.inr hmem), .inr ⟨hof.1, _, hmem, hof.2.symm⟩⟩

theorem exists_hit {i : Identity} (h : i ∈ identities rt routes) :
    ∃ hit : ExternalProcessHit, ∀ j, j.isOf rt hit = true ↔ j = i := by
  obtain ⟨route, -, -, hi⟩ := mem_identities.mp h
  obtain ⟨hname, rfl⟩ | ⟨p, -, hp, rfl⟩ := mem_identitiesOf.mp hi
  · refine ⟨{ processId := 0, name := normalizeProcessName rt route.processName }, fun j => ?_⟩
    cases j with
    | name text => simpa [Identity.isOf, hname] using eq_comm
    | path text => simp [Identity.isOf]
  · refine ⟨{ processId := 0, executablePath := p }, fun j => ?_⟩
    cases j with
    | name text => simp [Identity.isOf]
    | path text => simpa [Identity.isOf, hp] using eq_comm

end Sets

/-- A watcher agrees with a table precisely when the table it was started over has the same
    identities. -/
theorem agrees_iff (routes routes' : List AppRoute) :
    (∀ hit, onEventArrived rt (refreshWatchedSet rt routes) hit = attaches rt routes' hit) ↔
      SameIdentities rt routes routes' := by
  have hiff : (∀ hit, onEventArrived rt (refreshWatchedSet rt routes) hit =
      attaches rt routes' hit) ↔ ∀ hit, (∃ i ∈ identities rt routes, i.isOf rt hit = true) ↔
        ∃ i ∈ identities rt routes', i.isOf rt hit = true :=
    forall_congr' fun hit => by rw [Bool.eq_iff_iff, onEventArrived_iff, attaches_iff]
  rw [hiff]
  constructor
  · intro h i
    constructor
    · intro hi
      obtain ⟨hit, hof⟩ := exists_hit hi
      obtain ⟨j, hj, hjof⟩ := (h hit).mp ⟨i, hi, (hof i).mpr rfl⟩
      exact (hof j).mp hjof ▸ hj
    · intro hi
      obtain ⟨hit, hof⟩ := exists_hit hi
      obtain ⟨j, hj, hjof⟩ := (h hit).mpr ⟨i, hi, (hof i).mpr rfl⟩
      exact (hof j).mp hjof ▸ hj
  · intro h hit
    exact exists_congr fun i => and_congr_left fun _ => h i

def Refreshed (rt : Runtime) (w : World) : Prop :=
  ∀ watcher, w.watcher = some watcher → ∃ routes, watcher = refreshWatchedSet rt routes

theorem refreshed_step {w w' : World} {e : Event} (hw : Refreshed rt w)
    (h : step rt w e = some w') : Refreshed rt w' := by
  cases e with
  | startWatcher =>
    obtain rfl := Option.some.inj h
    intro watcher hwatcher
    exact ⟨w.store.routes, (Option.some.inj hwatcher).symm⟩
  | store e =>
    obtain rfl := Option.some.inj h
    intro watcher hwatcher
    dsimp only at hwatcher
    split at hwatcher
    · cases hwatcher
    · exact hw watcher hwatcher

theorem agrees_step {w w' : World} {e : Event} (hw : Refreshed rt w) (hagrees : Agrees rt w)
    (h : step rt w e = some w') : Agrees rt w' ↔ KeepsIdentities rt w e := by
  cases e with
  | startWatcher =>
    obtain rfl := Option.some.inj h
    refine iff_of_true (fun watcher hwatcher => ?_) trivial
    obtain rfl := Option.some.inj hwatcher
    exact (agrees_iff _ _).mpr fun i => Iff.rfl
  | store e =>
    obtain rfl := Option.some.inj h
    simp only [Agrees, KeepsIdentities]
    cases hload : isLoad e with
    | true => exact iff_of_true nofun nofun
    | false =>
      simp only [Bool.false_eq_true, if_false, forall_const]
      cases hwatcher : w.watcher with
      | none => exact iff_of_true nofun fun h => absurd rfl h
      | some watcher =>
        obtain ⟨routes, rfl⟩ := hw watcher hwatcher
        have hbefore := (agrees_iff routes w.store.routes).mp (hagrees _ hwatcher)
        simp only [Option.some.injEq, forall_eq', ne_eq, reduceCtorEq, not_false_eq_true,
          forall_const]
        rw [agrees_iff]
        exact forall_congr' fun i => by rw [hbefore i]

end Runs

def start (store : Store) : World := { store := store }

/-- The filter and the rule agree through a run precisely when no step of it changes what the
    watcher was started over. -/
theorem always_agrees_iff (rt : Runtime) (store : Store) (events : List Event) :
    Always (step rt) (Agrees rt) (start store) events ↔
      Meets (step rt) (KeepsIdentities rt) (start store) events :=
  always_iff_meets (I := Refreshed rt) (fun _ _ _ hw h => refreshed_step hw h)
    (fun _ _ _ hw hagrees h => agrees_step hw hagrees h) events nofun nofun

def droppedApp : List Event :=
  [.startWatcher, .store (.edit (.ensureRoute plainRuntime "C:\\apps\\note.exe".toList
    "clash".toList "drop-zone-set".toList true none true))]

theorem dropped_app_not_watched :
    ¬∀ (rt : Runtime) (store : Store) (events : List Event),
      Always (step rt) (Agrees rt) (start store) events := by
  intro h
  have hlast := (always_iff_reached _ droppedApp).mp (h plainRuntime ⟨[], [], {}, false, []⟩ droppedApp)
  have hagrees := hlast droppedApp [] _ (List.append_nil _).symm rfl
  have hhit := hagrees _ rfl { processId := 7, executablePath := "C:\\apps\\note.exe".toList }
  have hforwards : onEventArrived plainRuntime (refreshWatchedSet plainRuntime [])
      { processId := 7, executablePath := "C:\\apps\\note.exe".toList } = false := by decide
  rw [show (start ⟨[], [], {}, false, []⟩).store.routes = [] from rfl, hforwards] at hhit
  revert hhit
  decide

end ProxySwitch.ExternalWatcher
