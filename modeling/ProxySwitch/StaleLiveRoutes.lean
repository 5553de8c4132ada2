import ProxySwitch.RouteStore
import ProxySwitch.TransitionRuns

set_option autoImplicit false

namespace ProxySwitch.StaleLiveRoutes
open AppRoutes IdentityMatching RouteStore RuntimeStrings TransitionRuns

def HasStaleRule (s : Store) : Prop := ∃ rule ∈ s.liveRules, rule ∉ s.appConfig.rules

def Honest (s : Store) : Prop := HasStaleRule s → s.hasStaleLiveRoutes = true

section Runs
variable (upper : Char → Char)

def step (s : Store) (e : Event) : Option Store := some (next upper s e)

def RestartClears (s : Store) (e : Event) : Prop :=
  e = .restartService true → (next upper s e).hasStaleLiveRoutes = false

def IsRuleOf (call : WriteCall) (route : AppRoute) (rule : Rule) : Prop :=
  ∃ name, writtenName { call.rt with upper := upper } call.backend call.write route = some name ∧
    rule = (call.endpoint route.proxyId, name.map upper)

/-- A write that does not mark, while nothing is marked, still finds a route for each live rule; and
    the settings are only loaded anew while the file has all of them. -/
def KeepsLiveRules (s : Store) : Event → Prop
  | .writeConfig call writer => (call.write.built && call.write.written) = true →
      writer.marks = false → s.hasStaleLiveRoutes = false →
        ∀ rule ∈ s.liveRules, ∃ route ∈ s.routes, IsRuleOf upper call route rule
  | .load _ _ => ∀ rule ∈ s.liveRules, rule ∈ s.appConfig.rules
  | .edit _ | .saveSwitchConfig _ | .restartService _ => True

variable {upper}

theorem mem_map_distinct (upper : Char → Char) (names seen : List Text) (name : Text) :
    name ∈ (distinct upper seen names).map (List.map upper) ∨ name ∈ seen.map (List.map upper) ↔
      name ∈ names.map (List.map upper) ∨ name ∈ seen.map (List.map upper) := by
  induction names generalizing seen with
  | nil => rfl
  | cons head rest ih =>
    unfold distinct
    split
    · rename_i hseen
      obtain ⟨old, hold, hsame⟩ := List.any_eq_true.mp hseen
      rw [ih, List.map_cons, List.mem_cons, or_assoc]
      refine (or_iff_right_of_imp fun hname => .inr ?_).symm
      rw [hname, beq_iff_eq.mp hsame]
      exact List.mem_map_of_mem hold
    · have hrest := ih (head :: seen)
      simp only [List.map_cons, List.mem_cons] at hrest ⊢
      tauto

theorem mem_appNames_upper {rt : Runtime} {backend : Backend} {write : ConfigWrite}
    {routes : List AppRoute} {proxyId name : Text} :
    name ∈ (appNames { rt with upper := upper } backend write routes proxyId).map (List.map upper) ↔
      ∃ route ∈ routes, route.proxyId = proxyId ∧ ∃ written,
        writtenName { rt with upper := upper } backend write route = some written ∧
          written.map upper = name := by
  have h := mem_map_distinct upper ((routes.filter (·.proxyId == proxyId)).filterMap
    (writtenName { rt with upper := upper } backend write)) [] name
  simp only [List.map_nil, List.not_mem_nil, or_false] at h
  refine h.trans ?_
  simp only [List.mem_map, List.mem_filterMap, List.mem_filter, beq_iff_eq]
  constructor
  · rintro ⟨written, ⟨route, ⟨hroute, hproxy⟩, hwritten⟩, rfl⟩
    exact ⟨route, hroute, hproxy, written, hwritten, rfl⟩
  · rintro ⟨route, hroute, hproxy, written, hwritten, rfl⟩
    exact ⟨written, ⟨route, ⟨hroute, hproxy⟩, hwritten⟩, rfl⟩

/-- Only routes of configured proxies are written. -/
theorem proxyId_of_writtenName {rt : Runtime} {backend : Backend} {write : ConfigWrite}
    {route : AppRoute} {name : Text} (h : writtenName rt backend write route = some name) :
    route.proxyId ∈ backend.proxyIds := by
  unfold writtenName at h
  split at h
  · rename_i hlegacy
    simp only [isLegacy, Bool.and_eq_true] at hlegacy
    exact List.contains_iff_mem.mp hlegacy.2
  · cases h

theorem mem_rules {call : WriteCall} {routes : List AppRoute} {rule : Rule} :
    rule ∈ rules upper call routes ↔ ∃ route ∈ routes, IsRuleOf upper call route rule := by
  simp only [rules, List.mem_flatMap]
  constructor
  · rintro ⟨proxyId, -, hrule⟩
    obtain ⟨name, hname, rfl⟩ := List.mem_map.mp hrule
    obtain ⟨route, hroute, rfl, written, hwritten, hsame⟩ :=
      mem_appNames_upper.mp (List.mem_map_of_mem hname)
    exact ⟨route, hroute, written, hwritten, by rw [hsame]⟩
  · rintro ⟨route, hroute, name, hwritten, rfl⟩
    refine ⟨route.proxyId, proxyId_of_writtenName hwritten, ?_⟩
    obtain ⟨written, hmem, hsame⟩ := List.mem_map.mp
      (mem_appNames_upper.mpr ⟨route, hroute, rfl, name, hwritten, rfl⟩)
    exact List.mem_map.mpr ⟨written, hmem, by rw [hsame]⟩

theorem honest_iff_of_unmarked {s : Store} (h : s.hasStaleLiveRoutes = false) :
    Honest s ↔ ∀ rule ∈ s.liveRules, rule ∈ s.appConfig.rules := by
  simp only [Honest, HasStaleRule, h, Bool.false_eq_true, imp_false, not_exists, not_and, not_not]

theorem honest_writeConfig {s : Store} (hs : Honest s) (call : WriteCall) (writer : ConfigWriter) :
    Honest (s.writeConfig upper call writer) ↔
      KeepsLiveRules upper s (.writeConfig call writer) := by
  simp only [Store.writeConfig, KeepsLiveRules]
  cases hwritten : call.write.built && call.write.written with
  | false =>
    simp only [Bool.false_eq_true, if_false, false_imp_iff, iff_true]
    exact hs
  | true =>
    cases hmarked : s.hasStaleLiveRoutes || writer.marks with
    | true =>
      refine iff_of_true (fun _ => rfl) fun _ hmarks hflag => ?_
      rw [hmarks, hflag] at hmarked
      cases hmarked
    | false =>
      obtain ⟨hflag, hmarks⟩ := Bool.or_eq_false_iff.mp hmarked
      refine (honest_iff_of_unmarked rfl).trans ?_
      simp only [if_true, forall_const, hmarks, hflag]
      exact forall₂_congr fun rule _ => mem_rules

theorem honest_step {s s' : Store} {e : Event} (hs : Honest s) (h : step upper s e = some s') :
    Honest s' ↔ KeepsLiveRules upper s e := by
  obtain rfl := Option.some.inj h
  cases e with
  | edit e => exact iff_of_true hs trivial
  | saveSwitchConfig saved =>
    refine iff_of_true ?_ trivial
    cases saved
    · exact hs
    · exact hs
  | writeConfig call writer => exact honest_writeConfig hs call writer
  | restartService succeeds =>
    refine iff_of_true ?_ trivial
    cases succeeds with
    | false => exact hs
    | true => exact (honest_iff_of_unmarked rfl).mpr fun _ hrule => hrule
  | load saved loaded => exact honest_iff_of_unmarked rfl

theorem restart_clears (s : Store) (e : Event) : RestartClears upper s e := by
  rintro rfl
  rfl

end Runs

/-- From any state, the flag is honest through a run precisely when it is at first and no step of
    the run drops a live rule without marking it. -/
theorem always_honest_iff (upper : Char → Char) (s : Store) (events : List Event) :
    (Always (step upper) Honest s events ∧ Meets (step upper) (RestartClears upper) s events) ↔
      Honest s ∧ Meets (step upper) (KeepsLiveRules upper) s events := by
  have hiff (hs : Honest s) : Always (step upper) Honest s events ↔
      Meets (step upper) (KeepsLiveRules upper) s events :=
    always_iff_meets (I := fun _ => True) (fun _ _ _ _ _ => trivial)
      (fun _ _ _ _ hs h => honest_step hs h) events trivial hs
  constructor
  · rintro ⟨h, -⟩
    exact ⟨always_head h, (hiff (always_head h)).mp h⟩
  · rintro ⟨hs, h⟩
    refine ⟨(hiff hs).mpr h, ?_⟩
    exact meets_of_always (fun s e _ => restart_clears s e)
      (always_of_invariant (I := fun _ => True) (fun _ _ _ _ _ => trivial) events trivial)

/-- The service is restarted with the rule of one launch; a second launch of the same app takes the
    route over, fails and rolls back. -/
def secondLaunchFails : List Event :=
  let call : WriteCall := ⟨plainRuntime, ⟨true, .running, false, ["clash".toList]⟩,
    ⟨true, true, fun _ _ => none, 0⟩, fun _ => "127.0.0.1:7890".toList⟩
  let launch (sessionId : Text) : Event := .edit (.ensureRoute plainRuntime
    "C:\\apps\\note.exe".toList "clash".toList "drop-zone-tmp".toList false (some sessionId) false)
  [launch "0a1b2c3d".toList, .writeConfig call .initialRouting, .restartService true,
    launch "4e5f6a7b".toList, .writeConfig call .initialRouting,
    .edit (.removeRouteByExe plainRuntime "C:\\apps\\note.exe".toList "clash".toList),
    .writeConfig call (.genericRollback .routeLaunching)]

theorem rollback_not_marked :
    ¬∀ (upper : Char → Char) (routes : List AppRoute) (events : List Event),
      Always (step upper) Honest ⟨routes, routes, {}, false, []⟩ events := by
  intro h
  have hlast := (always_iff_reached _ _).mp (h Char.toUpper [] secondLaunchFails)
    secondLaunchFails [] _ (List.append_nil _).symm rfl
  have hflag := hlast ⟨("127.0.0.1:7890".toList, "C:\\APPS\\NOTE.EXE".toList), by decide, by decide⟩
  exact absurd hflag (by decide)

end ProxySwitch.StaleLiveRoutes
