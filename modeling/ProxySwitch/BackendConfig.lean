import ProxySwitch.DestinationRuleBounds
import ProxySwitch.IdentityMatching

set_option autoImplicit false

namespace ProxySwitch.BackendConfig
open AppRoutes KeyedLists RuntimeStrings IdentityMatching
open DestinationRules (DestinationRuleSettings)

structure ProxyInfo where
  id : Text
  host : Text := "127.0.0.1".toList
  port : ℤ
  deriving DecidableEq

/-- What `BuildConfigJson` reads of the switch configuration; a missing level is the empty text. -/
structure Config where
  proxies : List ProxyInfo
  routes : List AppRoute
  logLevel : Text := "Error".toList

structure ProxiFyreRule where
  appNames : List Text
  socks5ProxyEndpoint : Text
  supportedProtocols : List Text := ["TCP".toList, "UDP".toList]
  deriving DecidableEq

structure ProxiFyreRoot where
  logLevel : Text
  bypassLan : Bool
  proxies : List ProxiFyreRule
  appRoutes : List AppRoute
  destinationRules : List DestinationRuleSettings

def normalizeProxiFyreLogLevel (level : Text) : Text :=
  let level := (trimWhiteSpace level).map Char.toLower
  if level = "error".toList then "Error".toList
  else if level = "warning".toList ∨ level = "warn".toList then "Warning".toList
  else if level = "info".toList then "Info".toList
  else if level = "debug".toList then "Debug".toList
  else if level = "all".toList ∨ level = "trace".toList then "All".toList
  else "Info".toList

/-- A rule of the generated file, which writes the empty lists as well. -/
def steamRule (name : Text) (networks dstPorts cidrSets : List Text) : DestinationRuleSettings where
  name := name
  processNames := some ["steam.exe".toList]
  networks := some networks
  dstPorts := some dstPorts
  cidrSets := some cidrSets

def buildDefaultDestinationRules : List DestinationRuleSettings :=
  [steamRule "steam-cn-direct".toList ["tcp".toList, "udp".toList] [] ["rules/cn-ipv4.txt".toList],
    steamRule "steam-valve-direct".toList ["tcp".toList, "udp".toList] []
      ["rules/steam-valve-ipv4.txt".toList],
    steamRule "steam-download-cdn-direct".toList ["tcp".toList] ["80".toList]
      ["rules/steam-observed-download-cdn-ipv4.txt".toList],
    steamRule "steam-udp-direct".toList ["udp".toList]
      ["27000-27100".toList, "3478-4380".toList] []]

/-- `existing` is what the old file holds, `none` without a file that can be read. -/
def loadDestinationRulesForConfig (existing : Option (List DestinationRuleSettings)) :
    List DestinationRuleSettings :=
  match existing with
  | some (rule :: rules) => rule :: rules
  | _ => buildDefaultDestinationRules

def endpoint (proxy : ProxyInfo) : Text := proxy.host ++ ':' :: (toString proxy.port).toList

section Build
variable (rt : Runtime) (write : ConfigWrite) (cfg : Config)

/-- The names of one group, which leaves out routes without a name. -/
def groupAppNames (group : List AppRoute) : List Text :=
  distinct rt.upper [] (group.filterMap fun route =>
    let appName := (resolveBackendAppName rt write route).1
    if appName = [] then none else some appName)

def endpointByProxyId : Option (List (Text × Text)) :=
  toDictionary (cfg.proxies.map fun p => (p.id, endpoint p))

/-- The routes that the query over `AppRoutes` lets through. -/
def isCollected (endpoints : List (Text × Text)) (route : AppRoute) : Bool :=
  route.enabled && !route.ipcManaged && (endpoints.lookup route.proxyId).isSome

def legacyAppNamesByProxyId (endpoints : List (Text × Text)) : List (Text × List Text) :=
  (groupBy AppRoute.proxyId (cfg.routes.filter (isCollected endpoints))).map fun group =>
    (group.1, groupAppNames rt write group.2)

def buildRules (endpoints : List (Text × Text)) : Option (List ProxiFyreRule) :=
  cfg.proxies.mapM fun proxy => (endpoints.lookup proxy.id).map fun socks5ProxyEndpoint =>
    { appNames := ((legacyAppNamesByProxyId rt write cfg endpoints).lookup proxy.id).getD []
      socks5ProxyEndpoint := socks5ProxyEndpoint }

def resolveRoute (endpoints : List (Text × Text)) (route : AppRoute) : AppRoute :=
  if isCollected endpoints route then (resolveBackendAppName rt write route).2 else route

/-- The content that is serialized, and the routes afterwards; `none` is an exception. -/
def buildConfigJson (existing : Option (List DestinationRuleSettings)) :
    Option (ProxiFyreRoot × List AppRoute) :=
  (endpointByProxyId cfg).bind fun endpoints =>
    (buildRules rt write cfg endpoints).map fun rules =>
      let routes := cfg.routes.map (resolveRoute rt write endpoints)
      ({ logLevel := normalizeProxiFyreLogLevel cfg.logLevel
         bypassLan := true
         proxies := rules
         appRoutes := routes.filter fun r => r.isPersistent && r.enabled
         destinationRules := loadDestinationRulesForConfig existing }, routes)

end Build

section Correctness
variable (rt : Runtime) (write : ConfigWrite) (cfg : Config)

def IsRouteOf (proxy : ProxyInfo) (route : AppRoute) : Prop :=
  route.enabled = true ∧ route.ipcManaged = false ∧ route.proxyId = proxy.id

def resolvedName (route : AppRoute) : Text := (resolveBackendAppName rt write route).1

def ResolvesTo (proxy : ProxyInfo) (name : Text) : Prop :=
  ∃ route ∈ cfg.routes, IsRouteOf proxy route ∧ resolvedName rt write route = name

/-- Some route of the proxy resolves to the name, which is not empty, and none before it to a name
    equal up to case. -/
def FirstResolvesTo (proxy : ProxyInfo) (name : Text) : Prop :=
  ∃ front route back, cfg.routes = front ++ route :: back ∧ IsRouteOf proxy route ∧
    resolvedName rt write route = name ∧ name ≠ [] ∧
    ∀ earlier ∈ front, IsRouteOf proxy earlier →
      equalsIgnoreCase rt.upper (resolvedName rt write earlier) name = false

/-- The rule of a proxy, with `occurs` as the names that belong into it. -/
structure RuleOf (occurs : ProxyInfo → Text → Prop) (proxy : ProxyInfo) (rule : ProxiFyreRule) :
    Prop where
  endpoint : rule.socks5ProxyEndpoint = endpoint proxy
  names : ∀ name, name ∈ rule.appNames ↔ occurs proxy name
  noTwins : rule.appNames.Pairwise fun a b => equalsIgnoreCase rt.upper a b = false

def contributes (route : AppRoute) : Bool :=
  route.enabled && !route.ipcManaged && cfg.proxies.any (·.id == route.proxyId)

/-- One rule for each proxy in their order, and the same rules without the routes that do not
    contribute. -/
structure Correct (occurs : ProxyInfo → Text → Prop) (rules : List ProxiFyreRule) : Prop where
  perProxy : List.Forall₂ (RuleOf rt occurs) cfg.proxies rules
  others : ∀ existing, (buildConfigJson rt write
    { cfg with routes := cfg.routes.filter (contributes cfg) } existing).map (·.1.proxies) = some rules

end Correctness

section Names
variable {upper : Char → Char} {name : Text} {seen : List Text} {f : AppRoute → Option Text}

theorem equalsIgnoreCase_eq_false {a b : Text} :
    equalsIgnoreCase upper a b = false ↔ a.map upper ≠ b.map upper := beq_eq_false_iff_ne

theorem mem_distinct_filterMap {routes : List AppRoute} :
    name ∈ distinct upper seen (routes.filterMap f) ↔
      (∀ s ∈ seen, equalsIgnoreCase upper s name = false) ∧
        ∃ front route back, routes = front ++ route :: back ∧ f route = some name ∧
          ∀ earlier ∈ front, ∀ n, f earlier = some n → equalsIgnoreCase upper n name = false := by
  induction routes generalizing seen with
  | nil => simp [distinct]
  | cons head rest ih =>
    have hsplit : (∃ front route back, head :: rest = front ++ route :: back ∧ f route = some name ∧
        ∀ earlier ∈ front, ∀ n, f earlier = some n → equalsIgnoreCase upper n name = false) ↔
        f head = some name ∨
          (∀ n, f head = some n → equalsIgnoreCase upper n name = false) ∧
            ∃ front route back, rest = front ++ route :: back ∧ f route = some name ∧
              ∀ earlier ∈ front, ∀ n, f earlier = some n → equalsIgnoreCase upper n name = false := by
      rw [exists_split_cons_iff, and_iff_left (List.forall_mem_nil _)]
      simp only [List.forall_mem_cons]
      refine or_congr_right ⟨?_, ?_⟩
      · rintro ⟨front, route, back, hrest, hname, hhead, hfront⟩
        exact ⟨hhead, front, route, back, hrest, hname, hfront⟩
      · rintro ⟨hhead, front, route, back, hrest, hname, hfront⟩
        exact ⟨front, route, back, hrest, hname, hhead, hfront⟩
    rw [hsplit]
    cases hhead : f head with
    | none =>
      rw [List.filterMap_cons_none hhead, ih]
      simp
    | some n =>
      rw [List.filterMap_cons_some hhead]
      unfold distinct
      simp only [Option.some.injEq, forall_eq']
      split
      · rename_i hseen
        obtain ⟨s, hs, hsame⟩ := List.any_eq_true.mp hseen
        have hsn : n.map upper = s.map upper := beq_iff_eq.mp hsame
        rw [ih]
        refine and_congr_right fun hnone => ?_
        have hne : equalsIgnoreCase upper n name = false := by
          rw [equalsIgnoreCase_eq_false, hsn]
          exact equalsIgnoreCase_eq_false.mp (hnone s hs)
        have hname : n ≠ name := fun h => equalsIgnoreCase_eq_false.mp hne (h ▸ rfl)
        simp [hname, hne]
      · rename_i hseen
        have hnew : ∀ s ∈ seen, equalsIgnoreCase upper s n = false := by
          intro s hs
          have hdiffer := List.any_eq_false.mp (eq_false_of_ne_true hseen) s hs
          exact equalsIgnoreCase_eq_false.mpr fun h => hdiffer (beq_iff_eq.mpr h.symm)
        rw [List.mem_cons, ih, List.forall_mem_cons]
        constructor
        · rintro (rfl | ⟨⟨hne, hnone⟩, hlater⟩)
          · exact ⟨hnew, .inl rfl⟩
          · exact ⟨hnone, .inr ⟨hne, hlater⟩⟩
        · rintro ⟨hnone, rfl | ⟨hne, hlater⟩⟩
          · exact .inl rfl
          · exact .inr ⟨⟨hne, hnone⟩, hlater⟩

theorem distinct_pairwise (names : List Text) :
    (distinct upper seen names).Pairwise (fun a b => equalsIgnoreCase upper a b = false) ∧
      ∀ n ∈ distinct upper seen names, ∀ s ∈ seen, equalsIgnoreCase upper s n = false := by
  induction names generalizing seen with
  | nil => exact ⟨.nil, List.forall_mem_nil _⟩
  | cons head rest ih =>
    unfold distinct
    split
    · exact ih
    · rename_i hseen
      have hrest := @ih (head :: seen)
      refine ⟨List.pairwise_cons.mpr ⟨fun n hn => hrest.2 n hn head List.mem_cons_self, hrest.1⟩, ?_⟩
      intro n hn s hs
      rcases List.mem_cons.mp hn with rfl | hn
      · have hdiffer := List.any_eq_false.mp (eq_false_of_ne_true hseen) s hs
        exact equalsIgnoreCase_eq_false.mpr fun h => hdiffer (beq_iff_eq.mpr h.symm)
      · exact hrest.2 n hn s (List.mem_cons_of_mem _ hs)

end Names

section Rules
variable {rt : Runtime} {write : ConfigWrite} {cfg : Config}

/-- The backend that the other modules read `proxyIds` of. -/
def backendOf (cfg : Config) : Backend := ⟨true, .running, false, cfg.proxies.map ProxyInfo.id⟩

def ruleFor (rt : Runtime) (write : ConfigWrite) (cfg : Config) (proxy : ProxyInfo) : ProxiFyreRule :=
  { appNames := appNames rt (backendOf cfg) write cfg.routes proxy.id
    socks5ProxyEndpoint := endpoint proxy }

theorem endpointByProxyId_eq (h : (cfg.proxies.map ProxyInfo.id).Nodup) :
    endpointByProxyId cfg = some (cfg.proxies.map fun p => (p.id, endpoint p)) := by
  refine if_pos ?_
  rw [List.map_map]
  exact h

theorem lookup_isSome_eq (proxyId : Text) :
    ((cfg.proxies.map fun p => (p.id, endpoint p)).lookup proxyId).isSome =
      (backendOf cfg).proxyIds.contains proxyId := by
  unfold backendOf
  induction cfg.proxies with
  | nil => rfl
  | cons p proxies ih =>
    rw [List.map_cons, List.map_cons, List.lookup_cons, List.contains_cons]
    cases hid : proxyId == p.id with
    | true => rfl
    | false => exact ih

theorem isCollected_eq (route : AppRoute) :
    isCollected (cfg.proxies.map fun p => (p.id, endpoint p)) route = isLegacy (backendOf cfg) route :=
  congrArg (route.enabled && !route.ipcManaged && ·) (lookup_isSome_eq route.proxyId)

theorem groupAppNames_eq (proxyId : Text) :
    groupAppNames rt write ((cfg.routes.filter
        (isCollected (cfg.proxies.map fun p => (p.id, endpoint p)))).filter (·.proxyId == proxyId)) =
      appNames rt (backendOf cfg) write cfg.routes proxyId := by
  unfold groupAppNames appNames
  rw [List.filterMap_filter, List.filterMap_filter, List.filterMap_filter]
  refine congrArg (fun g => distinct rt.upper [] (cfg.routes.filterMap g)) (funext fun route => ?_)
  rw [isCollected_eq]
  unfold writtenName
  cases isLegacy (backendOf cfg) route with
  | true => cases route.proxyId == proxyId <;> simp
  | false => simp

theorem buildRules_eq (h : (cfg.proxies.map ProxyInfo.id).Nodup) :
    buildRules rt write cfg (cfg.proxies.map fun p => (p.id, endpoint p)) =
      some (cfg.proxies.map (ruleFor rt write cfg)) := by
  refine (mapM_eq_some_map fun proxy hproxy => ?_)
  have hnodup : ((cfg.proxies.map fun p => (p.id, endpoint p)).map Prod.fst).Nodup := by
    rw [List.map_map]
    exact h
  have hlookup := lookup_of_nodup hnodup (List.mem_map.mpr ⟨proxy, hproxy, rfl⟩)
  have hnames : ((legacyAppNamesByProxyId rt write cfg
      (cfg.proxies.map fun p => (p.id, endpoint p))).lookup proxy.id).getD [] =
        appNames rt (backendOf cfg) write cfg.routes proxy.id := by
    unfold legacyAppNamesByProxyId
    have hempty : groupAppNames rt write [] = [] := rfl
    rw [lookup_map, ← hempty, Option.getD_map, lookup_groupBy, groupAppNames_eq]
  rw [hlookup, Option.map_some, hnames]
  rfl

theorem buildConfigJson_eq (h : (cfg.proxies.map ProxyInfo.id).Nodup)
    (existing : Option (List DestinationRuleSettings)) :
    ∃ root routes, buildConfigJson rt write cfg existing = some (root, routes) ∧
      root.proxies = cfg.proxies.map (ruleFor rt write cfg) := by
  unfold buildConfigJson
  rw [endpointByProxyId_eq h, Option.bind_some, buildRules_eq h, Option.map_some]
  exact ⟨_, _, rfl, rfl⟩

theorem contributes_eq : contributes cfg = isLegacy (backendOf cfg) := by
  funext route
  unfold contributes isLegacy backendOf
  rw [List.contains_map]
  exact congrArg (route.enabled && !route.ipcManaged && ·) (List.any_congr rfl fun _ => BEq.comm)

theorem appNames_legacy (proxyId : Text) :
    appNames rt (backendOf cfg) write (cfg.routes.filter (isLegacy (backendOf cfg))) proxyId =
      appNames rt (backendOf cfg) write cfg.routes proxyId := by
  unfold appNames
  rw [List.filterMap_filter, List.filterMap_filter, List.filterMap_filter]
  refine congrArg (fun g => distinct rt.upper [] (cfg.routes.filterMap g)) (funext fun route => ?_)
  unfold writtenName
  cases isLegacy (backendOf cfg) route <;> simp

theorem writtenName_eq_some {proxy : ProxyInfo} (hproxy : proxy ∈ cfg.proxies) {route : AppRoute}
    {name : Text} : (route.proxyId = proxy.id ∧ writtenName rt (backendOf cfg) write route = some name) ↔
      IsRouteOf proxy route ∧ resolvedName rt write route = name ∧ name ≠ [] := by
  have hknown : route.proxyId = proxy.id → (backendOf cfg).proxyIds.contains route.proxyId = true := by
    intro hid
    rw [List.contains_iff_mem, hid]
    exact List.mem_map.mpr ⟨proxy, hproxy, rfl⟩
  unfold writtenName IsRouteOf resolvedName
  constructor
  · rintro ⟨hid, hname⟩
    obtain ⟨hlegacy, hname⟩ := Option.ite_none_right_eq_some.mp hname
    obtain ⟨hne, hname⟩ := Option.ite_none_left_eq_some.mp hname
    obtain rfl := Option.some.inj hname
    simp only [isLegacy, Bool.and_eq_true, Bool.not_eq_true'] at hlegacy
    exact ⟨⟨hlegacy.1.1, hlegacy.1.2, hid⟩, rfl, hne⟩
  · rintro ⟨⟨henabled, hipc, hid⟩, rfl, hne⟩
    have hlegacy : isLegacy (backendOf cfg) route = true := by
      simp only [isLegacy, henabled, hipc, hknown hid, Bool.not_false, Bool.and_self]
    refine ⟨hid, ?_⟩
    rw [if_pos hlegacy, if_neg hne]

theorem mem_appNames_iff {proxy : ProxyInfo} (hproxy : proxy ∈ cfg.proxies) (name : Text) :
    name ∈ appNames rt (backendOf cfg) write cfg.routes proxy.id ↔
      FirstResolvesTo rt write cfg proxy name := by
  unfold appNames
  rw [List.filterMap_filter, mem_distinct_filterMap, and_iff_right (List.forall_mem_nil _)]
  have htest : ∀ route n, (if (route.proxyId == proxy.id) = true then
      writtenName rt (backendOf cfg) write route else none) = some n ↔
        IsRouteOf proxy route ∧ resolvedName rt write route = n ∧ n ≠ [] := by
    intro route n
    rw [Option.ite_none_right_eq_some, beq_iff_eq]
    exact writtenName_eq_some hproxy
  simp only [htest]
  constructor
  · rintro ⟨front, route, back, hroutes, ⟨hroute, hname, hne⟩, hfront⟩
    refine ⟨front, route, back, hroutes, hroute, hname, hne, fun earlier hearlier hof => ?_⟩
    by_cases hempty : resolvedName rt write earlier = []
    · rw [hempty]
      exact equalsIgnoreCase_eq_false.mpr fun h => hne (List.map_eq_nil_iff.mp h.symm)
    · exact hfront earlier hearlier _ ⟨hof, rfl, hempty⟩
  · rintro ⟨front, route, back, hroutes, hroute, hname, hne, hfront⟩
    refine ⟨front, route, back, hroutes, ⟨hroute, hname, hne⟩, ?_⟩
    rintro earlier hearlier n ⟨hof, rfl, -⟩
    exact hfront earlier hearlier hof

/-- The rules of a configuration with distinct proxies, over the names that are found first. -/
theorem buildConfigJson_correct (rt : Runtime) (write : ConfigWrite) (cfg : Config)
    (existing : Option (List DestinationRuleSettings)) (h : (cfg.proxies.map ProxyInfo.id).Nodup) :
    ∃ root routes, buildConfigJson rt write cfg existing = some (root, routes) ∧
      Correct rt write cfg (FirstResolvesTo rt write cfg) root.proxies := by
  obtain ⟨root, routes, hbuild, hrules⟩ := buildConfigJson_eq h existing
  refine ⟨root, routes, hbuild, ?_, fun other => ?_⟩
  · rw [hrules, List.forall₂_map_right_iff, List.forall₂_same]
    intro proxy hproxy
    exact ⟨rfl, mem_appNames_iff hproxy, (distinct_pairwise _).1⟩
  · obtain ⟨root', routes', hbuild', hrules'⟩ := @buildConfigJson_eq rt write
      { cfg with routes := cfg.routes.filter (contributes cfg) } h other
    rw [hbuild', Option.map_some, hrules', hrules]
    refine congrArg some (List.map_congr_left fun proxy _ => ?_)
    unfold ruleFor
    rw [contributes_eq]
    exact congrArg (ProxiFyreRule.mk · _ _) (@appNames_legacy rt write cfg proxy.id)

theorem buildConfigJson_routes {existing : Option (List DestinationRuleSettings)}
    {root : ProxiFyreRoot} {routes : List AppRoute} (hbuilt : write.built = true)
    (h : buildConfigJson rt write cfg existing = some (root, routes)) :
    routes = (writeConfig rt (backendOf cfg) write cfg.routes).2 := by
  unfold buildConfigJson at h
  obtain ⟨endpoints, hendpoints, h⟩ := Option.bind_eq_some_iff.mp h
  obtain ⟨rules, -, hroot⟩ := Option.map_eq_some_iff.mp h
  obtain ⟨-, hdictionary⟩ := Option.ite_none_right_eq_some.mp hendpoints
  obtain rfl := Option.some.inj hdictionary
  obtain rfl := (Prod.mk.inj hroot).2
  refine List.map_congr_left fun route _ => ?_
  unfold resolveRoute ConfigWrite.refresh
  rw [isCollected_eq, hbuilt, Bool.true_and]
  rfl

end Rules

def twoSpellings : Config where
  proxies := [{ id := "clash".toList, port := 7897 }]
  routes := ["Note.exe".toList, "note.exe".toList].map fun processName =>
    { processName := processName, proxyId := "clash".toList, matchKind := .processName }

def plainWrite : ConfigWrite := ⟨true, true, fun _ _ => none, 0⟩

theorem buildConfigJson_correct_two_spellings : ∃ root routes,
    buildConfigJson plainRuntime plainWrite twoSpellings none = some (root, routes) ∧
      Correct plainRuntime plainWrite twoSpellings
        (FirstResolvesTo plainRuntime plainWrite twoSpellings) root.proxies :=
  buildConfigJson_correct plainRuntime plainWrite twoSpellings none (by decide)

theorem second_spelling_missing :
    ¬ ∀ (rt : Runtime) (write : ConfigWrite) (cfg : Config)
      (existing : Option (List DestinationRuleSettings)), (cfg.proxies.map ProxyInfo.id).Nodup →
        ∃ root routes, buildConfigJson rt write cfg existing = some (root, routes) ∧
          Correct rt write cfg (ResolvesTo rt write cfg) root.proxies := by
  intro h
  obtain ⟨root, routes, hbuild, hcorrect⟩ :=
    h plainRuntime plainWrite twoSpellings none (by decide)
  have hrules : root.proxies = [⟨["Note.exe".toList], "127.0.0.1:7897".toList,
      ["TCP".toList, "UDP".toList]⟩] := by
    have hproxies : (buildConfigJson plainRuntime plainWrite twoSpellings none).map (·.1.proxies) =
        some [⟨["Note.exe".toList], "127.0.0.1:7897".toList, ["TCP".toList, "UDP".toList]⟩] := by
      decide
    rw [hbuild] at hproxies
    exact Option.some.inj hproxies
  have hrule := hcorrect.perProxy
  rw [hrules] at hrule
  have hsecond := ((List.forall₂_cons.mp hrule).1.names "note.exe".toList).mpr
    ⟨_, List.mem_cons_of_mem _ (List.mem_singleton_self _), ⟨rfl, rfl, rfl⟩, by decide⟩
  exact absurd hsecond (by decide)

section Defaults
open DestinationRules DestinationRuleBounds

/-- The rules written without an old file are ones that the service enables. -/
theorem default_rules_enabled (env : Platform) (hmarshal : ∀ text, env.marshal text = text) :
    ∀ rule ∈ buildDefaultDestinationRules, Enabled env rule := by
  have hvector : ∀ values, toStringVector env values = values.filter (!isNullOrWhiteSpace ·) := by
    intro values
    rw [toStringVector, funext hmarshal]
    exact List.map_id _
  intro rule hrule
  unfold Enabled
  rw [hvector]
  revert hrule
  revert rule
  decide

theorem loadDestinationRulesForConfig_ne_nil (existing : Option (List DestinationRuleSettings)) :
    loadDestinationRulesForConfig existing ≠ [] := by
  unfold loadDestinationRulesForConfig
  split
  · exact List.cons_ne_nil _ _
  · exact List.cons_ne_nil _ _

end Defaults

end ProxySwitch.BackendConfig
