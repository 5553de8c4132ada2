import ProxySwitch.BackendConfig

set_option autoImplicit false

namespace ProxySwitch.ConfigRewriting
open AppRoutes KeyedLists RuntimeStrings IdentityMatching BackendConfig
open DestinationRules (DestinationRuleSettings)

section Members
variable {α : Type}

inductive Member (α : Type)
  | missing
  | null
  | value (content : α)
  deriving DecidableEq

def Member.deserialize (initial : α) : Member α → Option α
  | .missing => some initial
  | .null => none
  | .value content => some content

/-- `WhenWritingNull` leaves a null property out. -/
def Member.serialize : Option α → Member α
  | none => .missing
  | some content => .value content

theorem Member.deserialize_serialize (initial : α) (property : Option α) :
    (Member.serialize property).deserialize initial = some (property.getD initial) := by
  cases property <;> rfl

theorem Member.deserialize_eq_none {initial : α} {m : Member α} :
    m.deserialize initial = none ↔ m = .null := by
  cases m <;> simp [Member.deserialize]

end Members

structure DestinationRule (F : Type → Type) where
  name : F Text
  action : F Text
  processNames : F (List Text)
  processPaths : F (List Text)
  networks : F (List Text)
  dstPorts : F (List Text)
  dstCidrs : F (List Text)
  cidrSets : F (List Text)

abbrev ProxiFyreDestinationRule := DestinationRule Option

abbrev RuleMembers := DestinationRule Member

namespace DestinationRule
variable {F G : Type → Type}

/-- Every property by itself, with its initial value. -/
def convert (f : (α : Type) → α → F α → G α) (rule : DestinationRule F) : DestinationRule G where
  name := f _ "direct".toList rule.name
  action := f _ "direct".toList rule.action
  processNames := f _ [] rule.processNames
  processPaths := f _ [] rule.processPaths
  networks := f _ [] rule.networks
  dstPorts := f _ [] rule.dstPorts
  dstCidrs := f _ [] rule.dstCidrs
  cidrSets := f _ [] rule.cidrSets

def Each (p : (α : Type) → F α → Prop) (rule : DestinationRule F) : Prop :=
  (p _ rule.name ∧ p _ rule.action) ∧
    (p _ rule.processNames ∧ p _ rule.processPaths ∧ p _ rule.networks ∧ p _ rule.dstPorts ∧
      p _ rule.dstCidrs ∧ p _ rule.cidrSets)

theorem ext_iff {a b : DestinationRule F} : a = b ↔
    (a.name = b.name ∧ a.action = b.action) ∧
      (a.processNames = b.processNames ∧ a.processPaths = b.processPaths ∧
        a.networks = b.networks ∧ a.dstPorts = b.dstPorts ∧ a.dstCidrs = b.dstCidrs ∧
        a.cidrSets = b.cidrSets) := by
  cases a
  cases b
  simp [and_assoc]

instance : DecidableEq ProxiFyreDestinationRule := fun _ _ => decidable_of_iff _ ext_iff.symm

instance : DecidableEq RuleMembers := fun _ _ => decidable_of_iff _ ext_iff.symm

theorem convert_eq_self_iff {f : (α : Type) → α → F α → F α} {p : (α : Type) → F α → Prop}
    (h : ∀ (α : Type) (initial : α) (property : F α), f α initial property = property ↔ p α property)
    (rule : DestinationRule F) : rule.convert f = rule ↔ rule.Each p := by
  rw [ext_iff]
  unfold convert Each
  simp only [h]

theorem convert_convert {H : Type → Type} (f : (α : Type) → α → F α → G α)
    (g : (α : Type) → α → G α → H α) (rule : DestinationRule F) :
    (rule.convert f).convert g = rule.convert fun _ initial property =>
      g _ initial (f _ initial property) := rfl

theorem each_convert {f : (α : Type) → α → F α → G α} {p : (α : Type) → F α → Prop}
    {q : (α : Type) → G α → Prop}
    (h : ∀ (α : Type) (initial : α) (property : F α), q α (f α initial property) ↔ p α property)
    (rule : DestinationRule F) : (rule.convert f).Each q ↔ rule.Each p := by
  unfold convert Each
  simp only [h]

end DestinationRule

def deserializeRule (members : RuleMembers) : ProxiFyreDestinationRule :=
  members.convert fun _ initial => Member.deserialize initial

def serializeRule (rule : ProxiFyreDestinationRule) : RuleMembers :=
  rule.convert fun _ _ => Member.serialize

def NoNull (members : RuleMembers) : Prop := members.Each fun _ member => member ≠ .null

/-- What comes back of a rule that is written: the initial values in the place of nulls. -/
def fill (rule : ProxiFyreDestinationRule) : ProxiFyreDestinationRule :=
  rule.convert fun _ initial property => some (property.getD initial)

theorem deserializeRule_serializeRule (rule : ProxiFyreDestinationRule) :
    deserializeRule (serializeRule rule) = fill rule := by
  unfold deserializeRule serializeRule fill
  rw [DestinationRule.convert_convert]
  simp only [Member.deserialize_serialize]

theorem fill_eq_self_iff {rule : ProxiFyreDestinationRule} :
    fill rule = rule ↔ rule.Each fun _ property => property.isSome = true := by
  refine DestinationRule.convert_eq_self_iff (fun α initial property => ?_) rule
  cases property <;> simp

theorem fill_fill (rule : ProxiFyreDestinationRule) : fill (fill rule) = fill rule := rfl

theorem fill_deserializeRule_iff {members : RuleMembers} :
    fill (deserializeRule members) = deserializeRule members ↔ NoNull members := by
  rw [fill_eq_self_iff]
  refine DestinationRule.each_convert (fun α initial member => ?_) members
  rw [Option.isSome_iff_ne_none, Ne, Member.deserialize_eq_none]

/-- A rule as the service is given it, where a null text is the empty one. -/
def settingsOf (rule : ProxiFyreDestinationRule) : DestinationRuleSettings where
  name := rule.name.getD []
  action := rule.action.getD []
  processNames := rule.processNames
  processPaths := rule.processPaths
  networks := rule.networks
  dstPorts := rule.dstPorts
  dstCidrs := rule.dstCidrs
  cidrSets := rule.cidrSets

def ofSettings (rule : DestinationRuleSettings) : ProxiFyreDestinationRule where
  name := some rule.name
  action := some rule.action
  processNames := rule.processNames
  processPaths := rule.processPaths
  networks := rule.networks
  dstPorts := rule.dstPorts
  dstCidrs := rule.dstCidrs
  cidrSets := rule.cidrSets

theorem settingsOf_ofSettings (rule : DestinationRuleSettings) : settingsOf (ofSettings rule) = rule :=
  rfl

/-- The content of the file that is serialized, its destination rules with their nulls. -/
@[ext]
structure WrittenRoot where
  logLevel : Text
  bypassLan : Bool
  proxies : List ProxiFyreRule
  appRoutes : List AppRoute
  destinationRules : List ProxiFyreDestinationRule
  deriving DecidableEq

/-- A text of the file: the one that the serializer makes of a root, or another one with what it has
    as `destinationRules`, which is `none` when it cannot be deserialized. -/
inductive ConfigText
  | written (root : WrittenRoot)
  | edited (destinationRules : Option (Member (List RuleMembers)))
  deriving DecidableEq

def ConfigText.destinationRules : ConfigText → Option (Member (List RuleMembers))
  | .written root => some (.value (root.destinationRules.map serializeRule))
  | .edited member => member

def heldRules (file : Option ConfigText) : Option (List RuleMembers) :=
  match file.bind ConfigText.destinationRules with
  | some (.value rules) => some rules
  | _ => none

def readRules (file : Option ConfigText) : Option (List ProxiFyreDestinationRule) :=
  (heldRules file).map (List.map deserializeRule)

/-- `LoadDestinationRulesForConfig`, from the file that is there. -/
def loadDestinationRules (file : Option ConfigText) : List ProxiFyreDestinationRule :=
  match readRules file with
  | some (rule :: rules) => rule :: rules
  | _ => buildDefaultDestinationRules.map ofSettings

section Write
variable (rt : Runtime) (write : ConfigWrite) (cfg : Config) (file : Option ConfigText)

def buildRoot : Option (WrittenRoot × List AppRoute) :=
  (buildConfigJson rt write cfg (some ((loadDestinationRules file).map settingsOf))).map fun built =>
    ({ logLevel := built.1.logLevel
       bypassLan := built.1.bypassLan
       proxies := built.1.proxies
       appRoutes := built.1.appRoutes
       destinationRules := loadDestinationRules file }, built.2)

/-- What a call of `WriteConfig` leaves; `returned` is false after an exception, and `backup` is the
    text that it copies. -/
structure Outcome where
  returned : Bool
  file : Option ConfigText
  routes : List AppRoute
  backup : Option ConfigText

def writeConfig : Outcome :=
  match (if write.built then buildRoot rt write cfg file else none) with
  | none => { returned := false, file := file, routes := cfg.routes, backup := none }
  | some (root, routes) =>
    { returned := write.written
      file := if write.written then some (.written root) else file
      routes := routes
      backup := file.filter (· ≠ .written root) }

def rewrites (calls : List (ConfigWrite × Config)) : Option ConfigText :=
  calls.foldl (fun file call => (writeConfig rt call.1 call.2 file).file) file

def RulesKept (calls : List (ConfigWrite × Config)) : Prop :=
  ∀ rules, readRules file = some rules → readRules (rewrites rt file calls) = some rules

def GetsThrough (write : ConfigWrite) (cfg : Config) : Prop :=
  (write.built = true ∧ write.written = true) ∧ (cfg.proxies.map ProxyInfo.id).Nodup

/-- The second of two calls, at another time and with the routes as the first one left them, writes
    the same text and copies nothing. -/
def Repeats (later : ℕ) : Prop :=
  let first := writeConfig rt write cfg file
  let second := writeConfig rt { write with now := later } { cfg with routes := first.routes } first.file
  first.returned = true → second.file = first.file ∧ second.backup = none

def SavedResolved (route : AppRoute) : Prop :=
  (route.isPersistent = true ∧ contributes cfg route = true) ∧
    (isPackaged route = true ∧ packagePath write route ≠ none)

end Write

/-- The same content for a reader that takes null texts as empty. -/
def WrittenRoot.toRoot (root : WrittenRoot) : ProxiFyreRoot where
  logLevel := root.logLevel
  bypassLan := root.bypassLan
  proxies := root.proxies
  appRoutes := root.appRoutes
  destinationRules := root.destinationRules.map settingsOf

section Build
variable {rt : Runtime} {write : ConfigWrite} {cfg : Config} {file : Option ConfigText}

theorem loadDestinationRules_ne_nil : loadDestinationRules file ≠ [] := by
  unfold loadDestinationRules
  split
  · exact List.cons_ne_nil _ _
  · exact List.cons_ne_nil _ _

theorem loadDestinationRules_held {rules : List RuleMembers} (hheld : heldRules file = some rules)
    (hne : rules ≠ []) : loadDestinationRules file = rules.map deserializeRule := by
  unfold loadDestinationRules readRules
  rw [hheld]
  cases rules with
  | nil => exact absurd rfl hne
  | cons head rest => rfl

theorem loadDestinationRules_default (h : ∀ rules, heldRules file = some rules → rules = []) :
    loadDestinationRules file = buildDefaultDestinationRules.map ofSettings := by
  unfold loadDestinationRules readRules
  cases hheld : heldRules file with
  | none => rfl
  | some rules =>
    rw [h rules hheld]
    rfl

theorem loadDestinationRulesForConfig_map :
    loadDestinationRulesForConfig ((readRules file).map (List.map settingsOf)) =
      (loadDestinationRules file).map settingsOf := by
  have hdefaults : (buildDefaultDestinationRules.map ofSettings).map settingsOf =
      buildDefaultDestinationRules := by
    rw [List.map_map]
    exact List.map_id'' settingsOf_ofSettings _
  unfold loadDestinationRules
  cases readRules file with
  | none => exact hdefaults.symm
  | some rules =>
    cases rules with
    | nil => exact hdefaults.symm
    | cons rule rules => rfl

theorem buildRoot_toRoot : (buildRoot rt write cfg file).map (fun built => (built.1.toRoot, built.2)) =
    buildConfigJson rt write cfg ((readRules file).map (List.map settingsOf)) := by
  have hload : loadDestinationRulesForConfig (some ((loadDestinationRules file).map settingsOf)) =
      (loadDestinationRules file).map settingsOf := by
    cases hrules : loadDestinationRules file with
    | nil => exact absurd hrules loadDestinationRules_ne_nil
    | cons rule rules => rfl
  unfold buildRoot buildConfigJson
  rw [hload, loadDestinationRulesForConfig_map]
  cases endpointByProxyId cfg with
  | none => rfl
  | some endpoints =>
    rw [Option.bind_some]
    cases buildRules rt write cfg endpoints <;> rfl

def foundPath (write : ConfigWrite) (route : AppRoute) : Option Text :=
  if isPackaged route then packagePath write route else none

def cachedPath (write : ConfigWrite) (cfg : Config) (route : AppRoute) : Option Text :=
  if contributes cfg route then foundPath write route else none

def resolved (rt : Runtime) (write : ConfigWrite) (cfg : Config) (route : AppRoute) : AppRoute :=
  if contributes cfg route then (resolveBackendAppName rt write route).2 else route

def rootOf (rt : Runtime) (write : ConfigWrite) (cfg : Config) (file : Option ConfigText) :
    WrittenRoot where
  logLevel := normalizeProxiFyreLogLevel cfg.logLevel
  bypassLan := true
  proxies := cfg.proxies.map (ruleFor rt write cfg)
  appRoutes := (cfg.routes.map (resolved rt write cfg)).filter fun r => r.isPersistent && r.enabled
  destinationRules := loadDestinationRules file

theorem resolveRoute_eq :
    resolveRoute rt write (cfg.proxies.map fun p => (p.id, endpoint p)) = resolved rt write cfg := by
  funext route
  unfold resolveRoute resolved
  rw [isCollected_eq, contributes_eq]

theorem buildRoot_eq (h : (cfg.proxies.map ProxyInfo.id).Nodup) : buildRoot rt write cfg file =
    some (rootOf rt write cfg file, cfg.routes.map (resolved rt write cfg)) := by
  unfold buildRoot buildConfigJson
  rw [endpointByProxyId_eq h, Option.bind_some, buildRules_eq h, Option.map_some, Option.map_some,
    resolveRoute_eq]
  rfl

theorem buildRoot_eq_none (h : ¬ (cfg.proxies.map ProxyInfo.id).Nodup) :
    buildRoot rt write cfg file = none := by
  have hdictionary : endpointByProxyId cfg = none := by
    refine if_neg ?_
    rw [List.map_map]
    exact h
  unfold buildRoot buildConfigJson
  rw [hdictionary]
  rfl

theorem writeConfig_eq (h : GetsThrough write cfg) : writeConfig rt write cfg file =
    { returned := true
      file := some (.written (rootOf rt write cfg file))
      routes := cfg.routes.map (resolved rt write cfg)
      backup := file.filter (· ≠ .written (rootOf rt write cfg file)) } := by
  unfold writeConfig
  rw [if_pos h.1.1, buildRoot_eq h.2]
  simp only [h.1.2, if_true]

theorem writeConfig_fails (h : ¬ GetsThrough write cfg) :
    (writeConfig rt write cfg file).returned = false ∧
      (writeConfig rt write cfg file).file = file := by
  unfold writeConfig
  cases hbuilt : write.built with
  | false => exact ⟨rfl, rfl⟩
  | true =>
    rw [if_pos rfl]
    by_cases hids : (cfg.proxies.map ProxyInfo.id).Nodup
    · have hwritten : write.written = false := by
        cases hw : write.written with
        | false => rfl
        | true => exact absurd ⟨⟨hbuilt, hw⟩, hids⟩ h
      rw [buildRoot_eq hids]
      simp only [hwritten, Bool.false_eq_true, if_false, and_self]
    · rw [buildRoot_eq_none hids]
      exact ⟨rfl, rfl⟩

end Build

section Runs
variable {rt : Runtime} {file : Option ConfigText}

theorem readRules_written (root : WrittenRoot) :
    readRules (some (.written root)) = some (root.destinationRules.map fill) := by
  unfold readRules heldRules ConfigText.destinationRules
  simp only [Option.bind_some, Option.map_some, List.map_map]
  exact congrArg some (List.map_congr_left fun rule _ => deserializeRule_serializeRule rule)

theorem loadDestinationRules_written {root : WrittenRoot} (h : root.destinationRules ≠ []) :
    loadDestinationRules (some (.written root)) = root.destinationRules.map fill := by
  unfold loadDestinationRules
  rw [readRules_written]
  cases hrules : root.destinationRules with
  | nil => exact absurd hrules h
  | cons rule rules => rfl

theorem map_fill_fill (rules : List ProxiFyreDestinationRule) :
    (rules.map fill).map fill = rules.map fill := by
  rw [List.map_map]
  exact List.map_congr_left fun rule _ => fill_fill rule

theorem rewrites_of_fails {calls : List (ConfigWrite × Config)}
    (h : ∀ call ∈ calls, ¬ GetsThrough call.1 call.2) : rewrites rt file calls = file := by
  induction calls with
  | nil => rfl
  | cons call calls ih =>
    unfold rewrites
    rw [List.foldl_cons, (writeConfig_fails (h call List.mem_cons_self)).2]
    exact ih fun later hlater => h later (List.mem_cons_of_mem _ hlater)

/-- From the first call on that gets through the file has the rules that this call loads. -/
theorem readRules_rewrites {calls : List (ConfigWrite × Config)}
    (h : ∃ call ∈ calls, GetsThrough call.1 call.2) :
    readRules (rewrites rt file calls) = some ((loadDestinationRules file).map fill) := by
  induction calls generalizing file with
  | nil =>
    obtain ⟨call, hcall, -⟩ := h
    cases hcall
  | cons call calls ih =>
    unfold rewrites
    rw [List.foldl_cons]
    by_cases hcall : GetsThrough call.1 call.2
    · rw [writeConfig_eq hcall]
      by_cases hlater : ∃ later ∈ calls, GetsThrough later.1 later.2
      · refine Eq.trans (ih hlater) (congrArg some ?_)
        rw [loadDestinationRules_written loadDestinationRules_ne_nil]
        exact map_fill_fill _
      · have hfails : ∀ later ∈ calls, ¬ GetsThrough later.1 later.2 := fun later hmem hthrough =>
          hlater ⟨later, hmem, hthrough⟩
        refine Eq.trans (congrArg readRules (rewrites_of_fails hfails)) ?_
        exact readRules_written _
    · rw [(writeConfig_fails hcall).2]
      refine ih ?_
      obtain ⟨later, hmem, hthrough⟩ := h
      obtain rfl | hmem := List.mem_cons.mp hmem
      · exact absurd hthrough hcall
      · exact ⟨later, hmem, hthrough⟩

theorem map_fill_deserializeRule_iff (rules : List RuleMembers) :
    (rules.map deserializeRule).map fill = rules.map deserializeRule ↔
      ∀ members ∈ rules, NoNull members := by
  rw [List.map_map, List.map_inj_left]
  exact forall₂_congr fun members _ => fill_deserializeRule_iff

theorem heldRules_kept_iff {rules : List RuleMembers} (hheld : heldRules file = some rules) :
    (loadDestinationRules file).map fill = rules.map deserializeRule ↔
      rules ≠ [] ∧ ∀ members ∈ rules, NoNull members := by
  by_cases hne : rules = []
  · have hload : loadDestinationRules file = buildDefaultDestinationRules.map ofSettings := by
      refine loadDestinationRules_default fun held h => ?_
      rw [← hne]
      exact Option.some.inj (h.symm.trans hheld)
    rw [hload, hne]
    exact iff_of_false (List.cons_ne_nil _ _) fun h => h.1 rfl
  · rw [loadDestinationRules_held hheld hne, and_iff_right hne]
    exact map_fill_deserializeRule_iff rules

/-- In a run with a call that gets through, the list is kept when it has a rule and no null. -/
theorem rulesKept_iff (rt : Runtime) (file : Option ConfigText)
    (calls : List (ConfigWrite × Config)) : RulesKept rt file calls ↔
      ((∃ call ∈ calls, GetsThrough call.1 call.2) → ∀ rules, heldRules file = some rules →
        rules ≠ [] ∧ ∀ members ∈ rules, NoNull members) := by
  unfold RulesKept
  by_cases hthrough : ∃ call ∈ calls, GetsThrough call.1 call.2
  · rw [readRules_rewrites hthrough, forall_prop_of_true hthrough]
    constructor
    · intro h rules hheld
      refine (heldRules_kept_iff hheld).mp (Option.some.inj (h _ ?_))
      exact congrArg (Option.map _) hheld
    · intro h rules hread
      obtain ⟨held, hheld, rfl⟩ := Option.map_eq_some_iff.mp hread
      exact congrArg some ((heldRules_kept_iff hheld).mpr (h held hheld))
  · rw [rewrites_of_fails fun call hcall hget => hthrough ⟨call, hcall, hget⟩]
    exact iff_of_true (fun rules hread => hread) fun h => absurd h hthrough

def emptyList : Option ConfigText := some (.edited (some (.value [])))

theorem empty_list_replaced : ¬ ∀ (rt : Runtime) (file : Option ConfigText)
    (calls : List (ConfigWrite × Config)), RulesKept rt file calls := by
  intro h
  have hkept := h plainRuntime emptyList [(plainWrite, twoSpellings)] [] rfl
  have hnext : readRules (rewrites plainRuntime emptyList [(plainWrite, twoSpellings)]) =
      some ((buildDefaultDestinationRules.map ofSettings).map fill) := by
    refine readRules_rewrites ⟨_, List.mem_singleton_self _, ⟨rfl, rfl⟩, ?_⟩
    decide
  rw [hnext] at hkept
  cases hkept

end Runs

section Repetition
variable {rt : Runtime} {write : ConfigWrite} {cfg : Config} {file : Option ConfigText} {later : ℕ}
  {route : AppRoute}

/-- The name does not depend on what an earlier resolution has left in the route. -/
theorem resolveBackendAppName_fst (path : Text) (time : Option ℕ) :
    (resolveBackendAppName rt { write with now := later }
      { route with resolvedExePath := path, resolvedAt := time }).1 =
      (resolveBackendAppName rt write route).1 := by
  have hpackage : (resolveByPackage rt { write with now := later }
      { route with resolvedExePath := path, resolvedAt := time }).1 =
        (resolveByPackage rt write route).1 := by
    rw [resolveByPackage_fst, resolveByPackage_fst]
  unfold resolveBackendAppName
  dsimp only
  split
  · exact hpackage
  · split
    · exact hpackage
    · rfl
  · rfl
  · split <;> rfl

theorem resolveByPackage_snd : (resolveByPackage rt write route).2 =
    ((write.resolveMsixPath route.packageFamilyName route.packageRelativeExePath).filter
      (· ≠ [])).elim route (cacheResolution write route) := by
  rw [resolveByPackage_eq]
  cases (write.resolveMsixPath route.packageFamilyName route.packageRelativeExePath).filter (· ≠ [])
    <;> rfl

theorem resolveBackendAppName_snd : (resolveBackendAppName rt write route).2 =
    (foundPath write route).elim route (cacheResolution write route) := by
  unfold resolveBackendAppName foundPath packagePath isPackaged
  cases hkind : route.matchKind with
  | msixPackage =>
    simp only [beq_self_eq_true, Bool.true_or, if_true, reduceCtorEq, false_and, if_false]
    exact resolveByPackage_snd
  | appUserModelId =>
    simp only [beq_self_eq_true, Bool.or_true, if_true, true_and]
    by_cases hparts : route.packageFamilyName = [] ∨ route.packageRelativeExePath = []
    · rw [if_neg fun h => hparts.elim h.1 h.2, if_pos hparts]
      rfl
    · rw [if_pos (not_or.mp hparts), if_neg hparts]
      exact resolveByPackage_snd
  | processName => rfl
  | path =>
    dsimp only
    split <;> rfl
  | other name =>
    dsimp only
    split <;> rfl

theorem resolved_elim : resolved rt write cfg route =
    (cachedPath write cfg route).elim route (cacheResolution write route) := by
  unfold resolved cachedPath
  cases contributes cfg route with
  | false => rfl
  | true => exact resolveBackendAppName_snd

theorem resolved_eq : ∃ path time, resolved rt write cfg route =
    { route with resolvedExePath := path, resolvedAt := time } := by
  rw [resolved_elim]
  cases cachedPath write cfg route with
  | none => exact ⟨_, _, rfl⟩
  | some path => exact ⟨_, _, rfl⟩

theorem cachedPath_resolved : cachedPath { write with now := later } cfg (resolved rt write cfg route) =
    cachedPath write cfg route := by
  obtain ⟨path, time, h⟩ := @resolved_eq rt write cfg route
  rw [h]
  rfl

theorem writtenName_resolved (backend : Backend) :
    writtenName rt backend { write with now := later } (resolved rt write cfg route) =
      writtenName rt backend write route := by
  obtain ⟨path, time, h⟩ := @resolved_eq rt write cfg route
  rw [h]
  unfold writtenName
  rw [resolveBackendAppName_fst]
  rfl

theorem appNames_resolved (backend : Backend) (routes : List AppRoute) (proxyId : Text) :
    appNames rt backend { write with now := later } (routes.map (resolved rt write cfg)) proxyId =
      appNames rt backend write routes proxyId := by
  have hproxy : (fun r => r.proxyId == proxyId) ∘ resolved rt write cfg =
      fun r => r.proxyId == proxyId := by
    funext route
    obtain ⟨path, time, h⟩ := @resolved_eq rt write cfg route
    rw [Function.comp_apply, h]
  have hname : writtenName rt backend { write with now := later } ∘ resolved rt write cfg =
      writtenName rt backend write := by
    funext route
    exact writtenName_resolved backend
  unfold appNames
  rw [List.filter_map, hproxy, List.filterMap_map, hname]

theorem resolved_resolved : resolved rt { write with now := later } cfg (resolved rt write cfg route) =
    resolved rt { write with now := later } cfg route := by
  have hlater : cachedPath { write with now := later } cfg route = cachedPath write cfg route := rfl
  rw [resolved_elim, cachedPath_resolved, resolved_elim, resolved_elim, hlater]
  cases cachedPath write cfg route <;> rfl

theorem resolved_later_iff : resolved rt { write with now := later } cfg route =
    resolved rt write cfg route ↔ later = write.now ∨ cachedPath write cfg route = none := by
  have hlater : cachedPath { write with now := later } cfg route = cachedPath write cfg route := rfl
  rw [resolved_elim, resolved_elim, hlater]
  cases cachedPath write cfg route with
  | none => simp
  | some path => simp [cacheResolution]

theorem savedResolved_iff : SavedResolved write cfg route ↔
    (route.isPersistent && route.enabled) = true ∧ cachedPath write cfg route ≠ none := by
  unfold SavedResolved cachedPath foundPath
  cases hcontributes : contributes cfg route with
  | false => simp
  | true =>
    have henabled : route.enabled = true := by
      simp only [contributes, Bool.and_eq_true] at hcontributes
      exact hcontributes.1.1
    rw [henabled, Bool.and_true, if_pos rfl]
    cases isPackaged route <;> simp

/-- The routes in the file are the same ones again unless a path is found for one at another time. -/
theorem appRoutes_repeated_iff {next : Option ConfigText} :
    (rootOf rt { write with now := later }
        { cfg with routes := cfg.routes.map (resolved rt write cfg) } next).appRoutes =
      (rootOf rt write cfg file).appRoutes ↔
      later = write.now ∨ ∀ route ∈ cfg.routes, ¬ SavedResolved write cfg route := by
  have hkept : ∀ (write : ConfigWrite), (fun r => r.isPersistent && r.enabled) ∘ resolved rt write cfg =
      fun r => r.isPersistent && r.enabled := by
    intro write
    funext route
    obtain ⟨path, time, h⟩ := @resolved_eq rt write cfg route
    rw [Function.comp_apply, h]
  have hagain : (cfg.routes.map (resolved rt write cfg)).map
      (resolved rt { write with now := later }
        { cfg with routes := cfg.routes.map (resolved rt write cfg) }) =
      cfg.routes.map (resolved rt { write with now := later } cfg) := by
    rw [List.map_map]
    exact List.map_congr_left fun route _ => resolved_resolved
  unfold rootOf
  dsimp only
  rw [hagain, List.filter_map, List.filter_map, hkept, hkept, List.map_inj_left]
  simp only [List.mem_filter, resolved_later_iff, savedResolved_iff]
  constructor
  · intro h
    by_cases hnow : later = write.now
    · exact .inl hnow
    · refine .inr fun route hroute hsaved => ?_
      exact (h route ⟨hroute, hsaved.1⟩).elim hnow hsaved.2
  · rintro (hnow | hnone) route ⟨hroute, hpersistent⟩
    · exact .inl hnow
    · exact .inr (Classical.byContradiction fun hfound =>
        hnone route hroute ⟨hpersistent, hfound⟩)

theorem proxies_repeated {next : Option ConfigText} : (rootOf rt { write with now := later }
    { cfg with routes := cfg.routes.map (resolved rt write cfg) } next).proxies =
      (rootOf rt write cfg file).proxies := by
  refine List.map_congr_left fun proxy _ => ?_
  unfold ruleFor
  exact congrArg (ProxiFyreRule.mk · _ _) (appNames_resolved (backendOf cfg) cfg.routes proxy.id)

theorem loadDestinationRules_repeated_iff :
    loadDestinationRules (some (.written (rootOf rt write cfg file))) = loadDestinationRules file ↔
      ∀ rules, heldRules file = some rules → ∀ members ∈ rules, NoNull members := by
  rw [loadDestinationRules_written loadDestinationRules_ne_nil]
  change (loadDestinationRules file).map fill = loadDestinationRules file ↔ _
  by_cases hkept : ∃ rules, heldRules file = some rules ∧ rules ≠ []
  · obtain ⟨rules, hheld, hne⟩ := hkept
    rw [loadDestinationRules_held hheld hne, map_fill_deserializeRule_iff, hheld]
    simp only [Option.some.injEq, forall_eq']
  · have hempty : ∀ rules, heldRules file = some rules → rules = [] := fun rules hheld =>
      Classical.byContradiction fun hne => hkept ⟨rules, hheld, hne⟩
    rw [loadDestinationRules_default hempty]
    refine iff_of_true rfl fun rules hheld => ?_
    rw [hempty rules hheld]
    exact List.forall_mem_nil _

theorem rootOf_repeated_iff : rootOf rt { write with now := later }
    { cfg with routes := cfg.routes.map (resolved rt write cfg) }
      (some (.written (rootOf rt write cfg file))) = rootOf rt write cfg file ↔
      (later = write.now ∨ ∀ route ∈ cfg.routes, ¬ SavedResolved write cfg route) ∧
        ∀ rules, heldRules file = some rules → ∀ members ∈ rules, NoNull members := by
  rw [WrittenRoot.ext_iff, ← @loadDestinationRules_repeated_iff rt write cfg file,
    ← @appRoutes_repeated_iff rt write cfg file later (some (.written (rootOf rt write cfg file)))]
  constructor
  · rintro ⟨-, -, -, hroutes, hrules⟩
    exact ⟨hroutes, hrules⟩
  · rintro ⟨hroutes, hrules⟩
    exact ⟨rfl, rfl, proxies_repeated, hroutes, hrules⟩

/-- A call repeats the one before when no saved route has its package path looked up at another time
    and no rule that was read has a null. -/
theorem repeats_iff (rt : Runtime) (write : ConfigWrite) (cfg : Config) (file : Option ConfigText)
    (later : ℕ) : Repeats rt write cfg file later ↔ (GetsThrough write cfg →
      (later = write.now ∨ ∀ route ∈ cfg.routes, ¬ SavedResolved write cfg route) ∧
        ∀ rules, heldRules file = some rules → ∀ members ∈ rules, NoNull members) := by
  unfold Repeats
  by_cases hthrough : GetsThrough write cfg
  · rw [writeConfig_eq hthrough, forall_prop_of_true rfl, forall_prop_of_true hthrough,
      ← @rootOf_repeated_iff rt write cfg file]
    have hagain : GetsThrough { write with now := later }
        { cfg with routes := cfg.routes.map (resolved rt write cfg) } := hthrough
    dsimp only
    rw [writeConfig_eq hagain]
    constructor
    · rintro ⟨hfile, -⟩
      exact ConfigText.written.inj (Option.some.inj hfile)
    · intro hsame
      rw [hsame]
      dsimp only
      rw [Option.filter_some_neg (by simp)]
      exact ⟨rfl, rfl⟩
  · refine iff_of_true (fun hreturned => ?_) fun h => absurd h hthrough
    rw [(writeConfig_fails hthrough).1] at hreturned
    cases hreturned

def pinnedApp : Config where
  proxies := [{ id := "clash".toList, port := 7897 }]
  routes := [{
    processName := "Note.exe".toList
    proxyId := "clash".toList
    matchKind := .msixPackage
    packageFamilyName := "Note_8wekyb3d8bbwe".toList
    packageRelativeExePath := "Note.exe".toList }]

def packageFound : ConfigWrite := ⟨true, true, fun _ _ => some "C:\\apps\\Note.exe".toList, 0⟩

/-- The time of the resolution is written into the file. -/
theorem resolved_at_rewritten : ¬ ∀ (rt : Runtime) (write : ConfigWrite) (cfg : Config)
    (file : Option ConfigText) (later : ℕ), write.now < later → Repeats rt write cfg file later := by
  intro h
  have hrepeats := h plainRuntime packageFound pinnedApp none 1 (by decide)
  exact absurd (hrepeats (by decide)).1 (by decide)

end Repetition

end ProxySwitch.ConfigRewriting
