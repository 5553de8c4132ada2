import ProxySwitch.BrowserCommands
import ProxySwitch.HandoffScorer
import ProxySwitch.PacketPath

set_option autoImplicit false

namespace ProxySwitch.ProcessNames
open AppRoutes BackendConfig IdentityMatching PacketPath ProcessTables RuntimeStrings
open BrowserCommands (OrdinalCasing asciiCasing)
open DestinationRules (DestinationRuleSettings)
open HandoffScorer (isPathRooted)
open RouterPidRoutes (DWORD)

section Names
variable (rt : Runtime)

def IsExtension (text : Text) : Prop := equalsIgnoreCase rt.upper text ".exe".toList = true

/-- Normalising again changes nothing, and a file name has something before its extension. -/
structure WellNormalized (name : Text) : Prop where
  idempotent : normalizeProcessName rt (normalizeProcessName rt name) = normalizeProcessName rt name
  stem : normalizeProcessName rt name = [] ∨ ∃ stem extension, stem ≠ [] ∧
    IsExtension rt extension ∧ normalizeProcessName rt name = stem ++ extension

def IsBare (name : Text) : Prop :=
  name ≠ [] ∧ (trimWhiteSpace name = [] ∨ IsExtension rt (trimWhiteSpace name))

end Names

section Rules
variable (toupper towupper : OrdinalCasing) (currentProcessId : DWORD) (rt : Runtime)
  (write : ConfigWrite) (cfg : BackendConfig.Config)

/-- A process of a file in some directory, with its names in upper case as the lookup leaves them. -/
def IsExecutable (process : Owner) : Prop :=
  ∃ directory stem, isPathRooted directory = true ∧ stem ≠ [] ∧
    process.name = (stem ++ ".exe".toList).map towupper.upper ∧
    process.pathName = (directory ++ '\\' :: (stem ++ ".exe".toList)).map towupper.upper

/-- The rule takes every executable but the router's own process; the generated file has no
    exclusions. -/
def MatchesEvery (appName : Text) : Prop :=
  ∀ process : NetworkProcess, IsExecutable towupper process.toOwner →
    process.id ≠ currentProcessId →
      (matchAppName ⟨currentProcessId, [], [], []⟩ (appName.map toupper.upper) process).1 = true

def NoneMatchesEvery (existing : Option (List DestinationRuleSettings)) : Prop :=
  ∀ root routes, buildConfigJson rt write cfg existing = some (root, routes) →
    ∀ rule ∈ root.proxies, ∀ appName ∈ rule.appNames,
      ¬MatchesEvery toupper towupper currentProcessId appName

def IsEverywhere (text : Text) : Prop :=
  text.map Char.toUpper <:+: ".EXE".toList ∨ text = ['\\']

def pathOf (route : AppRoute) : Option Text :=
  match route.matchKind with
  | .processName => none
  | .msixPackage | .appUserModelId => packagePath write route
  | _ => if route.exePath ≠ [] ∧ rt.fileExists route.exePath then some route.exePath else none

def IsSpecific (route : AppRoute) : Prop :=
  match pathOf rt write route with
  | some path => ¬IsEverywhere path
  | none => ¬IsBare rt route.processName

end Rules

section Normalization
variable {rt : Runtime} {name : Text}

theorem IsExtension.length {text : Text} (h : IsExtension rt text) : text.length = 4 := by
  have hlength := congrArg List.length (beq_iff_eq.mp h)
  simpa using hlength

theorem normalizeProcessName_cases (rt : Runtime) (hname : name ≠ []) :
    let trimmed := trimWhiteSpace name
    IsExtension rt (trimmed.drop (trimmed.length - 4)) ∧ normalizeProcessName rt name = trimmed ∨
      ¬IsExtension rt (trimmed.drop (trimmed.length - 4)) ∧
        normalizeProcessName rt name = trimmed ++ ".exe".toList := by
  dsimp only
  unfold normalizeProcessName
  rw [if_neg hname]
  dsimp only
  split
  · rename_i hexe
    exact .inl ⟨hexe, rfl⟩
  · rename_i hexe
    exact .inr ⟨hexe, rfl⟩

theorem normalizeProcessName_split (rt : Runtime) (hname : name ≠ []) : ∃ stem extension,
    normalizeProcessName rt name = stem ++ extension ∧ IsExtension rt extension ∧
      (stem = [] ↔ IsBare rt name) := by
  unfold IsBare
  rw [and_iff_right hname]
  obtain ⟨hexe, hnormalized⟩ | ⟨hexe, hnormalized⟩ := normalizeProcessName_cases rt hname
  all_goals
    rw [hnormalized]
    generalize trimWhiteSpace name = trimmed at hexe
  · refine ⟨trimmed.take (trimmed.length - 4), trimmed.drop (trimmed.length - 4),
      (List.take_append_drop _ _).symm, hexe, ?_⟩
    have hlength := hexe.length
    rw [List.length_drop] at hlength
    constructor
    · intro hstem
      have hwhole := List.take_append_drop (trimmed.length - 4) trimmed
      rw [hstem, List.nil_append] at hwhole
      rw [hwhole] at hexe
      exact .inr hexe
    · rintro (rfl | hbare)
      · cases hlength
      · rw [hbare.length]
        rfl
  · refine ⟨trimmed, ".exe".toList, rfl, beq_self_eq_true _, ?_⟩
    constructor
    · exact .inl
    · rintro (hnil | hbare)
      · exact hnil
      · refine absurd ?_ hexe
        rw [hbare.length]
        exact hbare

theorem normalizeProcessName_of_trimmed (hname : name ≠ []) (htrim : trimWhiteSpace name = name)
    (hexe : IsExtension rt (name.drop (name.length - 4))) : normalizeProcessName rt name = name := by
  unfold normalizeProcessName
  dsimp only
  rw [if_neg hname, htrim]
  exact if_pos hexe

theorem trimWhiteSpace_append_exe (name : Text) :
    trimWhiteSpace (trimWhiteSpace name ++ ".exe".toList) = trimWhiteSpace name ++ ".exe".toList := by
  refine trimBy_eq_self (fun c hc => ?_) fun c hc => ?_
  · rw [List.head?_append] at hc
    cases hhead : (trimWhiteSpace name).head? with
    | none =>
      rw [hhead] at hc
      obtain rfl : '.' = c := Option.some.inj hc
      decide
    | some first =>
      rw [hhead] at hc
      obtain rfl : first = c := Option.some.inj hc
      exact trimBy_head hhead
  · rw [List.getLast?_append] at hc
    obtain rfl : 'e' = c := Option.some.inj hc
    decide

theorem normalizeProcessName_idem (rt : Runtime) (name : Text) :
    normalizeProcessName rt (normalizeProcessName rt name) = normalizeProcessName rt name := by
  by_cases hname : name = []
  · subst hname
    rfl
  · have hne : normalizeProcessName rt name ≠ [] := mt normalizeProcessName_eq_nil.mp hname
    obtain ⟨hexe, hnormalized⟩ | ⟨-, hnormalized⟩ := normalizeProcessName_cases rt hname
    all_goals
      rw [hnormalized] at hne ⊢
    · exact normalizeProcessName_of_trimmed hne (trimBy_idem _ _) hexe
    · refine normalizeProcessName_of_trimmed hne (trimWhiteSpace_append_exe name) ?_
      rw [List.length_append, List.drop_left' (by rfl)]
      exact beq_self_eq_true _

theorem wellNormalized_iff (rt : Runtime) (name : Text) : WellNormalized rt name ↔ ¬IsBare rt name := by
  by_cases hname : name = []
  · subst hname
    exact iff_of_true ⟨normalizeProcessName_idem rt _, .inl rfl⟩ fun hbare => hbare.1 rfl
  · obtain ⟨stem, extension, hsplit, hexe, hbare⟩ := normalizeProcessName_split rt hname
    rw [← hbare]
    constructor
    · intro h hnil
      obtain hempty | ⟨stem', extension', hne, hexe', hsplit'⟩ := h.stem
      · rw [normalizeProcessName_eq_nil] at hempty
        exact hname hempty
      · rw [hsplit] at hsplit'
        have hlength : extension.length = extension'.length := hexe.length.trans hexe'.length.symm
        exact hne ((List.append_inj' hsplit' hlength).1 ▸ hnil)
    · intro hne
      exact ⟨normalizeProcessName_idem rt name, .inr ⟨stem, extension, hne, hexe, hsplit⟩⟩

end Normalization

section Matching
variable {toupper towupper : OrdinalCasing} {currentProcessId : DWORD} {text other : Text}

theorem map_upper_of_ascii (casing : OrdinalCasing)
    (h : ∀ c ∈ text.map Char.toUpper, c.toNat < 128) :
    text.map casing.upper = text.map Char.toUpper := by
  refine List.map_congr_left fun c hc => casing.ascii c ?_
  by_contra hother
  have hupper := h _ (List.mem_map_of_mem hc)
  rw [BrowserCommands.toUpper_of_not_ascii c (by omega)] at hupper
  exact hother hupper

theorem map_upper_eq_iff (casing : OrdinalCasing) {folded : Text} (h : ∀ c ∈ folded, c.toNat < 128) :
    text.map casing.upper = folded ↔ text.map Char.toUpper = folded := by
  constructor
  · rintro rfl
    refine (List.map_congr_left fun c hc => casing.ascii c ?_).symm
    by_contra hother
    have hfolded := h _ (List.mem_map_of_mem hc)
    have := casing.others c (by omega)
    omega
  · rintro rfl
    exact map_upper_of_ascii casing h

theorem eq_of_toUpper_backslash {c : Char} (h : c.toUpper = '\\') : c = '\\' := by
  by_cases hascii : c.toNat < 128
  · have hall : ∀ n < 128, (Char.ofNat n).toUpper = '\\' → Char.ofNat n = '\\' := by decide
    have hchar := hall c.toNat hascii
    rw [Char.ofNat_toNat] at hchar
    exact hchar h
  · rwa [BrowserCommands.toUpper_of_not_ascii c (by omega)] at h

/-- Any of the upper cases will do. -/
theorem isEverywhere_iff (casing : OrdinalCasing) : IsEverywhere text ↔
    text.map casing.upper <:+: ".EXE".toList ∨ text.map casing.upper = ['\\'] := by
  have hletters : ∀ {folded : Text}, folded <:+: ".EXE".toList → ∀ c ∈ folded, c.toNat < 128 := by
    intro folded h c hc
    have hall : ".EXE".toList.all (fun c => c.toNat < 128) = true := by decide
    exact of_decide_eq_true (List.all_eq_true.mp hall c (h.subset hc))
  refine or_congr ⟨fun h => ?_, fun h => ?_⟩ ?_
  · rwa [map_upper_of_ascii casing (hletters h)]
  · rwa [(map_upper_eq_iff casing (hletters h)).mp rfl]
  · rw [map_upper_eq_iff casing (List.forall_mem_singleton.mpr (by decide))]
    constructor
    · rintro rfl
      decide
    · intro h
      obtain ⟨c, rfl, hc⟩ := List.map_eq_singleton_iff.mp h
      rw [eq_of_toUpper_backslash hc]

theorem isEverywhere_congr (casing : OrdinalCasing)
    (h : other.map casing.upper = text.map casing.upper) : IsEverywhere other ↔ IsEverywhere text := by
  rw [isEverywhere_iff casing, isEverywhere_iff casing, h]

theorem isEverywhere_append_exe {rt : Runtime} {casing : OrdinalCasing}
    (hcasing : rt.upper = casing.upper) {stem extension : Text} (hexe : IsExtension rt extension) :
    IsEverywhere (stem ++ extension) ↔ stem = [] := by
  have hupper : extension.map casing.upper = ".EXE".toList := by
    rw [← hcasing, beq_iff_eq.mp hexe, hcasing, casing.map_ascii (by decide)]
    decide
  rw [isEverywhere_iff casing, List.map_append, hupper]
  constructor
  · rintro (hwithin | hseparator)
    · have hlength := hwithin.length_le
      rw [List.length_append, List.length_map] at hlength
      exact List.length_eq_zero_iff.mp (by omega)
    · have hlength := congrArg List.length hseparator
      rw [List.length_append] at hlength
      exact absurd hlength (by simp)
  · rintro rfl
    exact .inl List.infix_rfl

theorem MatchesEvery.entry {appName : Text}
    (h : MatchesEvery toupper towupper currentProcessId appName) (directory stem : Text)
    (hrooted : isPathRooted directory = true) (hstem : stem ≠ []) :
    matchesEntry ⟨⟨(stem ++ ".exe".toList).map towupper.upper,
      (directory ++ '\\' :: (stem ++ ".exe".toList)).map towupper.upper⟩, currentProcessId + 1⟩
        (appName.map toupper.upper) = true := by
  have hother : currentProcessId + 1 ≠ currentProcessId := by
    intro hsame
    exact absurd (BitVec.add_right_eq_self.mp hsame) (by decide)
  have hmatch := h ⟨⟨⟨(stem ++ ".exe".toList).map towupper.upper,
    (directory ++ '\\' :: (stem ++ ".exe".toList)).map towupper.upper⟩, currentProcessId + 1⟩,
      none, none, false, false, false⟩ ⟨directory, stem, hrooted, hstem, rfl, rfl⟩ hother
  unfold matchAppName at hmatch
  rwa [if_neg hother] at hmatch

theorem matchesEntry_path {process : Owner} (h : '\\' ∈ text ∨ '/' ∈ text) :
    matchesEntry process text = true ↔ text <:+: process.pathName := by
  unfold matchesEntry
  rw [if_pos h, decide_eq_true_eq]

theorem matchesEntry_name {process : Owner} (h : ¬('\\' ∈ text ∨ '/' ∈ text)) :
    matchesEntry process text = true ↔ text <:+: process.name := by
  unfold matchesEntry
  rw [if_neg h, decide_eq_true_eq]

/-- Two files that have nothing in common but the extension and a separator. -/
theorem infix_of_two_files {pid : DWORD}
    (hfirst : matchesEntry ⟨⟨"1.EXE".toList, "C:\\1.EXE".toList⟩, pid⟩ text = true)
    (hsecond : matchesEntry ⟨⟨"2.EXE".toList, "\\\\S\\D\\2.EXE".toList⟩, pid⟩ text = true) :
    text <:+: ".EXE".toList ∨ text = ['\\'] := by
  by_cases hseparator : '\\' ∈ text ∨ '/' ∈ text
  · have hdrive : text <:+: "C:\\1.EXE".toList := (matchesEntry_path hseparator).mp hfirst
    have hshare : text <:+: "\\\\S\\D\\2.EXE".toList := (matchesEntry_path hseparator).mp hsecond
    have hcolon : ':' ∉ text := fun h => absurd (hshare.subset h) (by decide)
    have hone : '1' ∉ text := fun h => absurd (hshare.subset h) (by decide)
    have hpart : ∀ {part : Text}, text <:+: part → '\\' ∈ part ∨ '/' ∈ part := fun hwithin =>
      hseparator.imp (hwithin.subset ·) (hwithin.subset ·)
    obtain hletter | hfile := (TextSearch.infix_append_cons_iff (u := ['C']) hcolon).mp hdrive
    · exact absurd (hpart hletter) (by decide)
    obtain hsingle | hname := (TextSearch.infix_append_cons_iff (u := ['\\']) hone).mp hfile
    · obtain rfl | hsame := List.sublist_singleton.mp hsingle.sublist
      · exact .inl List.nil_infix
      · exact .inr hsame
    · exact absurd (hpart hname) (by decide)
  · have hname : text <:+: "1.EXE".toList := (matchesEntry_name hseparator).mp hfirst
    have hother : text <:+: "2.EXE".toList := (matchesEntry_name hseparator).mp hsecond
    have hone : '1' ∉ text := fun h => absurd (hother.subset h) (by decide)
    obtain hnil | hextension := (TextSearch.infix_append_cons_iff (u := []) hone).mp hname
    · rw [List.infix_nil.mp hnil]
      exact .inl List.nil_infix
    · exact .inl hextension

theorem matchesEvery_iff {appName : Text} :
    MatchesEvery toupper towupper currentProcessId appName ↔ IsEverywhere appName := by
  rw [isEverywhere_iff toupper]
  constructor
  · intro h
    have hfirst := h.entry "C:".toList ['1'] (by decide) (by decide)
    have hsecond := h.entry "\\\\S\\D".toList ['2'] (by decide) (by decide)
    rw [towupper.map_ascii (by decide), towupper.map_ascii (by decide)] at hfirst hsecond
    exact infix_of_two_files hfirst hsecond
  · rintro hwithin process ⟨directory, stem, -, -, hname, hpath⟩ hother
    unfold matchAppName
    rw [if_neg hother]
    change matchesEntry process.toOwner (appName.map toupper.upper) = true
    obtain hwithin | hseparator := hwithin
    · have hseparators : ¬('\\' ∈ appName.map toupper.upper ∨ '/' ∈ appName.map toupper.upper) :=
        fun h => absurd (h.imp (hwithin.subset ·) (hwithin.subset ·)) (by decide)
      have hexe : ".exe".toList.map towupper.upper = ".EXE".toList := by
        rw [towupper.map_ascii (by decide)]
        decide
      rw [matchesEntry_name hseparators, hname, List.map_append, hexe]
      exact hwithin.trans (List.suffix_append _ _).isInfix
    · have hbackslash : towupper.upper '\\' = '\\' := towupper.ascii _ (by decide)
      rw [hseparator, matchesEntry_path (.inl List.mem_cons_self), hpath, List.map_append,
        List.map_cons, hbackslash]
      exact ⟨_, _, List.append_assoc _ _ _⟩

end Matching

section Emission
variable {toupper towupper casing : OrdinalCasing} {currentProcessId : DWORD} {rt : Runtime}
  {write : ConfigWrite} {cfg : BackendConfig.Config} {existing : Option (List DestinationRuleSettings)}

theorem pathOf_ne_nil {route : AppRoute} {path : Text} (h : pathOf rt write route = some path) :
    path ≠ [] := by
  unfold pathOf at h
  split at h
  · cases h
  · exact packagePath_ne_nil h
  · exact packagePath_ne_nil h
  · obtain ⟨hexe, hsome⟩ := Option.ite_none_right_eq_some.mp h
    rw [← Option.some.inj hsome]
    exact hexe.1

theorem resolvedName_eq (rt : Runtime) (write : ConfigWrite) (route : AppRoute) :
    resolvedName rt write route =
      (pathOf rt write route).getD (normalizeProcessName rt route.processName) := by
  unfold resolvedName
  by_cases hpackaged : isPackaged route = true
  · rw [resolveBackendAppName_packaged rt hpackaged]
    simp only [isPackaged, Bool.or_eq_true, beq_iff_eq] at hpackaged
    unfold pathOf
    obtain hkind | hkind := hpackaged
    · rw [hkind]
    · rw [hkind]
  · unfold resolveBackendAppName pathOf isPackaged at *
    cases hkind : route.matchKind with
    | msixPackage => simp [hkind] at hpackaged
    | appUserModelId => simp [hkind] at hpackaged
    | processName => rfl
    | path | other name =>
      dsimp only
      split_ifs <;> rfl

/-- A route is written as nothing, or as something that stands in other names as well. -/
theorem isSpecific_iff (hcasing : rt.upper = casing.upper) (route : AppRoute) :
    IsSpecific rt write route ↔
      resolvedName rt write route = [] ∨ ¬IsEverywhere (resolvedName rt write route) := by
  rw [resolvedName_eq]
  unfold IsSpecific
  cases hpath : pathOf rt write route with
  | some path => exact (or_iff_right (pathOf_ne_nil hpath)).symm
  | none =>
    rw [Option.getD_none, normalizeProcessName_eq_nil]
    by_cases hname : route.processName = []
    · exact iff_of_true (fun hbare => hbare.1 hname) (.inl hname)
    · obtain ⟨stem, extension, hsplit, hexe, hbare⟩ := normalizeProcessName_split rt hname
      rw [or_iff_right hname, hsplit, isEverywhere_append_exe hcasing hexe, hbare]

theorem exists_mem_distinct {upper : Char → Char} {name : Text} {names seen : List Text}
    (h : name ∈ names) : (∃ s ∈ seen, name.map upper = s.map upper) ∨
      ∃ kept ∈ distinct upper seen names, name.map upper = kept.map upper := by
  induction names generalizing seen with
  | nil => cases h
  | cons head rest ih =>
    unfold distinct
    split
    · rename_i hseen
      obtain rfl | hrest := List.mem_cons.mp h
      · obtain ⟨s, hs, hsame⟩ := List.any_eq_true.mp hseen
        exact .inl ⟨s, hs, beq_iff_eq.mp hsame⟩
      · exact ih hrest
    · obtain rfl | hrest := List.mem_cons.mp h
      · exact .inr ⟨name, List.mem_cons_self, rfl⟩
      · obtain ⟨s, hs, hsame⟩ | ⟨kept, hkept, hsame⟩ := @ih (head :: seen) hrest
        · obtain rfl | hs := List.mem_cons.mp hs
          · exact .inr ⟨s, List.mem_cons_self, hsame⟩
          · exact .inl ⟨s, hs, hsame⟩
        · exact .inr ⟨kept, List.mem_cons_of_mem _ hkept, hsame⟩

theorem buildConfigJson_none (h : ¬(cfg.proxies.map ProxyInfo.id).Nodup) :
    buildConfigJson rt write cfg existing = none := by
  have hendpoints : endpointByProxyId cfg = none := by
    refine if_neg ?_
    rw [List.map_map]
    exact h
  unfold buildConfigJson
  rw [hendpoints, Option.bind_none]

theorem contributes_iff {route : AppRoute} :
    contributes cfg route = true ↔ ∃ proxy ∈ cfg.proxies, IsRouteOf proxy route := by
  simp only [contributes, IsRouteOf, Bool.and_eq_true, Bool.not_eq_true', List.any_eq_true, beq_iff_eq]
  constructor
  · rintro ⟨⟨henabled, hipc⟩, proxy, hproxy, hid⟩
    exact ⟨proxy, hproxy, henabled, hipc, hid.symm⟩
  · rintro ⟨proxy, hproxy, henabled, hipc, hid⟩
    exact ⟨⟨henabled, hipc⟩, proxy, hproxy, hid.symm⟩

/-- Of the names that are equal up to case one is written, and all are matched alike. -/
theorem appNames_everywhere_iff (hcasing : rt.upper = casing.upper) {proxy : ProxyInfo}
    (hproxy : proxy ∈ cfg.proxies) :
    (∀ appName ∈ appNames rt (backendOf cfg) write cfg.routes proxy.id, ¬IsEverywhere appName) ↔
      ∀ route ∈ cfg.routes, IsRouteOf proxy route → IsSpecific rt write route := by
  simp only [isSpecific_iff hcasing]
  constructor
  · intro h route hroute hof
    by_cases hempty : resolvedName rt write route = []
    · exact .inl hempty
    · obtain ⟨hid, hwritten⟩ := (writtenName_eq_some hproxy).mpr ⟨hof, rfl, hempty⟩
      have hname : resolvedName rt write route ∈ (cfg.routes.filter (·.proxyId == proxy.id)).filterMap
          (writtenName rt (backendOf cfg) write) :=
        List.mem_filterMap.mpr ⟨route, List.mem_filter.mpr ⟨hroute, beq_iff_eq.mpr hid⟩, hwritten⟩
      obtain ⟨s, hs, -⟩ | ⟨kept, hkept, hsame⟩ := @exists_mem_distinct rt.upper _ _ [] hname
      · cases hs
      · rw [hcasing] at hsame
        rw [isEverywhere_congr casing hsame]
        exact .inr (h kept hkept)
  · intro h appName hname
    obtain ⟨route, hroute, hwritten⟩ := mem_appNames hname
    obtain ⟨hof, rfl, hne⟩ := (writtenName_eq_some hproxy).mp hwritten
    exact (h route hroute hof).resolve_left hne

theorem noneMatchesEvery_iff (hcasing : rt.upper = casing.upper) :
    NoneMatchesEvery toupper towupper currentProcessId rt write cfg existing ↔
      ((cfg.proxies.map ProxyInfo.id).Nodup → ∀ route ∈ cfg.routes, contributes cfg route = true →
        IsSpecific rt write route) := by
  unfold NoneMatchesEvery
  by_cases hnodup : (cfg.proxies.map ProxyInfo.id).Nodup
  · obtain ⟨root, routes, hbuild, hrules⟩ := @buildConfigJson_eq rt write cfg hnodup existing
    simp only [hbuild, matchesEvery_iff, contributes_iff, forall_const, hnodup]
    constructor
    · rintro h route hroute ⟨proxy, hproxy, hof⟩
      have hrule : ruleFor rt write cfg proxy ∈ root.proxies := by
        rw [hrules]
        exact List.mem_map_of_mem hproxy
      exact (appNames_everywhere_iff hcasing hproxy).mp (h root routes rfl _ hrule) route hroute hof
    · rintro h _ _ hroot rule hrule
      obtain ⟨rfl, -⟩ := Prod.mk.inj (Option.some.inj hroot)
      rw [hrules] at hrule
      obtain ⟨proxy, hproxy, rfl⟩ := List.mem_map.mp hrule
      exact (appNames_everywhere_iff hcasing hproxy).mpr fun route hroute hof =>
        h route hroute ⟨proxy, hproxy, hof⟩
  · rw [buildConfigJson_none hnodup]
    exact iff_of_true (fun _ _ h => nomatch h) fun h => absurd h hnodup

/-- Exactly the bare names are normalised to an extension without a stem, and exactly where a route
    without a path has one of them, or a path is in all others, a rule takes every executable. -/
theorem normalizedNames_iff (hcasing : rt.upper = casing.upper) :
    (∀ name, WellNormalized rt name ↔ ¬IsBare rt name) ∧
      ∀ write cfg existing,
        NoneMatchesEvery toupper towupper currentProcessId rt write cfg existing ↔
          ((cfg.proxies.map ProxyInfo.id).Nodup → ∀ route ∈ cfg.routes,
            contributes cfg route = true → IsSpecific rt write route) :=
  ⟨wellNormalized_iff rt, fun _ _ _ => noneMatchesEvery_iff hcasing⟩

theorem normalizedNames_iff_two_spellings : WellNormalized plainRuntime "Claude".toList ∧
    NoneMatchesEvery asciiCasing asciiCasing 4 plainRuntime plainWrite twoSpellings none := by
  have hiff := @normalizedNames_iff asciiCasing asciiCasing asciiCasing 4 plainRuntime rfl
  refine ⟨(hiff.1 _).mpr ?_, (hiff.2 _ _ _).mpr fun _ route hroute _ => ?_⟩
  · unfold IsBare IsExtension
    decide
  · have hnames : ∀ route ∈ twoSpellings.routes, pathOf plainRuntime plainWrite route = none ∧
        trimWhiteSpace route.processName ≠ [] ∧
          equalsIgnoreCase Char.toUpper (trimWhiteSpace route.processName) ".exe".toList = false := by
      decide
    obtain ⟨hpath, hblank, hexe⟩ := hnames route hroute
    unfold IsSpecific
    rw [hpath]
    rintro ⟨-, hnil | hbare⟩
    · exact hblank hnil
    · exact Bool.false_ne_true (hexe.symm.trans hbare)

def blankName : BackendConfig.Config where
  proxies := [{ id := "clash".toList, port := 7897 }]
  routes := [{ processName := "   ".toList, proxyId := "clash".toList, matchKind := .processName }]

theorem blank_name_matches_every : ¬WellNormalized plainRuntime "   ".toList ∧
    ¬NoneMatchesEvery asciiCasing asciiCasing 4 plainRuntime plainWrite blankName none := by
  have hbare : IsBare plainRuntime "   ".toList := by
    unfold IsBare IsExtension
    decide
  rw [wellNormalized_iff, @noneMatchesEvery_iff asciiCasing asciiCasing asciiCasing 4 _ _ _ _ rfl]
  refine ⟨not_not_intro hbare, fun h => ?_⟩
  exact h (by decide) _ List.mem_cons_self (by decide) hbare

end Emission

end ProxySwitch.ProcessNames
