import ProxySwitch.BackendConfig
import ProxySwitch.TextSearch

set_option autoImplicit false

namespace ProxySwitch.BrowserCommands
open RuntimeStrings TextSearch BackendConfig
open AppRoutes (equalsIgnoreCase)

/-- The upper case of an ordinal comparison: the ASCII one on ASCII characters, and no other
    character becomes one of them. -/
structure OrdinalCasing where
  upper : Char → Char
  ascii : ∀ c, c.toNat < 128 → upper c = c.toUpper
  others : ∀ c, 128 ≤ c.toNat → 128 ≤ (upper c).toNat

theorem toUpper_of_not_ascii (c : Char) (h : 128 ≤ c.toNat) : c.toUpper = c := by
  refine dif_neg fun hlower => ?_
  have hle : c.toNat ≤ 122 := hlower.2
  omega

def asciiCasing : OrdinalCasing where
  upper := Char.toUpper
  ascii _ _ := rfl
  others c h := by rwa [toUpper_of_not_ascii c h]

/-- `Contains` with `OrdinalIgnoreCase`. -/
def Contains (casing : OrdinalCasing) (text pattern : Text) : Prop :=
  pattern.map casing.upper <:+: text.map casing.upper

instance (casing : OrdinalCasing) (text pattern : Text) : Decidable (Contains casing text pattern) :=
  inferInstanceAs (Decidable (_ <:+: _))

structure TypedProxy extends ProxyInfo where
  type : Text := "socks5".toList

inductive BrowserMode
  | direct
  | proxy
  | other (name : Text)
  deriving DecidableEq

structure AppConfig where
  mode : BrowserMode := .direct
  proxyId : Option Text := none
  userDataDir : Text

def scheme (proxy : TypedProxy) : Text :=
  if proxy.type.map Char.toLower = "http".toList then "http".toList else "socks5".toList

def address (proxy : TypedProxy) : Text := scheme proxy ++ "://".toList ++ endpoint proxy.toProxyInfo

section Commands
variable (casing : OrdinalCasing) (proxies : List TypedProxy)

def configuredProxy (app : AppConfig) : Option TypedProxy :=
  app.proxyId.bind fun proxyId =>
    if proxyId = [] then none else proxies.find? (·.id == proxyId)

def buildBrowserArgs (app : AppConfig) : Text :=
  "--user-data-dir=\"".toList ++ app.userDataDir ++ "\"".toList ++
    match app.mode with
    | .direct => " --no-proxy-server".toList
    | .proxy =>
      match configuredProxy proxies app with
      | some proxy => " --proxy-server=\"".toList ++ address proxy ++ "\"".toList
      | none => []
    | .other _ => []

def browserCommandMatchesMode (commandLine : Text) (app : AppConfig) : Bool :=
  if commandLine = [] then false
  else match app.mode with
    | .direct =>
      decide (Contains casing commandLine "--no-proxy-server".toList) &&
        !decide (Contains casing commandLine "--proxy-server".toList)
    | .proxy =>
      match configuredProxy proxies app with
      | some proxy =>
        decide (Contains casing commandLine "--proxy-server".toList) &&
          decide (Contains casing commandLine (address proxy))
      | none => false
    | .other _ => false

def requestedProxy (app : AppConfig) : Option TypedProxy :=
  if app.mode = .proxy then configuredProxy proxies app else none

def SameAddress (p q : TypedProxy) : Prop :=
  scheme p = scheme q ∧ equalsIgnoreCase casing.upper p.host q.host = true ∧ p.port = q.port

def SameMode (a b : AppConfig) : Prop :=
  a.mode = .direct ∧ b.mode = .direct ∨
    ∃ p q, requestedProxy proxies a = some p ∧ requestedProxy proxies b = some q ∧
      SameAddress casing p q

def proxyFlags : List Text := ["--no-proxy-server".toList, "--proxy-server".toList]

/-- Places of a command line with the proxy `p` where the address of `q` is read: it begins within
    the directory, its host and port are where those of `p` begin, or it lies within them. -/
inductive Misread (userDataDir : Text) (p q : TypedProxy) : Prop
  | inDirectory (back : Text) (hne : back ≠ []) (hback : back <:+ userDataDir)
      (hread : (address q).map casing.upper <+:
        (back ++ "\" --proxy-server=\"".toList ++ address p).map casing.upper)
  | beginning (hscheme : scheme p = scheme q)
      (hread : (endpoint q.toProxyInfo).map casing.upper <+:
        (endpoint p.toProxyInfo).map casing.upper)
  | inHost (hread : Contains casing (endpoint p.toProxyInfo) (address q))

end Commands

section Addresses
variable {casing : OrdinalCasing} {p q : TypedProxy}

theorem OrdinalCasing.map_ascii (casing : OrdinalCasing) {text : Text}
    (h : text.all (fun c => c.toNat < 128) = true) :
    text.map casing.upper = text.map Char.toUpper := by
  refine List.map_congr_left fun c hc => casing.ascii c ?_
  exact of_decide_eq_true (List.all_eq_true.mp h c hc)

theorem scheme_cases (proxy : TypedProxy) :
    scheme proxy = "http".toList ∨ scheme proxy = "socks5".toList := by
  unfold scheme
  split
  · exact .inl rfl
  · exact .inr rfl

theorem port_last (port : ℤ) :
    ∃ init z, (toString port).toList = init ++ [z] ∧ z.isDigit = true := by
  have hnat : ∀ n : ℕ, ∃ init z, n.repr.toList = init ++ [z] ∧ z.isDigit = true := by
    intro n
    rw [Nat.toList_repr]
    refine ⟨_, _, (List.dropLast_append_getLast Nat.toDigits_ne_nil).symm, ?_⟩
    exact Nat.isDigit_of_mem_toDigits (by decide) (by decide) (List.getLast_mem _)
  rw [Int.toString_eq_repr, Int.repr_eq_if]
  split
  · exact hnat port.toNat
  · obtain ⟨init, z, hn, hz⟩ := hnat (-port).toNat
    refine ⟨'-' :: init, z, ?_, hz⟩
    rw [String.toList_append, hn]
    rfl

/-- An address ends with a digit of its port, so not with a quotation mark. -/
theorem endpoint_last (casing : OrdinalCasing) (proxy : ProxyInfo) :
    ∃ init z, (endpoint proxy).map casing.upper = init ++ [z] ∧ z ≠ '"' := by
  obtain ⟨init, z, hport, hz⟩ := port_last proxy.port
  refine ⟨(proxy.host ++ ':' :: init).map casing.upper, casing.upper z, ?_, ?_⟩
  · unfold endpoint
    rw [hport]
    simp
  · have hrange : 48 ≤ z.toNat ∧ z.toNat ≤ 57 := Char.isDigit_iff_toNat.mp hz
    have hupper : z.toUpper = z := dif_neg fun hlower => by
      have hle : 97 ≤ z.toNat := hlower.1
      omega
    rw [casing.ascii z (by omega), hupper]
    rintro rfl
    exact absurd hrange.1 (by decide)

theorem map_address (casing : OrdinalCasing) (proxy : TypedProxy) :
    (address proxy).map casing.upper =
      (scheme proxy ++ "://".toList).map Char.toUpper ++
        (endpoint proxy.toProxyInfo).map casing.upper := by
  have hascii : (scheme proxy ++ "://".toList).all (fun c => c.toNat < 128) = true := by
    rcases scheme_cases proxy with h | h
    · rw [h]
      rfl
    · rw [h]
      rfl
  unfold address
  rw [List.map_append, casing.map_ascii hascii]

theorem address_last (casing : OrdinalCasing) (proxy : TypedProxy) :
    ∃ init z, (address proxy).map casing.upper = init ++ [z] ∧ z ≠ '"' := by
  obtain ⟨init, z, hendpoint, hz⟩ := endpoint_last casing proxy.toProxyInfo
  refine ⟨(scheme proxy ++ "://".toList).map Char.toUpper ++ init, z, ?_, hz⟩
  rw [map_address, hendpoint, List.append_assoc]

def fixedParts : List Text :=
  ["--USER-DATA-DIR=\"".toList, "\" --PROXY-SERVER=\"".toList, "TTP://".toList, "OCKS5://".toList]

theorem address_start (casing : OrdinalCasing) (proxy : TypedProxy) :
    ∃ x y rest, (address proxy).map casing.upper = x :: y :: rest ∧
      ∀ part ∈ fixedParts, ∀ d, ¬ [x, y] <:+: part ++ [d] := by
  rw [map_address]
  unfold fixedParts
  rcases scheme_cases proxy with h | h
  · rw [h]
    refine ⟨'H', 'T', _, rfl, ?_⟩
    simp [List.infix_cons_iff, List.cons_prefix_cons]
  · rw [h]
    refine ⟨'S', 'O', _, rfl, ?_⟩
    simp [List.infix_cons_iff, List.cons_prefix_cons]

theorem address_prefix_iff : (address q).map casing.upper <+: (address p).map casing.upper ↔
    scheme p = scheme q ∧
      (endpoint q.toProxyInfo).map casing.upper <+: (endpoint p.toProxyInfo).map casing.upper := by
  rw [map_address, map_address]
  rcases scheme_cases p with hp | hp <;> rcases scheme_cases q with hq | hq
  · rw [hp, hq, List.prefix_append_right_inj, and_iff_right rfl]
  · rw [hp, hq]
    simp [List.cons_prefix_cons]
  · rw [hp, hq]
    simp [List.cons_prefix_cons]
  · rw [hp, hq, List.prefix_append_right_inj, and_iff_right rfl]

theorem address_infix_iff : (address q).map casing.upper <:+: (address p).map casing.upper ↔
    (address q).map casing.upper <+: (address p).map casing.upper ∨
      Contains casing (endpoint p.toProxyInfo) (address q) := by
  obtain ⟨x, y, rest, hstart, hparts⟩ := address_start casing q
  have htail : ∃ c part, part ∈ fixedParts ∧
      (scheme p ++ "://".toList).map Char.toUpper = c :: part := by
    rcases scheme_cases p with hp | hp
    · rw [hp]
      exact ⟨'H', "TTP://".toList, by simp [fixedParts], rfl⟩
    · rw [hp]
      exact ⟨'S', "OCKS5://".toList, by simp [fixedParts], rfl⟩
  obtain ⟨c, part, hpart, hscheme⟩ := htail
  unfold Contains
  rw [@map_address casing p, hscheme, List.cons_append, List.infix_cons_iff, hstart,
    infix_append_of_no_start (hparts part hpart)]

theorem map_serverFlag (casing : OrdinalCasing) :
    ("\" --proxy-server=\"".toList).map casing.upper = "\" --PROXY-SERVER=\"".toList :=
  casing.map_ascii rfl

theorem read_behind_iff : (address q).map casing.upper <:+: "\" --PROXY-SERVER=\"".toList ++
    ((address p).map casing.upper ++ ['"']) ↔
      scheme p = scheme q ∧ (endpoint q.toProxyInfo).map casing.upper <+:
        (endpoint p.toProxyInfo).map casing.upper ∨
          Contains casing (endpoint p.toProxyInfo) (address q) := by
  obtain ⟨x, y, rest, hstart, hparts⟩ := address_start casing q
  obtain ⟨init, z, hlast, hz⟩ := address_last casing q
  rw [← address_prefix_iff, ← address_infix_iff, hstart,
    infix_append_of_no_start (hparts _ (by simp [fixedParts])), ← hstart, hlast,
    infix_concat_of_ne hz]

theorem read_from_iff (back : Text) : (address q).map casing.upper <+: back.map casing.upper ++
    ("\" --PROXY-SERVER=\"".toList ++ ((address p).map casing.upper ++ ['"'])) ↔
      (address q).map casing.upper <+:
        (back ++ "\" --proxy-server=\"".toList ++ address p).map casing.upper := by
  obtain ⟨init, z, hlast, hz⟩ := address_last casing q
  rw [List.map_append, List.map_append, map_serverFlag, ← List.append_assoc, ← List.append_assoc,
    hlast, prefix_concat_of_ne hz]

theorem contains_address_iff (userDataDir : Text) : Contains casing
    ("--user-data-dir=\"".toList ++ userDataDir ++ "\"".toList ++
      (" --proxy-server=\"".toList ++ address p ++ "\"".toList)) (address q) ↔
        Misread casing userDataDir p q := by
  obtain ⟨x, y, rest, hstart, hparts⟩ := address_start casing q
  have hprofile : ("--user-data-dir=\"".toList).map casing.upper = "--USER-DATA-DIR=\"".toList :=
    casing.map_ascii rfl
  have hquote : ("\"".toList).map casing.upper = ['"'] := casing.map_ascii rfl
  have hline : ("--user-data-dir=\"".toList ++ userDataDir ++ "\"".toList ++
      (" --proxy-server=\"".toList ++ address p ++ "\"".toList)).map casing.upper =
        "--USER-DATA-DIR=\"".toList ++ (userDataDir.map casing.upper ++
          ("\" --PROXY-SERVER=\"".toList ++ ((address p).map casing.upper ++ ['"']))) := by
    rw [← hprofile, ← map_serverFlag casing, ← hquote]
    simp only [List.map_append, List.append_assoc]
    rfl
  have hfirst := @infix_append_of_no_start Char rest "--USER-DATA-DIR=\"".toList
    (userDataDir.map casing.upper ++
      ("\" --PROXY-SERVER=\"".toList ++ ((address p).map casing.upper ++ ['"']))) x y
    (hparts _ (by simp [fixedParts]))
  rw [← hstart] at hfirst
  unfold Contains
  rw [hline, hfirst, infix_append_iff_start, read_behind_iff]
  constructor
  · rintro (⟨back, hne, hsuffix, hread⟩ | ⟨hscheme, hread⟩ | hread)
    · obtain ⟨b, hb, rfl⟩ := List.suffix_map_iff.mp hsuffix
      exact .inDirectory b (fun h => hne (congrArg _ h)) hb ((read_from_iff b).mp hread)
    · exact .beginning hscheme hread
    · exact .inHost hread
  · rintro (⟨b, hne, hb, hread⟩ | ⟨hscheme, hread⟩ | hread)
    · refine .inl ⟨b.map casing.upper, ?_, hb.map _, (read_from_iff b).mpr hread⟩
      exact fun h => hne (List.map_eq_nil_iff.mp h)
    · exact .inr (.inl ⟨hscheme, hread⟩)
    · exact .inr (.inr hread)

end Addresses

section Modes
variable {casing : OrdinalCasing} {proxies : List TypedProxy} {userDataDir tail flag : Text}
  {a b : AppConfig} {p q : TypedProxy}

theorem contains_flag_iff (hflag : flag ∈ proxyFlags) : Contains casing
    ("--user-data-dir=\"".toList ++ userDataDir ++ "\"".toList ++ tail) flag ↔
      Contains casing userDataDir flag ∨ Contains casing tail flag := by
  have hfixed : '"' ∉ flag.map casing.upper ∧
      ¬ flag.map casing.upper <:+: "--USER-DATA-DIR=".toList := by
    unfold proxyFlags at hflag
    obtain rfl | hflag := List.mem_cons.mp hflag
    · rw [casing.map_ascii rfl]
      decide
    · obtain rfl := List.mem_singleton.mp hflag
      rw [casing.map_ascii rfl]
      decide
  have hprofile : ("--user-data-dir=\"".toList).map casing.upper =
      "--USER-DATA-DIR=".toList ++ ['"'] := casing.map_ascii rfl
  have hquote : ("\"".toList).map casing.upper = ['"'] := casing.map_ascii rfl
  unfold Contains
  simp only [List.map_append, hprofile, hquote, List.append_assoc, List.singleton_append]
  rw [infix_append_cons_iff hfixed.1, infix_append_cons_iff hfixed.1, or_iff_right hfixed.2]

theorem contains_ascii {text pattern : Text} (htext : text.all (fun c => c.toNat < 128) = true)
    (hpattern : pattern.all (fun c => c.toNat < 128) = true) : Contains casing text pattern ↔
      pattern.map Char.toUpper <:+: text.map Char.toUpper := by
  unfold Contains
  rw [casing.map_ascii htext, casing.map_ascii hpattern]

theorem buildBrowserArgs_cases (proxies : List TypedProxy) (a : AppConfig) :
    ∃ tail, buildBrowserArgs proxies a =
      "--user-data-dir=\"".toList ++ a.userDataDir ++ "\"".toList ++ tail ∧
      ((a.mode = .direct ∧ requestedProxy proxies a = none ∧ tail = " --no-proxy-server".toList) ∨
        (∃ p, a.mode ≠ .direct ∧ requestedProxy proxies a = some p ∧
          tail = " --proxy-server=\"".toList ++ address p ++ "\"".toList) ∨
        (a.mode ≠ .direct ∧ requestedProxy proxies a = none ∧ tail = [])) := by
  unfold buildBrowserArgs requestedProxy
  refine ⟨_, rfl, ?_⟩
  cases hmode : a.mode with
  | direct => exact .inl ⟨rfl, rfl, rfl⟩
  | proxy =>
    cases hproxy : configuredProxy proxies a with
    | some p => exact .inr (.inl ⟨p, nofun, rfl, rfl⟩)
    | none => exact .inr (.inr ⟨nofun, rfl, rfl⟩)
  | other name => exact .inr (.inr ⟨nofun, rfl, rfl⟩)

theorem matches_iff {line : Text} (hne : line ≠ []) :
    browserCommandMatchesMode casing proxies line b = true ↔
      (b.mode = .direct ∧ Contains casing line "--no-proxy-server".toList ∧
        ¬ Contains casing line "--proxy-server".toList) ∨
      ∃ q, requestedProxy proxies b = some q ∧
        Contains casing line "--proxy-server".toList ∧ Contains casing line (address q) := by
  unfold browserCommandMatchesMode requestedProxy
  rw [if_neg hne]
  cases hmode : b.mode with
  | direct =>
    simp only [Bool.and_eq_true, Bool.not_eq_true', decide_eq_true_eq, decide_eq_false_iff_not,
      reduceCtorEq, if_false, false_and, exists_false, or_false, true_and]
  | proxy =>
    simp only [reduceCtorEq, false_and, false_or, if_true]
    cases hproxy : configuredProxy proxies b with
    | some q => simp only [Bool.and_eq_true, decide_eq_true_eq, Option.some.injEq, exists_eq_left']
    | none => simp only [Bool.false_eq_true, reduceCtorEq, false_and, exists_false]
  | other name =>
    simp only [Bool.false_eq_true, reduceCtorEq, if_false, false_and, exists_false, or_false]

theorem flags_of_direct (casing : OrdinalCasing) :
    Contains casing " --no-proxy-server".toList "--no-proxy-server".toList ∧
      ¬ Contains casing " --no-proxy-server".toList "--proxy-server".toList := by
  rw [contains_ascii rfl rfl, contains_ascii rfl rfl]
  decide

theorem flag_of_proxy (casing : OrdinalCasing) (text : Text) :
    Contains casing (" --proxy-server=\"".toList ++ text) "--proxy-server".toList := by
  have hflag : Contains casing " --proxy-server=\"".toList "--proxy-server".toList := by
    rw [contains_ascii rfl rfl]
    decide
  unfold Contains
  rw [List.map_append]
  exact List.infix_append_of_infix_left hflag

theorem no_flag_of_none (hflag : flag ∈ proxyFlags) : ¬ Contains casing [] flag := by
  unfold Contains
  rw [List.map_nil, List.infix_nil, List.map_eq_nil_iff]
  rintro rfl
  revert hflag
  decide

/-- What is recognised for a profile whose directory has no flag in it. -/
theorem matches_buildBrowserArgs_iff
    (hflags : ∀ flag ∈ proxyFlags, ¬ Contains casing a.userDataDir flag) :
    browserCommandMatchesMode casing proxies (buildBrowserArgs proxies a) b = true ↔
      (a.mode = .direct ∧ b.mode = .direct) ∨
        ∃ p q, requestedProxy proxies a = some p ∧ requestedProxy proxies b = some q ∧
          Misread casing a.userDataDir p q := by
  have hdirectFlag : "--no-proxy-server".toList ∈ proxyFlags := List.mem_cons_self
  have hproxyFlag : "--proxy-server".toList ∈ proxyFlags :=
    List.mem_cons_of_mem _ (List.mem_singleton_self _)
  obtain ⟨tail, hargs, hcases⟩ := buildBrowserArgs_cases proxies a
  have hne : buildBrowserArgs proxies a ≠ [] := by
    rw [hargs]
    exact List.cons_ne_nil _ _
  rw [matches_iff hne, hargs, contains_flag_iff hdirectFlag, contains_flag_iff hproxyFlag,
    or_iff_right (hflags _ hdirectFlag), or_iff_right (hflags _ hproxyFlag)]
  rcases hcases with ⟨hmode, hnone, rfl⟩ | ⟨p, hmode, hsome, rfl⟩ | ⟨hmode, hnone, rfl⟩
  · obtain ⟨hdirect, hproxy⟩ := flags_of_direct casing
    simp only [hmode, hnone, hdirect, hproxy, not_false_eq_true, true_and, and_true, false_and,
      and_false, exists_false, reduceCtorEq]
  · have hproxy := flag_of_proxy casing (address p ++ "\"".toList)
    rw [← List.append_assoc] at hproxy
    simp only [hmode, hsome, hproxy, contains_address_iff, not_true_eq_false, true_and, and_false,
      false_and, false_or, Option.some.injEq, exists_and_left, exists_eq_left']
  · have hproxy := @no_flag_of_none casing _ hproxyFlag
    have hdirect := @no_flag_of_none casing _ hdirectFlag
    simp only [hmode, hnone, hproxy, hdirect, false_and, and_false, exists_false, reduceCtorEq]

theorem misread_of_sameAddress (h : SameAddress casing p q) : Misread casing userDataDir p q := by
  refine .beginning h.1 ?_
  have hhost : p.host.map casing.upper = q.host.map casing.upper := beq_iff_eq.mp h.2.1
  unfold endpoint
  rw [List.map_append, List.map_append, hhost, h.2.2]

/-- The command line of one app is recognised for another one exactly when both have the same mode
    unless the address of the other one's proxy, a different one, is read in it all the same. -/
theorem recognised_iff (casing : OrdinalCasing) (proxies : List TypedProxy) (a b : AppConfig)
    (hflags : ∀ flag ∈ proxyFlags, ¬ Contains casing a.userDataDir flag) :
    (browserCommandMatchesMode casing proxies (buildBrowserArgs proxies a) b = true ↔
        SameMode casing proxies a b) ↔
      ∀ p q, requestedProxy proxies a = some p → requestedProxy proxies b = some q →
        ¬ SameAddress casing p q → ¬ Misread casing a.userDataDir p q := by
  have hdirect : ∀ p, requestedProxy proxies a = some p → a.mode ≠ .direct := by
    intro p hp hmode
    unfold requestedProxy at hp
    rw [hmode] at hp
    cases hp
  rw [matches_buildBrowserArgs_iff hflags]
  unfold SameMode
  constructor
  · intro h p q hp hq hdiffer hmisread
    rcases h.mp (.inr ⟨p, q, hp, hq, hmisread⟩) with hmodes | ⟨p', q', hp', hq', hsame⟩
    · exact hdirect p hp hmodes.1
    · obtain rfl := Option.some.inj (hp.symm.trans hp')
      obtain rfl := Option.some.inj (hq.symm.trans hq')
      exact hdiffer hsame
  · intro h
    refine or_congr_right ?_
    constructor
    · rintro ⟨p, q, hp, hq, hmisread⟩
      exact ⟨p, q, hp, hq, Classical.byContradiction fun hdiffer => h p q hp hq hdiffer hmisread⟩
    · rintro ⟨p, q, hp, hq, hsame⟩
      exact ⟨p, q, hp, hq, misread_of_sameAddress hsame⟩

def nestedPorts : List TypedProxy :=
  [{ id := "clash".toList, port := 1080 }, { id := "v2ray".toList, port := 108 }]

def workProfile (proxyId : Text) : AppConfig :=
  { mode := .proxy, proxyId := some proxyId, userDataDir := "C:\\work".toList }

theorem work_has_no_flag : ∀ flag ∈ proxyFlags,
    ¬ Contains asciiCasing (workProfile "clash".toList).userDataDir flag := by
  decide

theorem recognised_iff_work : (browserCommandMatchesMode asciiCasing nestedPorts
    (buildBrowserArgs nestedPorts (workProfile "clash".toList)) (workProfile "clash".toList) = true ↔
      SameMode asciiCasing nestedPorts (workProfile "clash".toList) (workProfile "clash".toList)) ↔
    ∀ p q, requestedProxy nestedPorts (workProfile "clash".toList) = some p →
      requestedProxy nestedPorts (workProfile "clash".toList) = some q →
        ¬ SameAddress asciiCasing p q → ¬ Misread asciiCasing "C:\\work".toList p q :=
  recognised_iff asciiCasing nestedPorts (workProfile "clash".toList) (workProfile "clash".toList)
    work_has_no_flag

theorem port_108_recognised : ¬ ∀ (casing : OrdinalCasing) (proxies : List TypedProxy)
    (a b : AppConfig), a.userDataDir = b.userDataDir →
      (∀ flag ∈ proxyFlags, ¬ Contains casing a.userDataDir flag) →
        (browserCommandMatchesMode casing proxies (buildBrowserArgs proxies a) b = true ↔
          SameMode casing proxies a b) := by
  intro h
  have hclash := h asciiCasing nestedPorts (workProfile "clash".toList) (workProfile "v2ray".toList)
    rfl work_has_no_flag
  have hmatches : browserCommandMatchesMode asciiCasing nestedPorts
      (buildBrowserArgs nestedPorts (workProfile "clash".toList)) (workProfile "v2ray".toList) =
        true := by
    decide
  rcases hclash.mp hmatches with ⟨hmode, -⟩ | ⟨p, q, hp, hq, -, -, hport⟩
  · cases hmode
  · have hclashPort : (requestedProxy nestedPorts (workProfile "clash".toList)).map (·.port) =
        some 1080 := by
      decide
    have hv2rayPort : (requestedProxy nestedPorts (workProfile "v2ray".toList)).map (·.port) =
        some 108 := by
      decide
    rw [hp] at hclashPort
    rw [hq] at hv2rayPort
    have hports := (Option.some.inj hclashPort).symm.trans
      (hport.trans (Option.some.inj hv2rayPort))
    cases hports

end Modes

end ProxySwitch.BrowserCommands
