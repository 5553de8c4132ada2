import ProxySwitch.IdentityMatching
import ProxySwitch.JsonText

set_option autoImplicit false

namespace ProxySwitch.RoutingHints
open AppRoutes IdentityMatching JsonText RuntimeStrings
open SessionLifecycle (Role)

structure TrackedProcess where
  role : Role
  name : Text

structure LaunchSession where
  exePath : Text
  proxyId : Text
  processes : List TrackedProcess

structure RuleHintPreset where
  applications : List Text := []
  domains : List Text := []
  domainSuffixes : List Text := []

structure HintConfig where
  v2rayOutboundTag : Text := "proxy".toList
  ruleHintPresets : List RuleHintPreset := []

inductive RuleKind
  | process
  | domain
  deriving DecidableEq

def RuleKind.key : RuleKind → Text
  | .process => "process".toList
  | .domain => "domain".toList

structure V2rayRule where
  kind : RuleKind
  entries : List Text
  nonempty : entries ≠ []

section Collection
variable (rt : Runtime) (cfg : HintConfig) (session : LaunchSession)

def findPresetForApp (launcherName : Text) : Option RuleHintPreset :=
  cfg.ruleHintPresets.find? fun p =>
    p.applications.any fun a => equalsIgnoreCase rt.upper a launcherName

/-- The loop over the names, which adds what the list does not contain. -/
def addMissing (upper : Char → Char) (list : List Text) : List Text → List Text
  | [] => list
  | p :: rest =>
    if list.any (equalsIgnoreCase upper p) then addMissing upper list rest
    else addMissing upper (list ++ [p]) rest

theorem addMissing_ne_nil (upper : Char → Char) {list : List Text} (names : List Text)
    (h : list ≠ []) : addMissing upper list names ≠ [] := by
  induction names generalizing list with
  | nil => exact h
  | cons p rest ih =>
    unfold addMissing
    split_ifs
    · exact ih h
    · exact ih (List.append_ne_nil_of_left_ne_nil h [p])

def processList : List Text :=
  addMissing rt.upper [rt.getFileName session.exePath]
    (distinct rt.upper []
      ((session.processes.filter fun p => p.role ≠ .root && p.name ≠ []).map TrackedProcess.name))

def RuleHintPreset.allDomains (preset : RuleHintPreset) : List Text :=
  preset.domains ++ preset.domainSuffixes.map fun s => "domain:".toList ++ s

theorem allDomains_ne_nil {preset : RuleHintPreset}
    (h : 0 < preset.domains.length ∨ 0 < preset.domainSuffixes.length) :
    preset.allDomains ≠ [] := by
  intro hnil
  have hlength := congrArg List.length hnil
  simp only [RuleHintPreset.allDomains, List.length_append, List.length_map,
    List.length_nil] at hlength
  omega

def domainRules : Option RuleHintPreset → List V2rayRule
  | none => []
  | some preset =>
    if h : 0 < preset.domains.length ∨ 0 < preset.domainSuffixes.length then
      [⟨.domain, preset.allDomains, allDomains_ne_nil h⟩]
    else []

def v2rayRules : List V2rayRule :=
  ⟨.process, processList rt session, addMissing_ne_nil _ _ (List.cons_ne_nil _ _)⟩ ::
    domainRules (findPresetForApp rt cfg (rt.getFileName session.exePath))

end Collection

section Texts

/-- `StringBuilder.AppendLine`. -/
def appendLine (line : Text) : Text := line ++ "\r\n".toList

def ruleObject (outboundTag : Text) (rule : V2rayRule) : Text :=
  appendLine "\x7b".toList ++
    appendLine "  \"type\": \"field\",".toList ++
    appendLine ("  \"".toList ++ rule.kind.key ++ "\": [".toList ++
      List.intercalate ", ".toList (rule.entries.map fun e => "\"".toList ++ e ++ "\"".toList) ++
      "],".toList) ++
    appendLine ("  \"outboundTag\": \"".toList ++ outboundTag ++ "\"".toList) ++
    appendLine "\x7d".toList

def buildV2rayHint (rt : Runtime) (cfg : HintConfig) (session : LaunchSession) : Text :=
  appendLine ("// Routing hint for ".toList ++ rt.getFileName session.exePath ++ " via ".toList ++
      session.proxyId ++ " (outboundTag: ".toList ++ cfg.v2rayOutboundTag ++ ")".toList) ++
    appendLine
      "// ProxySwitch does NOT apply this — copy into your v2ray routing.rules array.".toList ++
    appendLine [] ++
    List.intercalate (appendLine ",".toList)
      ((v2rayRules rt cfg session).map (ruleObject cfg.v2rayOutboundTag))

def DecodesTo (outboundTag : Text) (rule : V2rayRule) : Prop :=
  parse (ruleObject outboundTag rule) = some (.object
    [("type".toList, .string "field".toList),
      (rule.kind.key, .array (rule.entries.map Json.string)),
      ("outboundTag".toList, .string outboundTag)])

variable {outboundTag : Text} {rule : V2rayRule} {n : ℕ}

theorem length_le_intercalate (xs : List Text) (sep : Text) :
    xs.length ≤ (List.intercalate sep (xs.map quoted)).length := by
  induction xs with
  | nil => exact Nat.zero_le _
  | cons x xs ih =>
    cases xs with
    | nil => simp [quoted]
    | cons y xs =>
      rw [List.map_cons, List.map_cons, List.intercalate_cons_cons, ← List.map_cons]
      simp only [List.length_append, List.length_cons, quoted] at ih ⊢
      omega

/-- The object without the texts that make it readable for people. -/
theorem ruleObject_eq (outboundTag : Text) (rule : V2rayRule) : ruleObject outboundTag rule =
    '{' :: '\r' :: '\n' :: ' ' :: ' ' :: '"' :: ("type".toList ++ '"' :: ':' :: ' ' :: '"' ::
      ("field".toList ++ '"' :: ',' :: '\r' :: '\n' :: ' ' :: ' ' :: '"' ::
        (rule.kind.key ++ '"' :: ':' :: ' ' :: '[' ::
          (List.intercalate [',', ' '] (rule.entries.map quoted) ++ ']' :: ',' :: '\r' :: '\n' ::
            ' ' :: ' ' :: '"' :: ("outboundTag".toList ++ '"' :: ':' :: ' ' :: '"' ::
              (outboundTag ++ '"' :: '\r' :: '\n' :: '}' :: '\r' :: ['\n'])))))) := by
  have hquoted : (fun e : Text => "\"".toList ++ e ++ "\"".toList) = quoted := by
    funext e
    rfl
  unfold ruleObject appendLine
  rw [hquoted]
  simp

theorem key_plain (kind : RuleKind) : kind.key.all isPlain = true := by
  cases kind <;> decide

theorem readValue_ruleObject (hfuel : rule.entries.length < n + 1) (r : Text) :
    readValue (n + 1 + 1 + 1 + 1 + 1) (ruleObject outboundTag rule) = some (.object
        [("type".toList, .string "field".toList),
          (rule.kind.key, .array (rule.entries.map Json.string)),
          ("outboundTag".toList, .string outboundTag)], r) ↔
      (∀ e ∈ rule.entries, e.all isPlain = true) ∧ outboundTag.all isPlain = true ∧
        r = ['\r', '\n'] := by
  have hitems : ∀ tail : Text, (skipSpace (List.intercalate [',', ' '] (rule.entries.map quoted) ++
      ']' :: tail)).head? ≠ some ']' := by
    intro tail
    obtain ⟨e, rest, hentries⟩ := List.exists_cons_of_ne_nil rule.nonempty
    have hquote : ∃ more, List.intercalate [',', ' '] (rule.entries.map quoted) ++ ']' :: tail =
        '"' :: more := by
      rw [hentries]
      cases rest with
      | nil => exact ⟨_, rfl⟩
      | cons e' rest => exact ⟨_, rfl⟩
    obtain ⟨more, hmore⟩ := hquote
    rw [hmore, skipSpace_of_not (by decide)]
    simp
  rw [ruleObject_eq, readValue_object_iff (by simp [skipSpace, isSpace]),
    readMembers_skip (by decide), readMembers_skip (by decide), readMembers_skip (by decide),
    readMembers_skip (by decide), readMembers_comma_iff (by decide)
      (fun r => by rw [readValue_skip (by decide), readValue_quoted_iff]),
    readMembers_skip (by decide), readMembers_skip (by decide), readMembers_skip (by decide),
    readMembers_skip (by decide), readMembers_comma_iff (key_plain _)
      (fun r => by
        rw [readValue_skip (by decide), readValue_array_iff (hitems _),
          readItems_quoted_iff rule.nonempty hfuel]),
    readMembers_skip (by decide), readMembers_skip (by decide), readMembers_skip (by decide),
    readMembers_skip (by decide), readMembers_close_iff (by decide)
      (fun r => by rw [readValue_skip (by decide), readValue_quoted_iff])
      (by rw [skipSpace_cons (by decide), skipSpace_cons (by decide), skipSpace_of_not (by decide)])]
  exact and_iff_right (by decide)

theorem decodesTo_iff : DecodesTo outboundTag rule ↔
    (∀ e ∈ rule.entries, e.all isPlain = true) ∧ outboundTag.all isPlain = true := by
  have hlength : rule.entries.length + 5 ≤ (ruleObject outboundTag rule).length := by
    have hentries := length_le_intercalate rule.entries [',', ' ']
    rw [ruleObject_eq]
    simp only [List.length_cons, List.length_append]
    omega
  obtain ⟨n, hn⟩ : ∃ n, (ruleObject outboundTag rule).length + 1 = n + 1 + 1 + 1 + 1 + 1 :=
    ⟨(ruleObject outboundTag rule).length - 4, by omega⟩
  unfold DecodesTo
  rw [parse_eq_some_iff, hn]
  simp only [readValue_ruleObject (show rule.entries.length < n + 1 by omega)]
  constructor
  · rintro ⟨r, ⟨hentries, htag, -⟩, -⟩
    exact ⟨hentries, htag⟩
  · rintro ⟨hentries, htag⟩
    exact ⟨_, ⟨hentries, htag, rfl⟩, by decide⟩

/-- Every rule object of a hint has what was collected for it precisely when no collected text has
    a quote, a backslash or a control character. -/
theorem v2rayHint_decodes_iff (rt : Runtime) (cfg : HintConfig) (session : LaunchSession) :
    (∀ rule ∈ v2rayRules rt cfg session, DecodesTo cfg.v2rayOutboundTag rule) ↔
      cfg.v2rayOutboundTag.all isPlain = true ∧
        ∀ rule ∈ v2rayRules rt cfg session, ∀ e ∈ rule.entries, e.all isPlain = true := by
  simp only [decodesTo_iff]
  constructor
  · intro h
    exact ⟨(h _ List.mem_cons_self).2, fun rule hrule => (h rule hrule).1⟩
  · rintro ⟨htag, hentries⟩ rule hrule
    exact ⟨hentries rule hrule, htag⟩

theorem regexp_domain_not_decoded : ¬∀ (rt : Runtime) (cfg : HintConfig) (session : LaunchSession),
    ∀ rule ∈ v2rayRules rt cfg session, DecodesTo cfg.v2rayOutboundTag rule := by
  intro h
  have hdecodes := h plainRuntime
    { ruleHintPresets :=
        [{ applications := ["note.exe".toList], domains := ["regexp:\\.example\\.org$".toList] }] }
    ⟨"C:\\apps\\note.exe".toList, "clash".toList, []⟩
    ⟨.domain, ["regexp:\\.example\\.org$".toList], List.cons_ne_nil _ _⟩
    (List.mem_cons_of_mem _ List.mem_cons_self)
  have hplain := (decodesTo_iff.mp hdecodes).1 _ List.mem_cons_self
  exact absurd hplain (by decide)

end Texts

end ProxySwitch.RoutingHints
