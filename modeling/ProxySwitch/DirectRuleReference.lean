import ProxySwitch.DestinationRuleBounds
import ProxySwitch.KeyedLists

set_option autoImplicit false

namespace ProxySwitch.DirectRuleReference
open RuntimeStrings PrefixMasks DestinationRules KeyedLists
open DestinationRuleBounds (mem_configureDestinationDirectRules)

/-- What the process tables know of a process before `network_process` upper-cases it. -/
structure ProcessInfo where
  name : Text
  path : Text

structure Endpoint where
  ip : InAddr
  port : Port

section Packets
variable (towupper : Char → Char)

def networkProcess (info : ProcessInfo) : NetworkProcess :=
  ⟨info.name.map towupper, info.path.map towupper⟩

/-- The packet as `process_packet` hands it over, its process looked up before. -/
def packet (info : ProcessInfo) (dst : Endpoint) (isTcp : Bool) : Packet :=
  ⟨isTcp, some (networkProcess towupper info), dst.ip, dst.port⟩

end Packets

section Reference
variable (fold : Char → Char)

def ContainsIgnoringCase (text pattern : Text) : Prop := pattern.map fold <:+: text.map fold

def OnNetwork (isTcp : Bool) (rule : DestinationDirectRule) : Prop :=
  if isTcp then rule.matchTcp = true else rule.matchUdp = true

def OwnedBy (info : ProcessInfo) (rule : DestinationDirectRule) : Prop :=
  (rule.processNames = [] ∧ rule.processPaths = []) ∨
    (∃ pattern ∈ rule.processNames, ContainsIgnoringCase fold info.name pattern) ∨
    ∃ pattern ∈ rule.processPaths, ContainsIgnoringCase fold info.path pattern

def ToPort (port : Port) (rule : DestinationDirectRule) : Prop :=
  rule.dstPorts = [] ∨
    ∃ range ∈ rule.dstPorts, range.start.toNat ≤ port.toNat ∧ port.toNat ≤ range.stop.toNat

def WithinSubnet (subnet : IpSubnet) (ip : InAddr) : Prop :=
  ∀ i < 32, (ntohl subnet.mask).getLsbD i = true →
    (ntohl ip).getLsbD i = (ntohl subnet.address).getLsbD i

def ToAddress (ip : InAddr) (rule : DestinationDirectRule) : Prop :=
  rule.dstCidrs = [] ∨ ∃ subnet ∈ rule.dstCidrs, WithinSubnet subnet ip

structure Matches (info : ProcessInfo) (dst : Endpoint) (isTcp : Bool)
    (rule : DestinationDirectRule) : Prop where
  network : OnNetwork isTcp rule
  process : OwnedBy fold info rule
  port : ToPort dst.port rule
  address : ToAddress dst.ip rule

variable (towupper : Char → Char) (rules : List DestinationDirectRule) (info : ProcessInfo)
  (dst : Endpoint)

/-- The result is the first rule that matches, and the two protocols differ in the network
    filter only. -/
structure FollowsReference : Prop where
  first : ∀ isTcp, IsFirst (Matches fold info dst isTcp) rules
    (matchDestinationDirectRule rules (packet towupper info dst isTcp))
  protocol : ∃ otherFilters : DestinationDirectRule → Bool, ∀ isTcp,
    matchDestinationDirectRule rules (packet towupper info dst isTcp) =
      rules.find? fun rule => (if isTcp then rule.matchTcp else rule.matchUdp) && otherFilters rule

def OwnedByUpper (rule : DestinationDirectRule) : Prop :=
  matchesProcessFilter rule (some (networkProcess towupper info)) = true

/-- A rule that the rest of the packet passes, and whose process filter on upper-cased texts
    differs from the one that ignores case, comes after a rule that passes with both. -/
def CaseAgrees : Prop :=
  ∀ isTcp pre rule post, rules = pre ++ rule :: post →
    OnNetwork isTcp rule → ToPort dst.port rule → ToAddress dst.ip rule →
      ¬(OwnedByUpper towupper info rule ↔ OwnedBy fold info rule) →
        ∃ earlier ∈ pre, OwnedByUpper towupper info earlier ∧ Matches fold info dst isTcp earlier

end Reference

section Filters
variable {rule : DestinationDirectRule}

theorem addressInSubnet_iff (subnet : IpSubnet) (ip : InAddr) :
    subnet.addressInSubnet ip = true ↔ WithinSubnet subnet ip := by
  rw [IpSubnet.addressInSubnet, beq_iff_eq, ← swapBytes_injective.eq_iff, swapBytes_and,
    swapBytes_and]
  constructor
  · intro h i _ hmask
    have hbit := congrArg (fun x => x.getLsbD i) h
    simp only [BitVec.getLsbD_and] at hbit
    rw [ntohl] at hmask
    rw [hmask, Bool.and_true, Bool.and_true] at hbit
    exact hbit
  · intro h
    apply BitVec.eq_of_getLsbD_eq
    intro i hi
    rw [BitVec.getLsbD_and, BitVec.getLsbD_and]
    cases hmask : (swapBytes subnet.mask).getLsbD i with
    | false => rw [Bool.and_false, Bool.and_false]
    | true =>
      have hbit : (swapBytes ip).getLsbD i = (swapBytes subnet.address).getLsbD i := h i hi hmask
      rw [hbit]

theorem matchesCidrFilter_iff (ip : InAddr) : matchesCidrFilter rule ip = true ↔ ToAddress ip rule := by
  simp only [matchesCidrFilter, ToAddress, Bool.or_eq_true, List.isEmpty_iff, List.any_eq_true,
    addressInSubnet_iff]

theorem matchesPortFilter_iff (port : Port) : matchesPortFilter rule port = true ↔ ToPort port rule := by
  simp only [matchesPortFilter, ToPort, Bool.or_eq_true, List.isEmpty_iff, List.any_eq_true,
    decide_eq_true_eq, BitVec.le_def]

theorem onNetwork_iff (isTcp : Bool) :
    (if isTcp then rule.matchTcp else rule.matchUdp) = true ↔ OnNetwork isTcp rule := by
  cases isTcp <;> rfl

theorem matchesProcessFilter_iff (process : NetworkProcess) :
    matchesProcessFilter rule (some process) = true ↔
      (rule.processNames = [] ∧ rule.processPaths = []) ∨
        (∃ pattern ∈ rule.processNames, pattern <:+: process.name) ∨
          ∃ pattern ∈ rule.processPaths, pattern <:+: process.pathName := by
  simp only [matchesProcessFilter, Bool.or_eq_true, Bool.and_eq_true, List.isEmpty_iff,
    List.any_eq_true, decide_eq_true_eq, or_assoc]

theorem ruleMatches_iff (p : Packet) : ruleMatches rule p = true ↔ OnNetwork p.isTcp rule ∧
    matchesProcessFilter rule p.process = true ∧ ToPort p.dstPort rule ∧ ToAddress p.dstIp rule := by
  simp only [ruleMatches, Bool.and_eq_true, onNetwork_iff, matchesPortFilter_iff,
    matchesCidrFilter_iff, and_assoc]

end Filters

section Reference
variable (towupper fold : Char → Char) (rules : List DestinationDirectRule) (info : ProcessInfo)
  (dst : Endpoint)

theorem protocol_network : ∃ otherFilters : DestinationDirectRule → Bool, ∀ isTcp,
    matchDestinationDirectRule rules (packet towupper info dst isTcp) =
      rules.find? fun rule => (if isTcp then rule.matchTcp else rule.matchUdp) && otherFilters rule := by
  refine ⟨fun rule => matchesProcessFilter rule (some (networkProcess towupper info)) &&
    (matchesPortFilter rule dst.port && matchesCidrFilter rule dst.ip), fun isTcp => ?_⟩
  unfold matchDestinationDirectRule
  congr 1
  funext rule
  rw [ruleMatches, Bool.and_assoc, Bool.and_assoc]
  rfl

theorem matches_iff {isTcp : Bool} {rule : DestinationDirectRule} :
    Matches fold info dst isTcp rule ↔ OnNetwork isTcp rule ∧ OwnedBy fold info rule ∧
      ToPort dst.port rule ∧ ToAddress dst.ip rule :=
  ⟨fun h => ⟨h.network, h.process, h.port, h.address⟩, fun ⟨hn, ho, hp, ha⟩ => ⟨hn, ho, hp, ha⟩⟩

/-- Only the process filter can tell the router and the reference apart. -/
theorem differ_iff {isTcp : Bool} {rule : DestinationDirectRule} :
    ¬(ruleMatches rule (packet towupper info dst isTcp) = true ↔ Matches fold info dst isTcp rule) ↔
      OnNetwork isTcp rule ∧ ToPort dst.port rule ∧ ToAddress dst.ip rule ∧
        ¬(OwnedByUpper towupper info rule ↔ OwnedBy fold info rule) := by
  have hrouter : ruleMatches rule (packet towupper info dst isTcp) = true ↔ OnNetwork isTcp rule ∧
      OwnedByUpper towupper info rule ∧ ToPort dst.port rule ∧ ToAddress dst.ip rule :=
    ruleMatches_iff _
  rw [hrouter, matches_iff]
  by_cases hn : OnNetwork isTcp rule <;> by_cases hp : ToPort dst.port rule <;>
    by_cases ha : ToAddress dst.ip rule <;> simp [hn, hp, ha]

theorem followsReference_iff :
    FollowsReference fold towupper rules info dst ↔ CaseAgrees fold towupper rules info dst := by
  have hfirst : ∀ isTcp, IsFirst (Matches fold info dst isTcp) rules
      (matchDestinationDirectRule rules (packet towupper info dst isTcp)) ↔
        ∀ pre rule post, rules = pre ++ rule :: post → OnNetwork isTcp rule → ToPort dst.port rule →
          ToAddress dst.ip rule → ¬(OwnedByUpper towupper info rule ↔ OwnedBy fold info rule) →
            ∃ earlier ∈ pre, OwnedByUpper towupper info earlier ∧ Matches fold info dst isTcp earlier := by
    intro isTcp
    rw [matchDestinationDirectRule, isFirst_find?_iff]
    simp only [differ_iff, and_imp]
    constructor
    · intro h pre rule post hrules hnetwork hport haddress hdiffer
      obtain ⟨earlier, hmem, hupper, hmatches⟩ := h pre rule post hrules hnetwork hport haddress hdiffer
      exact ⟨earlier, hmem, ((ruleMatches_iff _).mp hupper).2.1, hmatches⟩
    · intro h pre rule post hrules hnetwork hport haddress hdiffer
      obtain ⟨earlier, hmem, hupper, hmatches⟩ := h pre rule post hrules hnetwork hport haddress hdiffer
      exact ⟨earlier, hmem,
        (ruleMatches_iff _).mpr ⟨hmatches.network, hupper, hmatches.port, hmatches.address⟩, hmatches⟩
  constructor
  · intro h isTcp
    exact (hfirst isTcp).mp (h.first isTcp)
  · intro h
    exact ⟨fun isTcp => (hfirst isTcp).mpr (h isTcp), protocol_network towupper rules info dst⟩

end Reference

/-- `é` goes to `É` as well; the rest as in the C locale. -/
def latinUpper (c : Char) : Char := if c = 'é' then 'É' else c.toUpper

def editorRule : DestinationDirectRule where
  name := "direct".toList
  processNames := ["éDITOR.EXE".toList]
  processPaths := []
  matchTcp := true
  matchUdp := true
  dstPorts := []
  dstCidrs := []

theorem accented_name_unmatched :
    ¬ ∀ (towupper fold : Char → Char) (rules : List DestinationDirectRule) (info : ProcessInfo)
      (dst : Endpoint), FollowsReference fold towupper rules info dst := by
  intro h
  have hfirst := (h Char.toUpper latinUpper [editorRule] ⟨"Éditor.exe".toList, []⟩ ⟨0, 443⟩).first true
  have hnone : matchDestinationDirectRule [editorRule]
      (packet Char.toUpper ⟨"Éditor.exe".toList, []⟩ ⟨0, 443⟩ true) = none := by decide
  rw [hnone] at hfirst
  cases hfirst with
  | later hnot _ =>
    refine hnot ⟨rfl, .inr (.inl ⟨_, List.mem_singleton_self _, ?_⟩), .inl rfl, .inl rfl⟩
    unfold ContainsIgnoringCase
    decide

example : addDestinationDirectRule DestinationRuleBounds.twoAddresses [] ["éditor.exe".toList] [] [] [] [] =
    some editorRule := rfl

section OneFolding
variable {env : Platform}

def Folded (fold : Char → Char) (rule : DestinationDirectRule) : Prop :=
  ∀ pattern ∈ rule.processNames ++ rule.processPaths, pattern.map fold = pattern

theorem addDestinationDirectRule_folded (hidem : ∀ c, env.toUpper (env.toUpper c) = env.toUpper c)
    {name : Text} {processNames processPaths networks dstPorts dstCidrs : List Text}
    {rule : DestinationDirectRule}
    (h : addDestinationDirectRule env name processNames processPaths networks dstPorts dstCidrs =
      some rule) : Folded env.toUpper rule := by
  have htexts : ∀ texts : List Text, ∀ pattern ∈ (texts.filter (· ≠ [])).map (·.map env.toUpper),
      pattern.map env.toUpper = pattern := by
    intro texts pattern hpattern
    obtain ⟨text, -, rfl⟩ := List.mem_map.mp hpattern
    rw [List.map_map]
    exact List.map_congr_left fun c _ => hidem c
  obtain ⟨-, hrule⟩ := Option.ite_none_right_eq_some.mp h
  obtain rfl := Option.some.inj hrule
  intro pattern hpattern
  rcases List.mem_append.mp hpattern with hname | hpath
  · exact htexts _ pattern hname
  · exact htexts _ pattern hpath

theorem loadRule_folded (hidem : ∀ c, env.toUpper (env.toUpper c) = env.toUpper c)
    {baseDirectory : Text} {settings : DestinationRuleSettings} {rule : DestinationDirectRule}
    (h : loadRule env baseDirectory settings = some (some rule)) : Folded env.toUpper rule := by
  unfold loadRule at h
  split at h
  · obtain ⟨cidrs, -, hadd⟩ := Option.map_eq_some_iff.mp h
    exact addDestinationDirectRule_folded hidem hadd
  · cases h

theorem ownedByUpper_iff_of_folded {fold : Char → Char} {rule : DestinationDirectRule}
    (h : Folded fold rule) (info : ProcessInfo) :
    OwnedByUpper fold info rule ↔ OwnedBy fold info rule := by
  have hcontains : ∀ pattern ∈ rule.processNames ++ rule.processPaths, ∀ text : Text,
      pattern <:+: text.map fold ↔ ContainsIgnoringCase fold text pattern := by
    intro pattern hpattern text
    rw [ContainsIgnoringCase, h pattern hpattern]
  have hnames : ∀ pattern, pattern ∈ rule.processNames ∧ pattern <:+: info.name.map fold ↔
      pattern ∈ rule.processNames ∧ ContainsIgnoringCase fold info.name pattern := fun pattern =>
    and_congr_right fun hmem => hcontains pattern (List.mem_append_left _ hmem) info.name
  have hpaths : ∀ pattern, pattern ∈ rule.processPaths ∧ pattern <:+: info.path.map fold ↔
      pattern ∈ rule.processPaths ∧ ContainsIgnoringCase fold info.path pattern := fun pattern =>
    and_congr_right fun hmem => hcontains pattern (List.mem_append_right _ hmem) info.path
  exact (matchesProcessFilter_iff _).trans
    (or_congr Iff.rfl (or_congr (exists_congr hnames) (exists_congr hpaths)))

/-- With one conversion for rules and processes, and case ignored as it ignores it, the rules
    that the service loads are matched as the reference says. -/
theorem configured_followsReference (hidem : ∀ c, env.toUpper (env.toUpper c) = env.toUpper c)
    {baseDirectory : Text} {settings : List DestinationRuleSettings}
    {rules : List DestinationDirectRule}
    (hload : configureDestinationDirectRules env baseDirectory settings [] = some rules)
    (info : ProcessInfo) (dst : Endpoint) :
    FollowsReference env.toUpper env.toUpper rules info dst := by
  rw [followsReference_iff]
  intro isTcp pre rule post hrules _ _ _ hdiffer
  have hmem : rule ∈ rules := hrules ▸ List.mem_append_right _ List.mem_cons_self
  obtain hnil | ⟨entry, -, hentry⟩ := (mem_configureDestinationDirectRules hload).mp hmem
  · cases hnil
  · exact absurd (ownedByUpper_iff_of_folded (loadRule_folded hidem hentry) info) hdiffer

end OneFolding

end ProxySwitch.DirectRuleReference
