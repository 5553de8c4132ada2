import ProxySwitch.DestinationRules
import ProxySwitch.OptionalFilters

set_option autoImplicit false

namespace ProxySwitch.DestinationRuleBounds
open RuntimeStrings PrefixMasks DestinationRules OptionalFilters

/-- A port number: decimal digits between blanks, at most 65535. -/
def portNumber (value : Text) : Option Port :=
  match decimal (trim value) with
  | none => none
  | some n => if n ≤ 65535 then some (BitVec.ofNat 16 n) else none

/-- `port` is the number of the entry, or lies between its two numbers. -/
def PortEntry (entry : Text) (port : Port) : Prop :=
  if '-' ∈ trim entry then
    ∃ p q, portNumber (before '-' (trim entry)) = some p ∧
      portNumber (after '-' (trim entry)) = some q ∧
      (p ≤ port ∧ port ≤ q ∨ q ≤ port ∧ port ≤ p)
  else portNumber (trim entry) = some port

def Address (env : Platform) (text : Text) (ip : InAddr) : Prop :=
  '\x00' ∉ text ∧ env.rtlIpv4StringToAddress text = some (ip, [])

/-- The entry is an address, or an address and a decimal prefix length of at most 32, and
    `ip` agrees with the address in the first bits. -/
def CidrEntry (env : Platform) (entry : Text) (ip : InAddr) : Prop :=
  if '/' ∈ trim entry then
    ∃ address n, Address env (before '/' (trim entry)) address ∧
      decimal (after '/' (trim entry)) = some n ∧ n ≤ 32 ∧
      ntohl ip >>> (32 - n) = ntohl address >>> (32 - n)
  else Address env (trim entry) ip

def InRange (range : DestinationPortRange) (port : Port) : Prop :=
  range.start ≤ port ∧ port ≤ range.stop

def InSubnet (subnet : IpSubnet) (ip : InAddr) : Prop := subnet.addressInSubnet ip = true

section Ports

theorem portNumber_eq_some {value : Text} {p : Port} (h : portNumber value = some p) :
    ∃ n, decimal (trim value) = some n ∧ n ≤ 65535 ∧ p = BitVec.ofNat 16 n := by
  unfold portNumber at h
  split at h
  · cases h
  · rename_i n hn
    split at h
    · exact ⟨n, hn, ‹_›, (Option.some.inj h).symm⟩
    · cases h

theorem parsePort_of_portNumber {value : Text} {p : Port} (h : portNumber value = some p) :
    parsePort value = some p := by
  obtain ⟨n, hn, hmax, rfl⟩ := portNumber_eq_some h
  have hne : trim value ≠ [] := (decimal_eq_some hn).1
  have hread : fromCharsInt (trim value) = some ((n : ℤ), []) :=
    fromCharsInt_of_decimal hn (by omega)
  have hint : (n : ℤ) ≤ 65535 := by omega
  simp [parsePort, hne, hread, hint]

theorem inRange_portsBetween {p q port : Port} :
    InRange (portsBetween p q) port ↔ p ≤ port ∧ port ≤ q ∨ q ≤ port ∧ port ≤ p := by
  unfold InRange portsBetween
  split
  · rename_i h
    constructor
    · exact .inr
    · rintro (⟨h₁, h₂⟩ | h')
      · simp only [BitVec.le_def, BitVec.lt_def] at *; omega
      · exact h'
  · rename_i h
    constructor
    · exact .inl
    · rintro (h' | ⟨h₁, h₂⟩)
      · exact h'
      · simp only [BitVec.le_def, BitVec.lt_def] at *; omega

theorem parsePortRange_inhabited {entry : Text} {range : DestinationPortRange}
    (h : parsePortRange entry = some range) : ∃ port, InRange range port := by
  unfold parsePortRange at h
  dsimp only at h
  split at h
  · cases h
  split at h
  · split at h
    · rename_i p q _ _
      obtain rfl := Option.some.inj h
      by_cases hpq : p ≤ q
      · exact ⟨p, inRange_portsBetween.mpr (.inl ⟨BitVec.le_refl p, hpq⟩)⟩
      · refine ⟨p, inRange_portsBetween.mpr (.inr ⟨?_, BitVec.le_refl p⟩)⟩
        simp only [BitVec.le_def] at *; omega
    · cases h
  · obtain ⟨p, _, rfl⟩ := Option.map_eq_some_iff.mp h
    exact ⟨p, BitVec.le_refl p, BitVec.le_refl p⟩

theorem parsePortRange_of_portEntry {entry : Text} {port : Port} (h : PortEntry entry port) :
    ∃ range, parsePortRange entry = some range ∧
      ∀ port', InRange range port' ↔ PortEntry entry port' := by
  have hempty : trim entry ≠ [] := by
    intro hnil
    have hblank : portNumber [] = none := rfl
    simp only [PortEntry, hnil, hblank, List.not_mem_nil, if_false] at h
    cases h
  by_cases hdash : '-' ∈ trim entry
  · simp only [PortEntry, hdash, if_true] at h ⊢
    obtain ⟨p, q, hp, hq, _⟩ := h
    refine ⟨portsBetween p q, ?_, fun port' => ?_⟩
    · simp [parsePortRange, hempty, hdash, parsePort_of_portNumber hp, parsePort_of_portNumber hq]
    · rw [inRange_portsBetween]
      constructor
      · exact fun h => ⟨p, q, hp, hq, h⟩
      · rintro ⟨p', q', hp', hq', h⟩
        obtain rfl : p = p' := Option.some.inj (hp.symm.trans hp')
        obtain rfl : q = q' := Option.some.inj (hq.symm.trans hq')
        exact h
  · simp only [PortEntry, hdash, if_false] at h ⊢
    refine ⟨⟨port, port⟩, ?_, fun port' => ?_⟩
    · simp [parsePortRange, hempty, hdash, parsePort_of_portNumber h]
    · rw [h, Option.some.injEq]
      simp only [InRange, BitVec.le_def, BitVec.toNat_eq]
      omega

end Ports

section Cidrs
variable {env : Platform}

theorem ipFromString_of_address {text : Text} {ip : InAddr} (h : Address env text ip) :
    ipFromString env text = some ip := by
  have hcstr : before '\x00' text = text := by
    refine List.takeWhile_eq_self_iff.mpr fun c hc => ?_
    have hne : c ≠ '\x00' := fun heq => h.1 (heq ▸ hc)
    simpa using hne
  rw [ipFromString, hcstr, h.2]
  rfl

theorem inSubnet_leadingOnes_iff {n : ℕ} (hn : n ≤ 32) (address ip : InAddr) :
    InSubnet ⟨address, htonl (leadingOnes 32 n)⟩ ip ↔
      ntohl ip >>> (32 - n) = ntohl address >>> (32 - n) := by
  simp only [InSubnet, IpSubnet.addressInSubnet, beq_iff_eq, htonl]
  exact and_swapBytes_leadingOnes_eq_iff hn ip address

theorem inSubnet_address (subnet : IpSubnet) : InSubnet subnet subnet.address := by
  simp [InSubnet, IpSubnet.addressInSubnet]

theorem fromCidr_of_cidrEntry
    (hmask : env.rtlIpv4StringToAddress "255.255.255.255".toList = some (BitVec.allOnes 32, []))
    {entry : Text} {ip : InAddr} (h : CidrEntry env entry ip) :
    ∃ subnet, fromCidr env (trim entry) = some subnet ∧
      ∀ ip', InSubnet subnet ip' ↔ CidrEntry env entry ip' := by
  by_cases hslash : '/' ∈ trim entry
  · simp only [CidrEntry, hslash, if_true] at h ⊢
    obtain ⟨address, n, haddress, hn, hmax, _⟩ := h
    refine ⟨⟨address, htonl (leadingOnes 32 n)⟩, ?_, fun ip' => ?_⟩
    · have hread : fromCharsUnsigned 255 (after '/' (trim entry)) = some (n, []) :=
        fromCharsUnsigned_of_decimal hn (by omega)
      simp [fromCidr, hslash, ipFromString_of_address haddress, hread, hmax]
    · rw [inSubnet_leadingOnes_iff hmax]
      constructor
      · exact fun h => ⟨address, n, haddress, hn, hmax, h⟩
      · rintro ⟨address', n', haddress', hn', _, h⟩
        obtain rfl : address = address' :=
          congrArg Prod.fst (Option.some.inj (haddress.2.symm.trans haddress'.2))
        obtain rfl : n = n' := Option.some.inj (hn.symm.trans hn')
        exact h
  · simp only [CidrEntry, hslash, if_false] at h ⊢
    have hones : ipAddressV4 env "255.255.255.255".toList = BitVec.allOnes 32 := by
      rw [ipAddressV4, ipFromString_of_address ⟨by decide, hmask⟩]
      rfl
    refine ⟨⟨ip, BitVec.allOnes 32⟩, ?_, fun ip' => ?_⟩
    · simp only [fromCidr, hslash, if_false, ipFromString_of_address h, hones, Option.map_some]
    · constructor
      · intro h'
        simp only [InSubnet, IpSubnet.addressInSubnet, BitVec.and_allOnes, beq_iff_eq] at h'
        exact h' ▸ h
      · intro h'
        obtain rfl : ip = ip' := congrArg Prod.fst (Option.some.inj (h.2.symm.trans h'.2))
        exact inSubnet_address _

end Cidrs

section Rules
variable (env : Platform) (baseDirectory : Text) (rule : DestinationRuleSettings)

def portEntries : List Text := toStringVector env (rule.dstPorts.getD [])

def HasPorts : Prop := rule.dstPorts.getD [] ≠ []

def HasCidrs : Prop := rule.dstCidrs.getD [] ≠ [] ∨ rule.cidrSets.getD [] ≠ []

def NeverWidens : Prop :=
  ∀ cidrs loaded, ruleCidrs env baseDirectory rule = some cidrs →
    loadRule env baseDirectory rule = some (some loaded) →
    ∀ packet, ruleMatches loaded packet = true →
      (HasPorts rule → ∃ e ∈ portEntries env rule, PortEntry e packet.dstPort) ∧
      (HasCidrs rule → ∃ e ∈ toStringVector env cidrs, CidrEntry env e packet.dstIp)

def Enabled : Prop :=
  isDirect rule.action = true ∧
    matchNetworks (toStringVector env (rule.networks.getD [])) ≠ (false, false)

/-- If the rule is enabled, each list that it sets has an entry that is read, and the
    malformed entries that are read all the same widen nothing. -/
def EntriesRead : Prop :=
  Enabled env rule → ∀ cidrs, ruleCidrs env baseDirectory rule = some cidrs →
    (HasPorts rule → Bounded parsePortRange InRange PortEntry (portEntries env rule)) ∧
    (HasCidrs rule →
      Bounded (fun e => fromCidr env (trim e)) InSubnet (CidrEntry env) (toStringVector env cidrs))

variable {env baseDirectory rule}

theorem matchesPortFilter_iff (loaded : DestinationDirectRule) (port : Port) :
    matchesPortFilter loaded port = true ↔ Admits InRange loaded.dstPorts port := by
  simp [matchesPortFilter, Admits, InRange]

theorem matchesCidrFilter_iff (loaded : DestinationDirectRule) (ip : InAddr) :
    matchesCidrFilter loaded ip = true ↔ Admits InSubnet loaded.dstCidrs ip := by
  simp [matchesCidrFilter, Admits, InSubnet]

theorem exists_process (loaded : DestinationDirectRule) :
    ∃ process, matchesProcessFilter loaded process = true := by
  refine ⟨some ⟨loaded.processNames.headD [], loaded.processPaths.headD []⟩, ?_⟩
  unfold matchesProcessFilter
  cases loaded.processNames with
  | cons name names => simp
  | nil =>
    cases loaded.processPaths with
    | cons path paths => simp
    | nil => rfl

theorem someNetwork_iff (networks : Bool × Bool) :
    networks ≠ (false, false) ↔ (networks.1 || networks.2) = true := by
  rcases networks with ⟨_ | _, _ | _⟩ <;> simp

theorem addDestinationDirectRule_eq_some {name : Text} {processNames processPaths networks dstPorts
    dstCidrs : List Text} {loaded : DestinationDirectRule}
    (h : addDestinationDirectRule env name processNames processPaths networks dstPorts dstCidrs =
      some loaded) :
    loaded.matchTcp = (matchNetworks networks).1 ∧ loaded.matchUdp = (matchNetworks networks).2 ∧
      matchNetworks networks ≠ (false, false) ∧
      loaded.dstPorts = dstPorts.filterMap parsePortRange ∧
      loaded.dstCidrs = dstCidrs.filterMap fun cidr => fromCidr env (trim cidr) := by
  unfold addDestinationDirectRule at h
  dsimp only at h
  split at h
  · rename_i hnet
    obtain rfl := Option.some.inj h
    exact ⟨rfl, rfl, (someNetwork_iff _).mpr hnet, rfl, rfl⟩
  · cases h

theorem addDestinationDirectRule_isSome (env : Platform) {networks : List Text}
    (h : matchNetworks networks ≠ (false, false)) (name : Text) (processNames processPaths dstPorts
      dstCidrs : List Text) :
    ∃ loaded, addDestinationDirectRule env name processNames processPaths networks dstPorts dstCidrs =
      some loaded := by
  have hnet := (someNetwork_iff _).mp h
  unfold addDestinationDirectRule
  exact ⟨_, if_pos hnet⟩

theorem loadRule_eq_some {cidrs : List Text} {loaded : DestinationDirectRule}
    (hcidrs : ruleCidrs env baseDirectory rule = some cidrs)
    (h : loadRule env baseDirectory rule = some (some loaded)) :
    Enabled env rule ∧ (loaded.matchTcp || loaded.matchUdp) = true ∧
      loaded.dstPorts = (portEntries env rule).filterMap parsePortRange ∧
      loaded.dstCidrs =
        (toStringVector env cidrs).filterMap fun cidr => fromCidr env (trim cidr) := by
  unfold loadRule at h
  split at h
  · rename_i hdirect
    rw [hcidrs, Option.map_some, Option.some.injEq] at h
    obtain ⟨htcp, hudp, hnet, hports, hdst⟩ := addDestinationDirectRule_eq_some h
    refine ⟨⟨hdirect, hnet⟩, ?_, hports, hdst⟩
    rw [htcp, hudp]
    exact (someNetwork_iff _).mp hnet
  · cases h

theorem exists_loaded {cidrs : List Text} (henabled : Enabled env rule)
    (hcidrs : ruleCidrs env baseDirectory rule = some cidrs) :
    ∃ loaded, loadRule env baseDirectory rule = some (some loaded) := by
  obtain ⟨hdirect, hnet⟩ := henabled
  obtain ⟨loaded, hloaded⟩ := addDestinationDirectRule_isSome env hnet _ _ _ _ _
  refine ⟨loaded, ?_⟩
  rw [loadRule, if_pos hdirect, hcidrs, Option.map_some, hloaded]

theorem forall_packet_iff {loaded : DestinationDirectRule}
    (hnet : (loaded.matchTcp || loaded.matchUdp) = true) (P : Port → InAddr → Prop) :
    (∀ packet, ruleMatches loaded packet = true → P packet.dstPort packet.dstIp) ↔
      ∀ port ip, Admits InRange loaded.dstPorts port → Admits InSubnet loaded.dstCidrs ip →
        P port ip := by
  constructor
  · intro h port ip hport hip
    obtain ⟨process, hprocess⟩ := exists_process loaded
    have hfilter : (if loaded.matchTcp then loaded.matchTcp else loaded.matchUdp) = true := by
      cases htcp : loaded.matchTcp <;> simp_all
    refine h ⟨loaded.matchTcp, process, ip, port⟩ ?_
    simp only [ruleMatches, hfilter, hprocess, (matchesPortFilter_iff loaded port).mpr hport,
      (matchesCidrFilter_iff loaded ip).mpr hip, Bool.and_self]
  · intro h packet hmatch
    simp only [ruleMatches, Bool.and_eq_true] at hmatch
    obtain ⟨⟨_, hport⟩, hip⟩ := hmatch
    exact h _ _ ((matchesPortFilter_iff loaded _).mp hport) ((matchesCidrFilter_iff loaded _).mp hip)

theorem portEntries_bounded_iff (texts : List Text) :
    (∀ port, Admits InRange (texts.filterMap parsePortRange) port →
      ∃ e ∈ texts, PortEntry e port) ↔ Bounded parsePortRange InRange PortEntry texts := by
  refine admits_subset_iff (fun e r hr => parsePortRange_inhabited hr) ?_ ?_
  · intro e port h
    obtain ⟨range, hrange, _⟩ := parsePortRange_of_portEntry h
    exact ⟨range, hrange⟩
  · intro e r port port' hr h
    obtain ⟨range, hrange, hagree⟩ := parsePortRange_of_portEntry h
    obtain rfl : r = range := Option.some.inj (hr.symm.trans hrange)
    exact hagree port

theorem cidrEntries_bounded_iff
    (hmask : env.rtlIpv4StringToAddress "255.255.255.255".toList = some (BitVec.allOnes 32, []))
    (texts : List Text) :
    (∀ ip, Admits InSubnet (texts.filterMap fun e => fromCidr env (trim e)) ip →
      ∃ e ∈ texts, CidrEntry env e ip) ↔
      Bounded (fun e => fromCidr env (trim e)) InSubnet (CidrEntry env) texts := by
  refine admits_subset_iff (fun e r _ => ⟨r.address, inSubnet_address r⟩) ?_ ?_
  · intro e ip h
    obtain ⟨subnet, hsubnet, _⟩ := fromCidr_of_cidrEntry hmask h
    exact ⟨subnet, hsubnet⟩
  · intro e r ip ip' hr h
    obtain ⟨subnet, hsubnet, hagree⟩ := fromCidr_of_cidrEntry hmask h
    obtain rfl : r = subnet := Option.some.inj (hr.symm.trans hsubnet)
    exact hagree ip

/-- A loaded rule never matches more than its entries say exactly when, in each list that the
    rule sets, some entry is read and no malformed entry is read as more than the others. -/
theorem neverWidens_iff (env : Platform) (baseDirectory : Text) (rule : DestinationRuleSettings)
    (hmask : env.rtlIpv4StringToAddress "255.255.255.255".toList =
      some (BitVec.allOnes 32, [])) :
    NeverWidens env baseDirectory rule ↔ EntriesRead env baseDirectory rule := by
  have hrule : ∀ cidrs loaded, ruleCidrs env baseDirectory rule = some cidrs →
      loadRule env baseDirectory rule = some (some loaded) →
      ((∀ packet, ruleMatches loaded packet = true →
        (HasPorts rule → ∃ e ∈ portEntries env rule, PortEntry e packet.dstPort) ∧
        (HasCidrs rule → ∃ e ∈ toStringVector env cidrs, CidrEntry env e packet.dstIp)) ↔
      (HasPorts rule → Bounded parsePortRange InRange PortEntry (portEntries env rule)) ∧
      (HasCidrs rule → Bounded (fun e => fromCidr env (trim e)) InSubnet (CidrEntry env)
        (toStringVector env cidrs))) := by
    intro cidrs loaded hcidrs hload
    obtain ⟨_, hnet, hports, hdst⟩ := loadRule_eq_some hcidrs hload
    have hsomePort : ∃ port, Admits InRange loaded.dstPorts port := by
      rw [hports]
      exact exists_admits fun r hr => by
        obtain ⟨e, _, he⟩ := List.mem_filterMap.mp hr
        exact parsePortRange_inhabited he
    have hsomeIp : ∃ ip, Admits InSubnet loaded.dstCidrs ip :=
      exists_admits fun r _ => ⟨r.address, inSubnet_address r⟩
    rw [forall_packet_iff hnet (fun port ip =>
      (HasPorts rule → ∃ e ∈ portEntries env rule, PortEntry e port) ∧
        (HasCidrs rule → ∃ e ∈ toStringVector env cidrs, CidrEntry env e ip)),
      forall_admits_and_iff hsomePort hsomeIp, hports, hdst,
      ← portEntries_bounded_iff, ← cidrEntries_bounded_iff hmask]
    exact and_congr ⟨fun h hset port hport => h port hport hset, fun h port hport hset => h hset port hport⟩
      ⟨fun h hset ip hip => h ip hip hset, fun h ip hip hset => h hset ip hip⟩
  constructor
  · intro h henabled cidrs hcidrs
    obtain ⟨loaded, hload⟩ := exists_loaded henabled hcidrs
    exact (hrule cidrs loaded hcidrs hload).mp (h cidrs loaded hcidrs hload)
  · intro h cidrs loaded hcidrs hload
    obtain ⟨henabled, _⟩ := loadRule_eq_some hcidrs hload
    exact (hrule cidrs loaded hcidrs hload).mpr (h henabled cidrs hcidrs)

def twoAddresses : Platform where
  fullPath _ path := some path
  file _ := .missing
  marshal := id
  toUpper := Char.toUpper
  rtlIpv4StringToAddress text :=
    if text = "255.255.255.255".toList then some (BitVec.allOnes 32, [])
    else if text = "10.0.0.0".toList then some (htonl 0x0A000000, [])
    else none

theorem neverWidens_https_and_443 :
    NeverWidens twoAddresses [] { dstPorts := some ["443".toList, "https".toList] } := by
  refine (neverWidens_iff twoAddresses [] _ rfl).mpr fun _ cidrs _ => ⟨fun _ => ?_, fun h => ?_⟩
  · refine ⟨⟨"443".toList, by decide, by decide⟩, fun e he hmalformed r hr => ?_⟩
    have hentries : portEntries twoAddresses { dstPorts := some ["443".toList, "https".toList] } =
        ["443".toList, "https".toList] := rfl
    rw [hentries] at he
    obtain rfl | rfl : e = "443".toList ∨ e = "https".toList := by simpa using he
    · exact absurd rfl (hmalformed 443)
    · cases hr
  · rcases h with h | h <;> exact absurd rfl h

/-- A port entry that is no port leaves a rule without a port filter. -/
theorem unparsable_port_widens :
    ¬ ∀ (env : Platform) (baseDirectory : Text) (rule : DestinationRuleSettings),
      env.rtlIpv4StringToAddress "255.255.255.255".toList = some (BitVec.allOnes 32, []) →
        NeverWidens env baseDirectory rule := by
  intro h
  have hrule := h twoAddresses [] { dstPorts := some ["https".toList] } rfl [] _ rfl rfl
    ⟨true, some ⟨"CURL.EXE".toList, []⟩, htonl 0x01020304, 80⟩ (by decide)
  obtain ⟨e, he, hport⟩ := hrule.1 (List.cons_ne_nil _ _)
  obtain rfl : e = "https".toList := List.mem_singleton.mp he
  cases (show (none : Option Port) = some 80 from hport)

theorem mem_configureDestinationDirectRules {rules : List DestinationRuleSettings}
    {table table' : List DestinationDirectRule}
    (h : configureDestinationDirectRules env baseDirectory rules table = some table')
    {loaded : DestinationDirectRule} : loaded ∈ table' ↔
      loaded ∈ table ∨ ∃ rule ∈ rules, loadRule env baseDirectory rule = some (some loaded) := by
  induction rules generalizing table with
  | nil =>
    obtain rfl : table = table' := Option.some.inj h
    simp
  | cons rule rules ih =>
    simp only [configureDestinationDirectRules, List.foldlM_cons] at h
    obtain ⟨next, hnext, hrest⟩ := Option.bind_eq_some_iff.mp h
    obtain ⟨added, hadded, rfl⟩ := Option.map_eq_some_iff.mp hnext
    rw [ih hrest]
    cases added with
    | none => simp [hadded]
    | some new => simp [hadded, or_assoc, eq_comm]

/-- Traffic that the router sends directly is inside the bounds of some configured rule, if
    every configured rule keeps to its entries. -/
theorem direct_packet_within {rules : List DestinationRuleSettings}
    {table : List DestinationDirectRule} {packet : Packet} {loaded : DestinationDirectRule}
    (hconfig : configureDestinationDirectRules env baseDirectory rules [] = some table)
    (hrules : ∀ rule ∈ rules, NeverWidens env baseDirectory rule)
    (hmatch : matchDestinationDirectRule table packet = some loaded) :
    ∃ rule ∈ rules, ∃ cidrs, ruleCidrs env baseDirectory rule = some cidrs ∧
      (HasPorts rule → ∃ e ∈ portEntries env rule, PortEntry e packet.dstPort) ∧
      (HasCidrs rule → ∃ e ∈ toStringVector env cidrs, CidrEntry env e packet.dstIp) := by
  have hmem := List.mem_of_find?_eq_some hmatch
  have hmatches := List.find?_some hmatch
  obtain hnil | ⟨rule, hrule, hload⟩ := (mem_configureDestinationDirectRules hconfig).mp hmem
  · cases hnil
  · cases hcidrs : ruleCidrs env baseDirectory rule with
    | none =>
      unfold loadRule at hload
      rw [hcidrs, Option.map_none] at hload
      split at hload
      · cases hload
      · cases hload
    | some cidrs =>
      exact ⟨rule, hrule, cidrs, hcidrs, hrules rule hrule cidrs loaded hcidrs hload packet hmatches⟩

end Rules

end ProxySwitch.DestinationRuleBounds
