import Mathlib.Data.List.Infix
import ProxySwitch.PrefixMasks
import ProxySwitch.RuntimeStrings

set_option autoImplicit false

namespace ProxySwitch.DestinationRules
open RuntimeStrings PrefixMasks

abbrev Port := BitVec 16

/-- An `S_addr`, whose bytes are in network order. -/
abbrev InAddr := BitVec 32

def htonl (x : BitVec 32) : InAddr := swapBytes x

def ntohl (x : InAddr) : BitVec 32 := swapBytes x

/-- A `DestinationRuleSettings`; a null list is `none`, a null text the empty one. -/
structure DestinationRuleSettings where
  name : Text := "direct".toList
  action : Text := "direct".toList
  processNames : Option (List Text) := some []
  processPaths : Option (List Text) := some []
  networks : Option (List Text) := some []
  dstPorts : Option (List Text) := some []
  dstCidrs : Option (List Text) := some []
  cidrSets : Option (List Text) := some []

inductive CidrFile
  | missing
  | unreadable
  | lines (rawLines : List Text)

/-- What the code takes from its platform: path combination (which may throw), the file
    system, the conversion to the ANSI code page, `toupper`, and the IPv4 parser, which
    returns the address and the text from its terminator on. -/
structure Platform where
  fullPath : Text → Text → Option Text
  file : Text → CidrFile
  marshal : Text → Text
  toUpper : Char → Char
  rtlIpv4StringToAddress : Text → Option (InAddr × Text)

structure DestinationPortRange where
  start : Port
  stop : Port
  deriving DecidableEq

structure IpSubnet where
  address : InAddr
  mask : InAddr
  deriving DecidableEq

structure DestinationDirectRule where
  name : Text
  processNames : List Text
  processPaths : List Text
  matchTcp : Bool
  matchUdp : Bool
  dstPorts : List DestinationPortRange
  dstCidrs : List IpSubnet

structure NetworkProcess where
  name : Text
  pathName : Text

structure Packet where
  isTcp : Bool
  process : Option NetworkProcess
  dstIp : InAddr
  dstPort : Port

section Parsing

def trim (value : Text) : Text := trimBy (· ∈ " \t\r\n".toList) value

def parsePort (value : Text) : Option Port :=
  let text := trim value
  if text = [] then none
  else match fromCharsInt text with
    | none => none
    | some (port, rest) =>
      if rest = [] ∧ 0 ≤ port ∧ port ≤ 65535 then some (BitVec.ofInt 16 port) else none

def before (c : Char) (text : Text) : Text := text.takeWhile (· ≠ c)

def after (c : Char) (text : Text) : Text := (text.dropWhile (· ≠ c)).tail

def portsBetween (p q : Port) : DestinationPortRange := if q < p then ⟨q, p⟩ else ⟨p, q⟩

def parsePortRange (value : Text) : Option DestinationPortRange :=
  let text := trim value
  if text = [] then none
  else if '-' ∈ text then
    match parsePort (before '-' text), parsePort (after '-' text) with
    | some p, some q => some (portsBetween p q)
    | _, _ => none
  else (parsePort text).map fun p => ⟨p, p⟩

variable (env : Platform)

/-- `ip_address_v4::from_string`: the parser sees a C string, its terminator is not used. -/
def ipFromString (ip : Text) : Option InAddr :=
  (env.rtlIpv4StringToAddress (before '\x00' ip)).map Prod.fst

/-- The constructor `ip_address_v4(std::string)`, which leaves zero when nothing parses. -/
def ipAddressV4 (ip : Text) : InAddr := (ipFromString env ip).getD 0

def fromCidr (subnet : Text) : Option IpSubnet :=
  if '/' ∈ subnet then
    match ipFromString env (before '/' subnet) with
    | none => none
    | some address =>
      match fromCharsUnsigned 255 (after '/' subnet) with
      | none => none
      | some (mask, _) =>
        -- what follows the number is not looked at
        if mask ≤ 32 then some ⟨address, htonl (leadingOnes 32 mask)⟩ else none
  else (ipFromString env subnet).map fun address => ⟨address, ipAddressV4 env "255.255.255.255".toList⟩

end Parsing

section Loading
variable (env : Platform)

def cidrLine (rawLine : Text) : Option Text :=
  let line := trimWhiteSpace rawLine
  if line = [] ∨ line.head? = some '#' then none
  else
    let line := if '#' ∈ line then trimWhiteSpace (before '#' line) else line
    if line = [] then none else some line

/-- `none` is an exception, which ends the start of the service. -/
def loadCidrSet (baseDirectory path : Text) : Option (List Text) :=
  if isNullOrWhiteSpace path then some []
  else match env.fullPath baseDirectory path with
    | none => none
    | some fullPath =>
      match env.file fullPath with
      | .missing => some []
      | .unreadable => none
      | .lines rawLines => some (rawLines.filterMap cidrLine)

def ruleCidrs (baseDirectory : Text) (rule : DestinationRuleSettings) : Option (List Text) :=
  (rule.cidrSets.getD []).foldlM
    (fun cidrs cidrSet => (loadCidrSet env baseDirectory cidrSet).map (cidrs ++ ·))
    (rule.dstCidrs.getD [])

def toStringVector (values : List Text) : List Text :=
  (values.filter (!isNullOrWhiteSpace ·)).map env.marshal

/-- `to_wstring_vector`, whose conversion keeps every text. -/
def toWstringVector (values : List Text) : List Text := values.filter (!isNullOrWhiteSpace ·)

/-- Whether TCP and UDP match, from the `networks` of a rule. -/
def matchNetworks (networks : List Text) : Bool × Bool :=
  if networks = [] then (true, true)
  else networks.foldl (fun (tcp, udp) network =>
    let network := network.map Char.toLower
    if network = "tcp".toList then (true, udp)
    else if network = "udp".toList then (tcp, true)
    else if network = "both".toList then (true, true)
    else (tcp, udp)) (false, false)

/-- The rule appended to `destination_direct_rules_`; `none` where the function returns
    false. -/
def addDestinationDirectRule (name : Text) (processNames processPaths networks dstPorts dstCidrs :
    List Text) : Option DestinationDirectRule :=
  let rule : DestinationDirectRule :=
    { name := if name = [] then "direct".toList else name
      processNames := (processNames.filter (· ≠ [])).map (·.map env.toUpper)
      processPaths := (processPaths.filter (· ≠ [])).map (·.map env.toUpper)
      matchTcp := (matchNetworks networks).1
      matchUdp := (matchNetworks networks).2
      dstPorts := dstPorts.filterMap parsePortRange
      dstCidrs := dstCidrs.filterMap fun cidr => fromCidr env (trim cidr) }
  if rule.matchTcp || rule.matchUdp then some rule else none

def isDirect (action : Text) : Bool := action.map Char.toLower == "direct".toList

/-- The body of the loop of `ConfigureDestinationDirectRules`: an exception, or the rule
    that it adds, if any. -/
def loadRule (baseDirectory : Text) (rule : DestinationRuleSettings) :
    Option (Option DestinationDirectRule) :=
  if isDirect rule.action then
    (ruleCidrs env baseDirectory rule).map fun cidrs =>
      addDestinationDirectRule env
        (if isNullOrWhiteSpace rule.name then "direct".toList else env.marshal rule.name)
        (toWstringVector (rule.processNames.getD []))
        (toWstringVector (rule.processPaths.getD []))
        (toStringVector env (rule.networks.getD []))
        (toStringVector env (rule.dstPorts.getD []))
        (toStringVector env cidrs)
  else some none

def configureDestinationDirectRules (baseDirectory : Text) (rules : List DestinationRuleSettings)
    (loaded : List DestinationDirectRule) : Option (List DestinationDirectRule) :=
  rules.foldlM (fun loaded rule => (loadRule env baseDirectory rule).map (loaded ++ ·.toList)) loaded

end Loading

section Matching
variable (rule : DestinationDirectRule)

def matchesProcessFilter (process : Option NetworkProcess) : Bool :=
  match process with
  | none => false
  | some process =>
    (rule.processNames.isEmpty && rule.processPaths.isEmpty) ||
      rule.processNames.any (· <:+: process.name) ||
      rule.processPaths.any (· <:+: process.pathName)

def matchesPortFilter (dstPort : Port) : Bool :=
  rule.dstPorts.isEmpty || rule.dstPorts.any fun range => range.start ≤ dstPort ∧ dstPort ≤ range.stop

def IpSubnet.addressInSubnet (subnet : IpSubnet) (ip : InAddr) : Bool :=
  ip &&& subnet.mask == subnet.address &&& subnet.mask

def matchesCidrFilter (dstIp : InAddr) : Bool :=
  rule.dstCidrs.isEmpty || rule.dstCidrs.any (·.addressInSubnet dstIp)

def ruleMatches (packet : Packet) : Bool :=
  (if packet.isTcp then rule.matchTcp else rule.matchUdp) &&
    matchesProcessFilter rule packet.process && matchesPortFilter rule packet.dstPort &&
    matchesCidrFilter rule packet.dstIp

def matchDestinationDirectRule (rules : List DestinationDirectRule) (packet : Packet) :
    Option DestinationDirectRule := rules.find? (ruleMatches · packet)

end Matching

end ProxySwitch.DestinationRules
