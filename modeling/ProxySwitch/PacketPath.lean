import ProxySwitch.PidReuse
import ProxySwitch.ProcessTables
import ProxySwitch.TransitionRuns

set_option autoImplicit false

namespace ProxySwitch.PacketPath
open DestinationRules (InAddr DestinationDirectRule matchDestinationDirectRule)
open PidReuse ProcessTables RouterPidRoutes RuntimeStrings TcpLocalRedirect

/-- What is fixed when the router starts; `proxyToNames` is in the order of the multimap and
    its patterns, like the exclusions, are in upper case. -/
structure Config where
  currentProcessId : DWORD
  excludedList : List Text
  proxyToNames : List (ℕ × Text)
  destinationDirectRules : List DestinationDirectRule

structure TcpMapperEntry where
  endpoint : IpEndpoint InAddr
  createdAt : ℕ
  deriving DecidableEq

structure UdpPacket where
  hDest : MacAddress
  ipSrc : InAddr
  ipDst : InAddr
  ipOff : BitVec 16
  thSport : Port
  thDport : Port

/-- The router and the steady clock; `routes` holds `proxy_servers_` and `pid_to_proxy_`,
    `udpEndpoints` the table of the UDP redirect. -/
structure LocalRouter where
  now : ℕ
  routes : Router
  lookup : ProcessLookup
  tcpRedirect : Redirect InAddr
  udpEndpoints : Port → Option ℕ
  tcpMapper : Port → Option TcpMapperEntry
  udpMapper : Port → Bool

inductive PassReason
  | multicast
  | dns
  | excluded
  | bypassCache
  | directRule
  | noProxyPort
  | notTranslated
  deriving DecidableEq

/-- `toClient` and `toProxy` are the two reverts, with what the redirect made of the packet. -/
inductive Decision (ζ π : Type)
  | queued
  | pass (reason : PassReason)
  | toClient (translated : ζ)
  | toProxy (translated : π)
  deriving DecidableEq

def Decision.reachesRedirect {ζ π : Type} : Decision ζ π → Bool
  | .toProxy _ | .pass .notTranslated => true
  | _ => false

section ProxyPorts
variable (cfg : Config) (routes : Router) (times : ProcessTimes)

def matchesEntry (process : Owner) (entry : Text) : Bool :=
  if '\\' ∈ entry ∨ '/' ∈ entry then entry <:+: process.pathName else entry <:+: process.name

def matchAppName (app : Text) (process : NetworkProcess) : Bool × NetworkProcess :=
  if process.id = cfg.currentProcessId then (false, process)
  else if cfg.excludedList.any (matchesEntry process.toOwner) then
    (false, { process with excluded := true })
  else (matchesEntry process.toOwner app, process)

def matchNames (process : NetworkProcess) : List (ℕ × Text) → Option ℕ × NetworkProcess
  | [] => (none, process)
  | (proxyId, pattern) :: rest =>
    let result := matchAppName cfg pattern process
    if result.1 then (some proxyId, result.2) else matchNames result.2 rest

def serverPort (server : ProxyServers → Option Port) (proxyId : ℕ) : Option Port :=
  routes.proxyServers[proxyId]?.bind server

/-- `get_proxy_port_tcp` and `get_proxy_port_udp`, which differ in the server they ask. A proxy
    without that server ends the search with no port. -/
def getProxyPort (server : ProxyServers → Option Port) (process : NetworkProcess) :
    Option Port × NetworkProcess :=
  match pidRouteHit routes times process.id with
  | some e => (serverPort routes server e.proxyId, process)
  | none =>
    let result := matchNames cfg process cfg.proxyToNames
    (result.1.bind (serverPort routes server), result.2)

def getProxyPortTcp (process : NetworkProcess) : Option Port × NetworkProcess :=
  getProxyPort cfg routes times ProxyServers.tcp process

def getProxyPortUdp (process : NetworkProcess) : Option Port × NetworkProcess :=
  getProxyPort cfg routes times ProxyServers.udp process

/-- `process->tcp_proxy_port ? process->tcp_proxy_port : get_proxy_port_tcp(process)`. -/
def tcpPort (process : NetworkProcess) : Option Port × NetworkProcess :=
  if process.tcpProxyPort.isSome then (process.tcpProxyPort, process)
  else getProxyPortTcp cfg routes times process

def udpPort (process : NetworkProcess) : Option Port × NetworkProcess :=
  if process.udpProxyPort.isSome then (process.udpProxyPort, process)
  else getProxyPortUdp cfg routes times process

def isTcpProxyPort (port : Port) : Bool := routes.proxyServers.any (·.tcp == some port)

def isUdpProxyPort (port : Port) : Bool := routes.proxyServers.any (·.udp == some port)

def hasPidRoute (pid : DWORD) : Bool := (routes.pidToProxy pid).isSome

end ProxyPorts

/-- `ip_off` without the flag "don't fragment". -/
def UdpPacket.isFragment (p : UdpPacket) : Bool := p.ipOff &&& ~~~0x4000#16 ≠ 0

/-- The lowest bit of the first byte, which also the broadcast address has. -/
def UdpPacket.isMulticast (p : UdpPacket) : Bool := p.hDest.getLsbD 40

section UdpRedirect
variable (endpoints : Port → Option ℕ) (now : ℕ) (p : UdpPacket)

def isNewEndpoint : Bool × (Port → Option ℕ) :=
  match endpoints p.thSport with
  | some _ => (false, endpoints)
  | none => (true, Function.update endpoints p.thSport (some now))

def redirectDatagram (key : Port) : Bool × (Port → Option ℕ) :=
  if p.isFragment || (endpoints key).isNone then (false, endpoints)
  else (true, Function.update endpoints key (some now))

def udpClientToServer : Bool × (Port → Option ℕ) := redirectDatagram endpoints now p p.thSport

def udpServerToClient : Bool × (Port → Option ℕ) := redirectDatagram endpoints now p p.thDport

end UdpRedirect

abbrev TcpDecision := Decision (TcpPacket InAddr) (TcpPacket InAddr)

/-- The SOCKS5 header of a datagram is left out: what is told of one is the port it is sent
    to. -/
abbrev UdpDecision := Decision Unit Port

section Tcp
variable (cfg : Config) (r : LocalRouter) (postponed : Bool) (times : ProcessTimes)
  (p : TcpPacket InAddr)

def tcpSession : IpSession := ⟨⟨p.ipSrc, p.thSport⟩, ⟨p.ipDst, p.thDport⟩⟩

def lookupTcp : Option (ProcessRef × NetworkProcess) × ProcessLookup :=
  let found := lookupProcessForTcp r.lookup r.now false (tcpSession p)
  if found.1.isNone && postponed then lookupProcessForTcp found.2 r.now true (tcpSession p)
  else found

def tcpDirectRule (process : NetworkProcess) : Option DestinationDirectRule :=
  matchDestinationDirectRule cfg.destinationDirectRules
    ⟨true, some process.toNetworkProcess, p.ipDst, p.thDport⟩

def recordDestination : LocalRouter :=
  { r with
    tcpMapper := Function.update r.tcpMapper p.thSport (some ⟨⟨p.ipDst, p.thDport⟩, r.now⟩) }

def redirectTcp (port : Port) : TcpDecision × LocalRouter :=
  let result := processClientToServerPacket r.tcpRedirect r.now p port
  (match result.1 with
    | some translated => .toProxy translated
    | none => .pass .notTranslated,
    { r with tcpRedirect := result.2 })

def routeTcp (process : NetworkProcess) (port : Port) : TcpDecision × LocalRouter :=
  if p.isSyn then
    if (tcpDirectRule cfg p process).isSome then (.pass .directRule, r)
    else redirectTcp (recordDestination r p) p port
  else redirectTcp r p port

def skipsTcp (routes : Router) (process : NetworkProcess) : Bool :=
  process.excluded || process.bypassTcp && !hasPidRoute routes process.id

def decideTcp (ref : ProcessRef) (process : NetworkProcess) : TcpDecision × LocalRouter :=
  if process.excluded then (.pass .excluded, r)
  else if process.bypassTcp && !hasPidRoute r.routes process.id then (.pass .bypassCache, r)
  else
    let result := tcpPort cfg r.routes times process
    match result.1 with
    | some port =>
      routeTcp cfg { r with lookup := r.lookup.store ref result.2 } p result.2 port
    | none =>
      (.pass .noProxyPort,
        { r with lookup := r.lookup.store ref { result.2 with bypassTcp := true } })

/-- A packet that does not come from a local proxy. -/
def processOutgoingTcp : TcpDecision × LocalRouter :=
  let found := lookupTcp r postponed p
  match found.1 with
  | none => (.queued, { r with lookup := found.2 })
  | some (ref, process) => decideTcp cfg { r with lookup := found.2 } times p ref process

def processTcpPacket : TcpDecision × LocalRouter :=
  let reply := processServerToClientPacket r.tcpRedirect r.now p
  match isTcpProxyPort r.routes p.thSport, reply.1 with
  | true, some translated => (.toClient translated, { r with tcpRedirect := reply.2 })
  | _, _ => processOutgoingTcp cfg r postponed times p

def Routed (process : NetworkProcess) (port : Port) : Prop :=
  ∃ ref, (lookupTcp r postponed p).1 = some (ref, process) ∧
    (tcpPort cfg r.routes times process).1 = some port

def NoReply : Prop :=
  isTcpProxyPort r.routes p.thSport = true → r.tcpRedirect.redirectedConnections p.serverKey = none

end Tcp

section Udp
variable (cfg : Config) (r : LocalRouter) (postponed : Bool) (times : ProcessTimes)
  (p : UdpPacket)

def lookupUdp : Option (ProcessRef × NetworkProcess) × ProcessLookup :=
  let found := lookupProcessForUdp r.lookup r.now false ⟨p.ipSrc, p.thSport⟩
  if found.1.isNone && postponed then
    lookupProcessForUdp found.2 r.now true ⟨p.ipSrc, p.thSport⟩
  else found

def udpDirectRule (process : NetworkProcess) : Option DestinationDirectRule :=
  matchDestinationDirectRule cfg.destinationDirectRules
    ⟨false, some process.toNetworkProcess, p.ipDst, p.thDport⟩

def routeUdp (process : NetworkProcess) (port : Port) : UdpDecision × LocalRouter :=
  if (udpDirectRule cfg p process).isSome then (.pass .directRule, r)
  else
    let endpoint := isNewEndpoint r.udpEndpoints r.now p
    let udpMapper := if endpoint.1 then Function.update r.udpMapper p.thSport true else r.udpMapper
    let result := udpClientToServer endpoint.2 r.now p
    (if result.1 then .toProxy port else .pass .notTranslated,
      { r with udpMapper := udpMapper, udpEndpoints := result.2 })

def skipsUdp (routes : Router) (process : NetworkProcess) : Bool :=
  process.excluded || process.bypassUdp && !hasPidRoute routes process.id

def decideUdp (ref : ProcessRef) (process : NetworkProcess) : UdpDecision × LocalRouter :=
  if process.excluded then (.pass .excluded, r)
  else if process.bypassUdp && !hasPidRoute r.routes process.id then (.pass .bypassCache, r)
  else
    let result := udpPort cfg r.routes times process
    match result.1 with
    | some port =>
      routeUdp cfg { r with lookup := r.lookup.store ref result.2 } p result.2 port
    | none =>
      (.pass .noProxyPort,
        { r with lookup := r.lookup.store ref { result.2 with bypassUdp := true } })

def processOutgoingUdp : UdpDecision × LocalRouter :=
  let found := lookupUdp r postponed p
  match found.1 with
  | none => (.queued, { r with lookup := found.2 })
  | some (ref, process) => decideUdp cfg { r with lookup := found.2 } times p ref process

def processUdpPacket : UdpDecision × LocalRouter :=
  if p.thDport = 53 then (.pass .dns, r)
  else
    let reply := udpServerToClient r.udpEndpoints r.now p
    if isUdpProxyPort r.routes p.thSport && reply.1 then
      (.toClient (), { r with udpEndpoints := reply.2 })
    else processOutgoingUdp cfg r postponed times p

/-- The packet filter's callback passes broadcasts and multicasts; the resolver thread has
    none of them. -/
def filterUdpPacket : UdpDecision × LocalRouter :=
  if !postponed && p.isMulticast then (.pass .multicast, r)
  else processUdpPacket cfg r postponed times p

structure OutgoingUdp : Prop where
  notMulticast : (!postponed && p.isMulticast) = false
  notDns : p.thDport ≠ 53
  notReply : (isUdpProxyPort r.routes p.thSport && (udpServerToClient r.udpEndpoints r.now p).1) = false

end Udp

section Tables
variable (r : LocalRouter)

def tcpMapperEntryTtl : ℕ := seconds 30

/-- `now - created_at > tcp_mapper_entry_ttl_`. -/
def TcpMapperEntry.isStale (e : TcpMapperEntry) (now : ℕ) : Bool :=
  tcpMapperEntryTtl < now - e.createdAt

/-- The accept callback of a TCP proxy: the remote endpoint of the negotiation, if any. The
    entry of the port is erased whether it is stale or not. -/
def acceptTcp (port : Port) : Option (IpEndpoint InAddr) × LocalRouter :=
  match r.tcpMapper port with
  | none => (none, r)
  | some e =>
    (if e.isStale r.now then none else some e.endpoint,
      { r with tcpMapper := Function.update r.tcpMapper port none })

/-- The resolver thread's periodic work. -/
def maintain (times : ProcessTimes) : LocalRouter :=
  { r with
    tcpMapper := fun port => (r.tcpMapper port).filter fun e => !e.isStale r.now
    routes := cleanupStalePidRoutes r.routes times }

def cleanupUdpEndpoints : LocalRouter :=
  { r with
    udpEndpoints := fun port => (r.udpEndpoints port).filter fun t => ¬minutes 15 < r.now - t }

end Tables

/-- A packet comes with what `GetProcessTimes` would report meanwhile; adding a PID route is
    followed by a refresh of the tables, which is a step of its own. -/
inductive Event
  | tcpPacket (postponed : Bool) (times : ProcessTimes) (p : TcpPacket InAddr)
  | udpPacket (postponed : Bool) (times : ProcessTimes) (p : UdpPacket)
  | actualize (tcpRows : Option (IpSession → Option Owner))
      (udpRows : Option (IpEndpoint InAddr → Option Owner))
  | associate (pid : DWORD) (proxyId : ℕ) (creationTime : FileTime) (stored : Bool)
  | remove (pid : DWORD)
  | clear
  | maintain (times : ProcessTimes)
  | cleanupTcp
  | cleanupUdp
  | accept (port : Port)
  | tick (elapsed : ℕ)

def next (cfg : Config) (r : LocalRouter) : Event → LocalRouter
  | .tcpPacket postponed times p => (processTcpPacket cfg r postponed times p).2
  | .udpPacket postponed times p => (filterUdpPacket cfg r postponed times p).2
  | .actualize tcpRows udpRows => { r with lookup := actualize r.lookup r.now tcpRows udpRows }
  | .associate pid proxyId creationTime stored =>
    { r with routes := (associateProcessIdToProxy r.routes pid proxyId creationTime stored).2 }
  | .remove pid => { r with routes := (removeProcessId r.routes pid).2 }
  | .clear => { r with routes := clearPidRoutes r.routes }
  | .maintain times => maintain r times
  | .cleanupTcp => { r with tcpRedirect := r.tcpRedirect.cleanup r.now }
  | .cleanupUdp => cleanupUdpEndpoints r
  | .accept port => (acceptTcp r port).2
  | .tick elapsed => { r with now := r.now + elapsed }

def step (cfg : Config) (r : LocalRouter) (e : Event) : Option LocalRouter := some (next cfg r e)

def start (proxyServers : List ProxyServers) : LocalRouter where
  now := 0
  routes := ⟨proxyServers, fun _ => none⟩
  lookup := emptyLookup
  tcpRedirect := ⟨fun _ => none, 0⟩
  udpEndpoints _ := none
  tcpMapper _ := none
  udpMapper _ := false

end ProxySwitch.PacketPath
