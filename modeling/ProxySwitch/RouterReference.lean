import ProxySwitch.PacketPathSteps

set_option autoImplicit false

/-!
# The router and its reference

A reference router that keeps no flags on its process objects and looks the proxy port up for
every packet, run in lockstep with the router. What the two share are the tables of owners,
routes and redirected connections.
-/
namespace ProxySwitch.RouterReference
open DestinationRules (InAddr)
open PacketPath PidReuse ProcessTables RouterPidRoutes TcpLocalRedirect TransitionRuns

def referencePort (cfg : Config) (routes : Router) (times : ProcessTimes)
    (server : ProxyServers → Option Port) (owner : Owner) : Option Port :=
  match pidRouteHit routes times owner.id with
  | some e => serverPort routes server e.proxyId
  | none =>
    if owner.id = cfg.currentProcessId ∨ cfg.excludedList.any (matchesEntry owner) then none
    else
      (cfg.proxyToNames.find? (matchesEntry owner ·.2)).bind fun name =>
        serverPort routes server name.1

section Reference
variable (cfg : Config) (r : LocalRouter) (postponed : Bool) (times : ProcessTimes)

def referenceDecideTcp (p : TcpPacket InAddr) (process : NetworkProcess) :
    TcpDecision × LocalRouter :=
  match referencePort cfg r.routes times ProxyServers.tcp process.toOwner with
  | some port => routeTcp cfg r p process port
  | none => (.pass .noProxyPort, r)

def referenceOutgoingTcp (p : TcpPacket InAddr) : TcpDecision × LocalRouter :=
  let found := lookupTcp r postponed p
  match found.1 with
  | none => (.queued, { r with lookup := found.2 })
  | some (_, process) => referenceDecideTcp cfg { r with lookup := found.2 } times p process

def referenceTcpPacket (p : TcpPacket InAddr) : TcpDecision × LocalRouter :=
  let reply := processServerToClientPacket r.tcpRedirect r.now p
  match isTcpProxyPort r.routes p.thSport, reply.1 with
  | true, some translated => (.toClient translated, { r with tcpRedirect := reply.2 })
  | _, _ => referenceOutgoingTcp cfg r postponed times p

def referenceDecideUdp (p : UdpPacket) (process : NetworkProcess) : UdpDecision × LocalRouter :=
  match referencePort cfg r.routes times ProxyServers.udp process.toOwner with
  | some port => routeUdp cfg r p process port
  | none => (.pass .noProxyPort, r)

def referenceOutgoingUdp (p : UdpPacket) : UdpDecision × LocalRouter :=
  let found := lookupUdp r postponed p
  match found.1 with
  | none => (.queued, { r with lookup := found.2 })
  | some (_, process) => referenceDecideUdp cfg { r with lookup := found.2 } times p process

def referenceUdpPacket (p : UdpPacket) : UdpDecision × LocalRouter :=
  if !postponed && p.isMulticast then (.pass .multicast, r)
  else if p.thDport = 53 then (.pass .dns, r)
  else
    let reply := udpServerToClient r.udpEndpoints r.now p
    if isUdpProxyPort r.routes p.thSport && reply.1 then
      (.toClient (), { r with udpEndpoints := reply.2 })
    else referenceOutgoingUdp cfg r postponed times p

def referenceNext : Event → LocalRouter
  | .tcpPacket postponed times p => (referenceTcpPacket cfg r postponed times p).2
  | .udpPacket postponed times p => (referenceUdpPacket cfg r postponed times p).2
  | e => next cfg r e

end Reference

structure Pair where
  router : LocalRouter
  reference : LocalRouter

def pairStep (cfg : Config) (s : Pair) (e : Event) : Option Pair :=
  some ⟨next cfg s.router e, referenceNext cfg s.reference e⟩

def pairStart (proxyServers : List ProxyServers) : Pair := ⟨start proxyServers, start proxyServers⟩

def outcome {ζ π : Type} : Decision ζ π → Decision ζ π
  | .pass _ => .pass .noProxyPort
  | d => d

def SameDecision (cfg : Config) (s : Pair) : Event → Prop
  | .tcpPacket postponed times p =>
    outcome (processTcpPacket cfg s.router postponed times p).1 =
      outcome (referenceTcpPacket cfg s.reference postponed times p).1
  | .udpPacket postponed times p =>
    outcome (filterUdpPacket cfg s.router postponed times p).1 =
      outcome (referenceUdpPacket cfg s.reference postponed times p).1
  | _ => True

/-- Where the flags let a packet pass although its process has a proxy port, it would have
    passed all the same: a direct rule matches its SYN, or the redirect refuses it. -/
def TcpFlagsHarmless (cfg : Config) (r : LocalRouter) (postponed : Bool) (times : ProcessTimes)
    (p : TcpPacket InAddr) : Prop :=
  NoReply r p → ∀ ref process, (lookupTcp r postponed p).1 = some (ref, process) →
    skipsTcp r.routes process = true →
      referencePort cfg r.routes times ProxyServers.tcp process.toOwner ≠ none →
        if p.isSyn then
          tcpDirectRule cfg p process ≠ none ∨
            r.tcpRedirect.redirectedConnections p.clientKey ≠ none
        else r.tcpRedirect.redirectedConnections p.clientKey = none

/-- A datagram would have passed too if a direct rule matches it, or if it is a fragment from
    an endpoint that is known already. -/
def UdpFlagsHarmless (cfg : Config) (r : LocalRouter) (postponed : Bool) (times : ProcessTimes)
    (p : UdpPacket) : Prop :=
  OutgoingUdp r postponed p → ∀ ref process, (lookupUdp r postponed p).1 = some (ref, process) →
    skipsUdp r.routes process = true →
      referencePort cfg r.routes times ProxyServers.udp process.toOwner ≠ none →
        udpDirectRule cfg p process ≠ none ∨
          p.isFragment = true ∧ r.udpEndpoints p.thSport ≠ none

def FlagsHarmless (cfg : Config) (s : Pair) : Event → Prop
  | .tcpPacket postponed times p => TcpFlagsHarmless cfg s.router postponed times p
  | .udpPacket postponed times p => UdpFlagsHarmless cfg s.router postponed times p
  | _ => True

section Flags

def plain (process : NetworkProcess) : NetworkProcess := { toOwner := process.toOwner }

def plainLookup (l : ProcessLookup) : ProcessLookup :=
  { l with
    tcpToApp := fun session => (l.tcpToApp session).map plain
    udpToApp := fun endpoint => (l.udpToApp endpoint).map plain
    defaultProcess := plain l.defaultProcess }

def objectAt (l : ProcessLookup) : ProcessRef → Option NetworkProcess
  | .tcp session => l.tcpToApp session
  | .udp endpoint => l.udpToApp endpoint
  | .default => some l.defaultProcess

def Unassigned (l : ProcessLookup) : Prop :=
  ∀ ref process, objectAt l ref = some process →
    process.tcpProxyPort = none ∧ process.udpProxyPort = none

variable {l : ProcessLookup} {now : ℕ} {ref : ProcessRef} {process process' : NetworkProcess}

theorem lookupTcp_plain (setToDefault : Bool) (session : IpSession) :
    lookupProcessForTcp (plainLookup l) now setToDefault session =
      ((lookupProcessForTcp l now setToDefault session).1.map (Prod.map id plain),
        plainLookup (lookupProcessForTcp l now setToDefault session).2) := by
  unfold lookupProcessForTcp
  cases h : l.tcpToApp session with
  | some process => simp [plainLookup, h]
  | none =>
    simp only [plainLookup, h, Option.map_none, apply_ite (Option.map (Prod.map id plain))]
    rfl

theorem lookupUdp_plain (setToDefault : Bool) (endpoint : IpEndpoint InAddr) :
    lookupProcessForUdp (plainLookup l) now setToDefault endpoint =
      ((lookupProcessForUdp l now setToDefault endpoint).1.map (Prod.map id plain),
        plainLookup (lookupProcessForUdp l now setToDefault endpoint).2) := by
  unfold lookupProcessForUdp
  cases h : l.udpToApp endpoint with
  | some process => simp [plainLookup, h]
  | none =>
    cases hzero : l.udpToApp (zeroIpEndpoint endpoint) with
    | some process =>
      simp only [plainLookup, h, hzero, Option.map_none, Option.map_some]
      rfl
    | none =>
      simp only [plainLookup, h, hzero, Option.map_none,
        apply_ite (Option.map (Prod.map id plain))]
      rfl

theorem objectAt_lookupTcp (setToDefault : Bool) (session : IpSession) (ref : ProcessRef) :
    objectAt (lookupProcessForTcp l now setToDefault session).2 ref = objectAt l ref := by
  unfold lookupProcessForTcp
  cases l.tcpToApp session <;> cases ref <;> rfl

theorem objectAt_lookupUdp (setToDefault : Bool) (endpoint : IpEndpoint InAddr) (ref : ProcessRef) :
    objectAt (lookupProcessForUdp l now setToDefault endpoint).2 ref = objectAt l ref := by
  unfold lookupProcessForUdp
  split <;> cases ref <;> rfl

theorem lookupTcp_objectAt {setToDefault : Bool} {session : IpSession}
    (h : (lookupProcessForTcp l now setToDefault session).1 = some (ref, process)) :
    objectAt l ref = some process := by
  unfold lookupProcessForTcp at h
  split at h
  · rename_i hrow
    obtain ⟨rfl, rfl⟩ := Prod.mk.inj (Option.some.inj h)
    exact hrow
  · simp only at h
    split at h
    · obtain ⟨rfl, rfl⟩ := Prod.mk.inj (Option.some.inj h)
      rfl
    · cases h

theorem lookupUdp_objectAt {setToDefault : Bool} {endpoint : IpEndpoint InAddr}
    (h : (lookupProcessForUdp l now setToDefault endpoint).1 = some (ref, process)) :
    objectAt l ref = some process := by
  unfold lookupProcessForUdp at h
  split at h
  · rename_i hrow
    obtain ⟨rfl, rfl⟩ := Prod.mk.inj (Option.some.inj h)
    exact hrow
  · rename_i hrow
    obtain ⟨rfl, rfl⟩ := Prod.mk.inj (Option.some.inj h)
    exact hrow
  · simp only at h
    split at h
    · obtain ⟨rfl, rfl⟩ := Prod.mk.inj (Option.some.inj h)
      rfl
    · cases h

theorem plainLookup_store (h : objectAt l ref = some process)
    (hsame : plain process' = plain process) :
    plainLookup (l.store ref process') = plainLookup l := by
  cases ref with
  | tcp session =>
    have hrow : l.tcpToApp session = some process := h
    simp only [plainLookup, ProcessLookup.store, ProcessLookup.mk.injEq, and_true]
    funext s
    rw [Function.update_apply]
    split_ifs with hs
    · rw [hs, hrow, Option.map_some, Option.map_some, hsame]
    · rfl
  | udp endpoint =>
    have hrow : l.udpToApp endpoint = some process := h
    simp only [plainLookup, ProcessLookup.store, ProcessLookup.mk.injEq, true_and, and_true]
    funext e
    rw [Function.update_apply]
    split_ifs with he
    · rw [he, hrow, Option.map_some, Option.map_some, hsame]
    · rfl
  | default =>
    obtain rfl := Option.some.inj h
    simp only [plainLookup, ProcessLookup.store, hsame]

theorem objectAt_store {ref' : ProcessRef}
    (h : objectAt (l.store ref process') ref' = some process) :
    process = process' ∨ objectAt l ref' = some process := by
  cases ref <;> cases ref' <;>
    simp only [objectAt, ProcessLookup.store, Function.update_apply] at h ⊢ <;>
    first
      | exact .inr h
      | (split_ifs at h with heq
         · exact .inl (Option.some.inj h).symm
         · exact .inr h)
      | exact .inl (Option.some.inj h).symm

variable (ref) in
theorem unassigned_store (h : Unassigned l) (htcp : process'.tcpProxyPort = none)
    (hudp : process'.udpProxyPort = none) : Unassigned (l.store ref process') := by
  intro ref' process hat
  rcases objectAt_store hat with rfl | hat
  · exact ⟨htcp, hudp⟩
  · exact h ref' process hat

theorem unassigned_actualize (h : Unassigned l) (tcpRows : Option (IpSession → Option Owner))
    (udpRows : Option (IpEndpoint InAddr → Option Owner)) :
    Unassigned (actualize l now tcpRows udpRows) := by
  have hentry : ∀ {row : Option Owner} {process}, row.bind processEntry = some process →
      process.tcpProxyPort = none ∧ process.udpProxyPort = none := by
    intro row process hrow
    obtain ⟨owner, -, hentry⟩ := Option.bind_eq_some_iff.mp hrow
    unfold processEntry at hentry
    split_ifs at hentry
    obtain rfl := Option.some.inj hentry
    exact ⟨rfl, rfl⟩
  intro ref process hat
  cases ref with
  | tcp session =>
    cases tcpRows with
    | none => exact h (.tcp session) process hat
    | some rows => exact hentry hat
  | udp endpoint =>
    cases udpRows with
    | none => exact h (.udp endpoint) process hat
    | some rows => exact hentry hat
  | default => exact h .default process hat

theorem plain_processEntry (row : Option Owner) :
    (row.bind processEntry).map plain = row.bind processEntry := by
  cases row with
  | none => rfl
  | some owner =>
    simp only [Option.bind_some, processEntry]
    split <;> rfl

theorem plainLookup_actualize (l : ProcessLookup) (now : ℕ)
    (tcpRows : Option (IpSession → Option Owner))
    (udpRows : Option (IpEndpoint InAddr → Option Owner)) :
    plainLookup (actualize l now tcpRows udpRows) = actualize (plainLookup l) now tcpRows udpRows := by
  cases tcpRows <;> cases udpRows <;> simp only [plainLookup, actualize, plain_processEntry]

end Flags

structure Simulates (r s : LocalRouter) : Prop where
  now : s.now = r.now
  routes : s.routes = r.routes
  lookup : s.lookup = plainLookup r.lookup
  tcpRedirect : s.tcpRedirect = r.tcpRedirect
  udpEndpoints : s.udpEndpoints = r.udpEndpoints
  unassigned : Unassigned r.lookup

variable {cfg : Config} {r s : LocalRouter} {postponed : Bool} {times : ProcessTimes}

theorem getProxyPort_fst {routes : Router} (server : ProxyServers → Option Port)
    (process : NetworkProcess) :
    (getProxyPort cfg routes times server process).1 =
      referencePort cfg routes times server process.toOwner := by
  cases hhit : pidRouteHit routes times process.id with
  | some e => simp only [getProxyPort, referencePort, hhit]
  | none =>
    simp only [getProxyPort, referencePort, hhit, matchNames_eq]
    by_cases hown : process.id = cfg.currentProcessId
    · simp [hown]
    · by_cases hexcluded : cfg.excludedList.any (matchesEntry process.toOwner) = true
      · simp only [hown, hexcluded, or_true, if_true]
        split_ifs <;> rfl
      · cases hnames : cfg.proxyToNames with
        | nil => simp
        | cons name rest => simp [hown, hexcluded, Option.bind_map]

variable (cfg times) in
/-- The search finds the reference's port, and what it writes back differs in a flag at most. -/
theorem tcpPort_reference (routes : Router) {process : NetworkProcess}
    (h : process.tcpProxyPort = none) :
    (tcpPort cfg routes times process).1 =
        referencePort cfg routes times ProxyServers.tcp process.toOwner ∧
      ((tcpPort cfg routes times process).2 = process ∨
        (tcpPort cfg routes times process).2 = { process with excluded := true }) := by
  have hunset : tcpPort cfg routes times process = getProxyPortTcp cfg routes times process :=
    if_neg (by simp [h])
  rw [hunset]
  exact ⟨getProxyPort_fst _ _, getProxyPort_process⟩

variable (cfg times) in
theorem udpPort_reference (routes : Router) {process : NetworkProcess}
    (h : process.udpProxyPort = none) :
    (udpPort cfg routes times process).1 =
        referencePort cfg routes times ProxyServers.udp process.toOwner ∧
      ((udpPort cfg routes times process).2 = process ∨
        (udpPort cfg routes times process).2 = { process with excluded := true }) := by
  have hunset : udpPort cfg routes times process = getProxyPortUdp cfg routes times process :=
    if_neg (by simp [h])
  rw [hunset]
  exact ⟨getProxyPort_fst _ _, getProxyPort_process⟩

theorem simulates_lookup (h : Simulates r s) {l : ProcessLookup} (hl : Unassigned l) :
    Simulates { r with lookup := l } { s with lookup := plainLookup l } where
  now := h.now
  routes := h.routes
  lookup := rfl
  tcpRedirect := h.tcpRedirect
  udpEndpoints := h.udpEndpoints
  unassigned := hl

theorem plain_marked {process process' : NetworkProcess}
    (h : process' = process ∨ process' = { process with excluded := true }) :
    plain process' = plain process ∧ process'.tcpProxyPort = process.tcpProxyPort ∧
      process'.udpProxyPort = process.udpProxyPort := by
  rcases h with rfl | rfl <;> exact ⟨rfl, rfl, rfl⟩

theorem simulates_store (h : Simulates r s) {l : ProcessLookup} (hl : Unassigned l)
    {ref : ProcessRef} {process process' : NetworkProcess} (hat : objectAt l ref = some process)
    (hsame : plain process' = plain process) (htcp : process'.tcpProxyPort = none)
    (hudp : process'.udpProxyPort = none) :
    Simulates { r with lookup := l.store ref process' } { s with lookup := plainLookup l } := by
  have hstored := simulates_lookup h (unassigned_store ref hl htcp hudp)
  rwa [plainLookup_store hat hsame] at hstored

theorem reference_lookup_routes (h : Simulates r s) {l : ProcessLookup}
    {server : ProxyServers → Option Port} {process : NetworkProcess} {port : Option Port}
    (hport : referencePort cfg r.routes times server process.toOwner = port) :
    referencePort cfg { s with lookup := plainLookup l }.routes times server
      (plain process).toOwner = port := by
  simp only [h.routes]
  exact hport

section Tcp
variable {p : TcpPacket InAddr} {ref : ProcessRef} {process : NetworkProcess} {port : Port}

theorem lookupTcp_simulates (h : Simulates r s) :
    lookupTcp s postponed p =
      ((lookupTcp r postponed p).1.map (Prod.map id plain),
        plainLookup (lookupTcp r postponed p).2) := by
  simp only [lookupTcp, h.lookup, h.now, lookupTcp_plain, Option.isNone_map]
  split_ifs <;> rfl

variable (postponed p) in
theorem unassigned_lookupTcp (h : Simulates r s) : Unassigned (lookupTcp r postponed p).2 := by
  intro ref process hat
  refine h.unassigned ref process ?_
  simp only [lookupTcp] at hat
  split_ifs at hat
  · rwa [objectAt_lookupTcp, objectAt_lookupTcp] at hat
  · rwa [objectAt_lookupTcp] at hat

theorem objectAt_of_lookupTcp (hfound : (lookupTcp r postponed p).1 = some (ref, process)) :
    objectAt (lookupTcp r postponed p).2 ref = some process := by
  simp only [lookupTcp] at hfound ⊢
  split_ifs at hfound ⊢
  · rw [objectAt_lookupTcp]
    exact lookupTcp_objectAt hfound
  · rw [objectAt_lookupTcp]
    exact lookupTcp_objectAt hfound

theorem noReply_simulates (h : Simulates r s) (hreply : NoReply r p) : NoReply s p := by
  unfold NoReply
  rw [h.routes, h.tcpRedirect]
  exact hreply

theorem referenceTcpPacket_reply (h : Simulates r s) {e : TimestampEndpoint}
    (hproxy : isTcpProxyPort r.routes p.thSport = true)
    (hkey : r.tcpRedirect.redirectedConnections p.serverKey = some e) :
    referenceTcpPacket cfg s postponed times p =
      (.toClient { p.swapAddresses with thSport := e.port },
        { s with tcpRedirect := (processServerToClientPacket r.tcpRedirect r.now p).2 }) := by
  simp only [referenceTcpPacket, h.routes, h.tcpRedirect, h.now, hproxy, serverToClient_known hkey]

theorem referenceTcpPacket_outgoing (h : Simulates r s) (hreply : NoReply r p) :
    referenceTcpPacket cfg s postponed times p =
      match (lookupTcp r postponed p).1 with
      | none => (.queued, { s with lookup := plainLookup (lookupTcp r postponed p).2 })
      | some (_, process) =>
        referenceDecideTcp cfg { s with lookup := plainLookup (lookupTcp r postponed p).2 } times p
          (plain process) := by
  have houtgoing : referenceTcpPacket cfg s postponed times p =
      referenceOutgoingTcp cfg s postponed times p := by
    unfold referenceTcpPacket
    cases hproxy : isTcpProxyPort s.routes p.thSport with
    | false => rfl
    | true => rw [serverToClient_unknown (noReply_simulates h hreply hproxy)]
  rw [houtgoing, referenceOutgoingTcp, lookupTcp_simulates h]
  cases (lookupTcp r postponed p).1 <;> rfl

theorem referenceDecideTcp_some
    (h : referencePort cfg r.routes times ProxyServers.tcp process.toOwner = some port) :
    referenceDecideTcp cfg r times p process = routeTcp cfg r p process port := by
  simp only [referenceDecideTcp, h]

theorem referenceDecideTcp_none
    (h : referencePort cfg r.routes times ProxyServers.tcp process.toOwner = none) :
    referenceDecideTcp cfg r times p process = (.pass .noProxyPort, r) := by
  simp only [referenceDecideTcp, h]

variable (cfg p process port) in
/-- The two route a packet of one process alike. -/
theorem simulates_routeTcp (h : Simulates r s) :
    (routeTcp cfg s p (plain process) port).1 = (routeTcp cfg r p process port).1 ∧
      Simulates (routeTcp cfg r p process port).2 (routeTcp cfg s p (plain process) port).2 := by
  have hr := sameUdp_routeTcp cfg r p process port
  have hs := sameUdp_routeTcp cfg s p (plain process) port
  have hrule : tcpDirectRule cfg p (plain process) = tcpDirectRule cfg p process := rfl
  have hredirect : (routeTcp cfg s p (plain process) port).1 = (routeTcp cfg r p process port).1 ∧
      (routeTcp cfg s p (plain process) port).2.tcpRedirect =
        (routeTcp cfg r p process port).2.tcpRedirect := by
    simp only [routeTcp, hrule, redirectTcp, recordDestination]
    split
    · split
      · exact ⟨rfl, h.tcpRedirect⟩
      · simp only [h.now, h.tcpRedirect, and_self]
    · simp only [h.now, h.tcpRedirect, and_self]
  refine ⟨hredirect.1, ?_⟩
  exact
    { now := by rw [hs.now, hr.now, h.now]
      routes := by rw [hs.routes, hr.routes, h.routes]
      lookup := by rw [routeTcp_lookup, routeTcp_lookup, h.lookup]
      tcpRedirect := hredirect.2
      udpEndpoints := by rw [hs.udpEndpoints, hr.udpEndpoints, h.udpEndpoints]
      unassigned := by rw [routeTcp_lookup]; exact h.unassigned }

variable (port) in
/-- A direct SYN and what the redirect refuses pass, and leave the table as it is. -/
theorem routeTcp_passes
    (h : if p.isSyn then
        tcpDirectRule cfg p process ≠ none ∨
          r.tcpRedirect.redirectedConnections p.clientKey ≠ none
      else r.tcpRedirect.redirectedConnections p.clientKey = none) :
    outcome (routeTcp cfg r p process port).1 = .pass .noProxyPort ∧
      (routeTcp cfg r p process port).2.tcpRedirect = r.tcpRedirect := by
  cases hsyn : p.isSyn with
  | false =>
    rw [if_neg (by simp [hsyn])] at h
    rw [routeTcp_segment hsyn, redirectTcp, clientToServer_unknown hsyn h]
    exact ⟨rfl, rfl⟩
  | true =>
    rw [if_pos hsyn] at h
    cases hrule : tcpDirectRule cfg p process with
    | some rule =>
      rw [routeTcp_direct hsyn (by rw [hrule]; rfl)]
      exact ⟨rfl, rfl⟩
    | none =>
      obtain ⟨e, he⟩ := Option.ne_none_iff_exists'.mp (h.resolve_left (· hrule))
      rw [routeTcp_syn hsyn hrule, redirectTcp]
      simp only [recordDestination, clientToServer_syn_known hsyn he]
      exact ⟨rfl, trivial⟩

/-- The reference may route a packet that the router passes, if it passes there too. -/
theorem passes_simulates (h : Simulates r s) {reason : PassReason}
    (hpass : if p.isSyn then
        tcpDirectRule cfg p process ≠ none ∨
          r.tcpRedirect.redirectedConnections p.clientKey ≠ none
      else r.tcpRedirect.redirectedConnections p.clientKey = none) :
    outcome (.pass reason) = outcome (routeTcp cfg s p (plain process) port).1 ∧
      Simulates r (routeTcp cfg s p (plain process) port).2 := by
  obtain ⟨hsame, hsim⟩ := simulates_routeTcp cfg p process port h
  obtain ⟨hout, hredirect⟩ := routeTcp_passes port hpass
  have hframe := sameUdp_routeTcp cfg r p process port
  refine ⟨by rw [hsame, hout]; rfl, ?_⟩
  exact
    { now := hsim.now.trans hframe.now
      routes := hsim.routes.trans hframe.routes
      lookup := by rw [hsim.lookup, routeTcp_lookup]
      tcpRedirect := hsim.tcpRedirect.trans hredirect
      udpEndpoints := hsim.udpEndpoints.trans hframe.udpEndpoints
      unassigned := h.unassigned }

theorem tcpPacket_simulates (h : Simulates r s)
    (hflags : TcpFlagsHarmless cfg r postponed times p) :
    outcome (processTcpPacket cfg r postponed times p).1 =
        outcome (referenceTcpPacket cfg s postponed times p).1 ∧
      Simulates (processTcpPacket cfg r postponed times p).2
        (referenceTcpPacket cfg s postponed times p).2 := by
  have hlookup := unassigned_lookupTcp postponed p h
  have hway := processTcpPacket_way cfg r postponed times p
  generalize processTcpPacket cfg r postponed times p = result at hway ⊢
  cases hway with
  | reply e hproxy hkey =>
    rw [referenceTcpPacket_reply h hproxy hkey]
    exact ⟨rfl, ⟨h.now, h.routes, h.lookup, rfl, h.udpEndpoints, h.unassigned⟩⟩
  | queued hreply hfound =>
    rw [referenceTcpPacket_outgoing h hreply, hfound]
    exact ⟨rfl, simulates_lookup h hlookup⟩
  | skipped hreply ref process hfound hskips reason =>
    rw [referenceTcpPacket_outgoing h hreply, hfound]
    have hsim := simulates_lookup h hlookup
    cases hport : referencePort cfg r.routes times ProxyServers.tcp process.toOwner with
    | none =>
      simp only [referenceDecideTcp_none (reference_lookup_routes h hport)]
      exact ⟨rfl, hsim⟩
    | some port =>
      -- the reference has a port, but its packet passes all the same
      have hpass := hflags hreply ref process hfound hskips (by simp [hport])
      simp only [referenceDecideTcp_some (reference_lookup_routes h hport)]
      exact passes_simulates hsim hpass
  | noPort hreply ref process hfound hskips hport =>
    have hat := objectAt_of_lookupTcp hfound
    obtain ⟨htcp, hudp⟩ := hlookup ref process hat
    obtain ⟨hreference, hmarked⟩ := tcpPort_reference cfg times r.routes htcp
    obtain ⟨hplain, htcp', hudp'⟩ := plain_marked hmarked
    rw [referenceTcpPacket_outgoing h hreply, hfound]
    simp only [referenceDecideTcp_none (reference_lookup_routes h (hreference.symm.trans hport))]
    exact ⟨trivial, simulates_store h hlookup hat hplain (htcp'.trans htcp) (hudp'.trans hudp)⟩
  | routed hreply ref process port hfound hskips hport =>
    have hat := objectAt_of_lookupTcp hfound
    obtain ⟨htcp, hudp⟩ := hlookup ref process hat
    obtain ⟨hreference, -⟩ := tcpPort_reference cfg times r.routes htcp
    rw [referenceTcpPacket_outgoing h hreply, hfound]
    simp only [referenceDecideTcp_some (reference_lookup_routes h (hreference.symm.trans hport))]
    obtain ⟨hsame, hsim⟩ := simulates_routeTcp cfg p process port
      (simulates_store h hlookup hat rfl htcp hudp)
    exact ⟨congrArg outcome hsame.symm, hsim⟩

end Tcp

section Udp
variable {p : UdpPacket} {ref : ProcessRef} {process : NetworkProcess} {port : Port}

theorem lookupUdp_simulates (h : Simulates r s) :
    lookupUdp s postponed p =
      ((lookupUdp r postponed p).1.map (Prod.map id plain),
        plainLookup (lookupUdp r postponed p).2) := by
  simp only [lookupUdp, h.lookup, h.now, lookupUdp_plain, Option.isNone_map]
  split_ifs <;> rfl

variable (postponed p) in
theorem unassigned_lookupUdp (h : Simulates r s) : Unassigned (lookupUdp r postponed p).2 := by
  intro ref process hat
  refine h.unassigned ref process ?_
  simp only [lookupUdp] at hat
  split_ifs at hat
  · rwa [objectAt_lookupUdp, objectAt_lookupUdp] at hat
  · rwa [objectAt_lookupUdp] at hat

theorem objectAt_of_lookupUdp (hfound : (lookupUdp r postponed p).1 = some (ref, process)) :
    objectAt (lookupUdp r postponed p).2 ref = some process := by
  simp only [lookupUdp] at hfound ⊢
  split_ifs at hfound ⊢
  · rw [objectAt_lookupUdp]
    exact lookupUdp_objectAt hfound
  · rw [objectAt_lookupUdp]
    exact lookupUdp_objectAt hfound

theorem referenceUdpPacket_outgoing (h : Simulates r s) (hout : OutgoingUdp r postponed p) :
    referenceUdpPacket cfg s postponed times p =
      match (lookupUdp r postponed p).1 with
      | none => (.queued, { s with lookup := plainLookup (lookupUdp r postponed p).2 })
      | some (_, process) =>
        referenceDecideUdp cfg { s with lookup := plainLookup (lookupUdp r postponed p).2 } times p
          (plain process) := by
  simp only [referenceUdpPacket, hout.notMulticast, hout.notDns, h.routes, h.udpEndpoints, h.now,
    hout.notReply, Bool.false_eq_true, if_false, referenceOutgoingUdp, lookupUdp_simulates h]
  cases (lookupUdp r postponed p).1 <;> rfl

theorem referenceDecideUdp_some
    (h : referencePort cfg r.routes times ProxyServers.udp process.toOwner = some port) :
    referenceDecideUdp cfg r times p process = routeUdp cfg r p process port := by
  simp only [referenceDecideUdp, h]

theorem referenceDecideUdp_none
    (h : referencePort cfg r.routes times ProxyServers.udp process.toOwner = none) :
    referenceDecideUdp cfg r times p process = (.pass .noProxyPort, r) := by
  simp only [referenceDecideUdp, h]

variable (cfg p process port) in
theorem simulates_routeUdp (h : Simulates r s) :
    (routeUdp cfg s p (plain process) port).1 = (routeUdp cfg r p process port).1 ∧
      Simulates (routeUdp cfg r p process port).2 (routeUdp cfg s p (plain process) port).2 := by
  have hr := sameTcp_routeUdp cfg r p process port
  have hs := sameTcp_routeUdp cfg s p (plain process) port
  have hrule : udpDirectRule cfg p (plain process) = udpDirectRule cfg p process := rfl
  have hredirect : (routeUdp cfg s p (plain process) port).1 = (routeUdp cfg r p process port).1 ∧
      (routeUdp cfg s p (plain process) port).2.udpEndpoints =
        (routeUdp cfg r p process port).2.udpEndpoints := by
    simp only [routeUdp, hrule]
    split
    · exact ⟨rfl, h.udpEndpoints⟩
    · simp only [h.now, h.udpEndpoints, and_self]
  refine ⟨hredirect.1, ?_⟩
  exact
    { now := by rw [hs.now, hr.now, h.now]
      routes := by rw [hs.routes, hr.routes, h.routes]
      lookup := by rw [routeUdp_lookup, routeUdp_lookup, h.lookup]
      tcpRedirect := by rw [hs.tcpRedirect, hr.tcpRedirect, h.tcpRedirect]
      udpEndpoints := hredirect.2
      unassigned := by rw [routeUdp_lookup]; exact h.unassigned }

variable (port) in
theorem routeUdp_passes
    (h : udpDirectRule cfg p process ≠ none ∨
      p.isFragment = true ∧ r.udpEndpoints p.thSport ≠ none) :
    outcome (routeUdp cfg r p process port).1 = .pass .noProxyPort ∧
      (routeUdp cfg r p process port).2.udpEndpoints = r.udpEndpoints := by
  cases hrule : udpDirectRule cfg p process with
  | some rule => simp [routeUdp, hrule, outcome]
  | none =>
    obtain ⟨hfragment, hknown⟩ := h.resolve_left (· hrule)
    obtain ⟨t, ht⟩ := Option.ne_none_iff_exists'.mp hknown
    simp [routeUdp, hrule, isNewEndpoint, ht, udpClientToServer, redirectDatagram, hfragment,
      outcome]

theorem passes_simulates_udp (h : Simulates r s) {reason : PassReason}
    (hpass : udpDirectRule cfg p process ≠ none ∨
      p.isFragment = true ∧ r.udpEndpoints p.thSport ≠ none) :
    outcome (.pass reason) = outcome (routeUdp cfg s p (plain process) port).1 ∧
      Simulates r (routeUdp cfg s p (plain process) port).2 := by
  obtain ⟨hsame, hsim⟩ := simulates_routeUdp cfg p process port h
  obtain ⟨hout, hredirect⟩ := routeUdp_passes port hpass
  have hframe := sameTcp_routeUdp cfg r p process port
  refine ⟨by rw [hsame, hout]; rfl, ?_⟩
  exact
    { now := hsim.now.trans hframe.now
      routes := hsim.routes.trans hframe.routes
      lookup := by rw [hsim.lookup, routeUdp_lookup]
      tcpRedirect := hsim.tcpRedirect.trans hframe.tcpRedirect
      udpEndpoints := hsim.udpEndpoints.trans hredirect
      unassigned := h.unassigned }

theorem udpPacket_simulates (h : Simulates r s)
    (hflags : UdpFlagsHarmless cfg r postponed times p) :
    outcome (filterUdpPacket cfg r postponed times p).1 =
        outcome (referenceUdpPacket cfg s postponed times p).1 ∧
      Simulates (filterUdpPacket cfg r postponed times p).2
        (referenceUdpPacket cfg s postponed times p).2 := by
  have hlookup := unassigned_lookupUdp postponed p h
  have hway := filterUdpPacket_way cfg r postponed times p
  generalize filterUdpPacket cfg r postponed times p = result at hway ⊢
  cases hway with
  | multicast hmulticast =>
    rw [referenceUdpPacket, if_pos hmulticast]
    exact ⟨rfl, h⟩
  | dns hunicast hdns =>
    rw [referenceUdpPacket, if_neg (by simp [hunicast]), if_pos hdns]
    exact ⟨rfl, h⟩
  | reply hunicast hdns hreply =>
    simp only [referenceUdpPacket, hunicast, hdns, h.routes, h.udpEndpoints, h.now, hreply,
      Bool.false_eq_true, if_false, if_true]
    exact ⟨trivial, ⟨rfl, rfl, h.lookup, h.tcpRedirect, rfl, h.unassigned⟩⟩
  | queued hout hfound =>
    rw [referenceUdpPacket_outgoing h hout, hfound]
    exact ⟨rfl, simulates_lookup h hlookup⟩
  | skipped hout ref process hfound hskips reason =>
    rw [referenceUdpPacket_outgoing h hout, hfound]
    have hsim := simulates_lookup h hlookup
    cases hport : referencePort cfg r.routes times ProxyServers.udp process.toOwner with
    | none =>
      simp only [referenceDecideUdp_none (reference_lookup_routes h hport)]
      exact ⟨rfl, hsim⟩
    | some port =>
      have hpass := hflags hout ref process hfound hskips (by simp [hport])
      simp only [referenceDecideUdp_some (reference_lookup_routes h hport)]
      exact passes_simulates_udp hsim hpass
  | noPort hout ref process hfound hskips hport =>
    have hat := objectAt_of_lookupUdp hfound
    obtain ⟨htcp, hudp⟩ := hlookup ref process hat
    obtain ⟨hreference, hmarked⟩ := udpPort_reference cfg times r.routes hudp
    obtain ⟨hplain, htcp', hudp'⟩ := plain_marked hmarked
    rw [referenceUdpPacket_outgoing h hout, hfound]
    simp only [referenceDecideUdp_none (reference_lookup_routes h (hreference.symm.trans hport))]
    exact ⟨trivial, simulates_store h hlookup hat hplain (htcp'.trans htcp) (hudp'.trans hudp)⟩
  | routed hout ref process port hfound hskips hport =>
    have hat := objectAt_of_lookupUdp hfound
    obtain ⟨htcp, hudp⟩ := hlookup ref process hat
    obtain ⟨hreference, -⟩ := udpPort_reference cfg times r.routes hudp
    rw [referenceUdpPacket_outgoing h hout, hfound]
    simp only [referenceDecideUdp_some (reference_lookup_routes h (hreference.symm.trans hport))]
    obtain ⟨hsame, hsim⟩ := simulates_routeUdp cfg p process port
      (simulates_store h hlookup hat rfl htcp hudp)
    exact ⟨congrArg outcome hsame.symm, hsim⟩

end Udp

theorem acceptTcp_frame (r : LocalRouter) (port : Port) :
    (acceptTcp r port).2 = { r with tcpMapper := (acceptTcp r port).2.tcpMapper } := by
  unfold acceptTcp
  split <;> rfl

theorem simulates_next {e : Event} (h : Simulates r s) (hflags : FlagsHarmless cfg ⟨r, s⟩ e) :
    Simulates (next cfg r e) (referenceNext cfg s e) := by
  cases e with
  | tcpPacket postponed times p => exact (tcpPacket_simulates h hflags).2
  | udpPacket postponed times p => exact (udpPacket_simulates h hflags).2
  | actualize tcpRows udpRows =>
    have hlookup : actualize s.lookup s.now tcpRows udpRows =
        plainLookup (actualize r.lookup r.now tcpRows udpRows) := by
      rw [h.lookup, h.now, plainLookup_actualize]
    exact ⟨h.now, h.routes, hlookup, h.tcpRedirect, h.udpEndpoints,
      unassigned_actualize h.unassigned tcpRows udpRows⟩
  | associate pid proxyId creationTime stored =>
    exact ⟨h.now, by simp only [referenceNext, next, h.routes], h.lookup, h.tcpRedirect,
      h.udpEndpoints, h.unassigned⟩
  | remove pid =>
    exact ⟨h.now, by simp only [referenceNext, next, h.routes], h.lookup, h.tcpRedirect,
      h.udpEndpoints, h.unassigned⟩
  | clear =>
    exact ⟨h.now, by simp only [referenceNext, next, h.routes], h.lookup, h.tcpRedirect,
      h.udpEndpoints, h.unassigned⟩
  | maintain times =>
    exact ⟨h.now, by simp only [referenceNext, next, maintain, h.routes], h.lookup, h.tcpRedirect,
      h.udpEndpoints, h.unassigned⟩
  | cleanupTcp =>
    exact ⟨h.now, h.routes, h.lookup, by simp only [referenceNext, next, h.tcpRedirect, h.now],
      h.udpEndpoints, h.unassigned⟩
  | cleanupUdp =>
    exact ⟨h.now, h.routes, h.lookup, h.tcpRedirect,
      by simp only [referenceNext, next, cleanupUdpEndpoints, h.udpEndpoints, h.now], h.unassigned⟩
  | accept port =>
    simp only [referenceNext, next]
    rw [acceptTcp_frame r, acceptTcp_frame s]
    exact ⟨h.now, h.routes, h.lookup, h.tcpRedirect, h.udpEndpoints, h.unassigned⟩
  | tick elapsed =>
    exact ⟨by simp only [referenceNext, next, h.now], h.routes, h.lookup, h.tcpRedirect,
      h.udpEndpoints, h.unassigned⟩

theorem sameDecision_of_harmless (h : Simulates r s) (e : Event)
    (hflags : FlagsHarmless cfg ⟨r, s⟩ e) : SameDecision cfg ⟨r, s⟩ e := by
  cases e with
  | tcpPacket postponed times p => exact (tcpPacket_simulates h hflags).1
  | udpPacket postponed times p => exact (udpPacket_simulates h hflags).1
  | _ => trivial

theorem simulates_start (proxyServers : List ProxyServers) :
    Simulates (start proxyServers) (start proxyServers) where
  now := rfl
  routes := rfl
  lookup := rfl
  tcpRedirect := rfl
  udpEndpoints := rfl
  unassigned := by
    intro ref process hat
    cases ref with
    | default =>
      obtain rfl := Option.some.inj hat
      exact ⟨rfl, rfl⟩
    | _ => cases hat

/-- Where the flags are harmless, the router decides as the reference does. -/
theorem meets_sameDecision (cfg : Config) (proxyServers : List ProxyServers)
    (events : List Event) (h : Meets (pairStep cfg) (FlagsHarmless cfg) (pairStart proxyServers) events) :
    Meets (pairStep cfg) (SameDecision cfg) (pairStart proxyServers) events := by
  refine meets_of_meets (I := fun s => Simulates s.router s.reference) ?_ ?_
    (simulates_start proxyServers) h
  · intro s e s' hsim hflags hstep
    obtain rfl := Option.some.inj hstep
    exact simulates_next hsim hflags
  · exact fun s e hsim hflags => sameDecision_of_harmless hsim e hflags

def gameConfig : Config := ⟨1, [], [(1, "GAME".toList)], []⟩

def game : Owner := ⟨⟨"GAME.EXE".toList, "GAME.EXE".toList⟩, 7⟩

def gameSyn (sport : Port) : TcpPacket InAddr := ⟨2, 1, 10, 20, sport, 80, true, false, false, false⟩

def gameRows : IpSession → Option Owner := fun session =>
  if session = tcpSession (gameSyn 5000) then some game else none

def gameTimes : ProcessTimes := fun pid => if pid = 7 then some ⟨1, 0⟩ else none

def exemptConfig : Config :=
  ⟨1, ["GAME".toList], [(1, "GAME".toList)], [⟨"web".toList, [], [], true, false, [⟨80, 80⟩], []⟩]⟩

/-- The first SYN marks the process object, the second finds the mark with no port to miss. When
    a PID route has been added, the mark hides its port from a SYN that a direct rule lets pass. -/
theorem meets_sameDecision_excluded :
    Meets (pairStep exemptConfig) (SameDecision exemptConfig)
      (pairStart [⟨none, some 9000⟩, ⟨some 8080, none⟩])
      [.actualize (some gameRows) none, .tcpPacket false gameTimes (gameSyn 5000),
        .tcpPacket false gameTimes (gameSyn 5000), .associate 7 1 ⟨1, 0⟩ true,
        .tcpPacket false gameTimes (gameSyn 5000)] := by
  refine meets_sameDecision _ _ _ ⟨trivial, ?_, ?_, trivial, ?_, trivial⟩
  · intro _ ref process hfound hskips
    have hprocess : some (ProcessRef.tcp (tcpSession (gameSyn 5000)),
        ({ toOwner := game } : NetworkProcess)) = some (ref, process) := hfound
    obtain ⟨-, rfl⟩ := Prod.mk.inj (Option.some.inj hprocess)
    exact absurd hskips (by decide)
  · intro _ ref process hfound _ hport
    have hprocess : some (ProcessRef.tcp (tcpSession (gameSyn 5000)),
        ({ toOwner := game, excluded := true, bypassTcp := true } : NetworkProcess)) = some (ref, process) := hfound
    obtain ⟨-, rfl⟩ := Prod.mk.inj (Option.some.inj hprocess)
    exact absurd (by decide) hport
  · intro _ ref process hfound _ _
    have hprocess : some (ProcessRef.tcp (tcpSession (gameSyn 5000)),
        ({ toOwner := game, excluded := true, bypassTcp := true } : NetworkProcess)) = some (ref, process) := hfound
    obtain ⟨-, rfl⟩ := Prod.mk.inj (Option.some.inj hprocess)
    exact .inl (by decide)

/-- A packet under a PID route without a TCP server marks the process object; when the route
    has been removed, the mark still lets the next packet pass. -/
theorem removed_route_still_bypassed :
    ¬∀ cfg proxyServers events,
      Meets (pairStep cfg) (SameDecision cfg) (pairStart proxyServers) events := by
  intro h
  have hrun := h gameConfig [⟨none, some 9000⟩, ⟨some 8080, none⟩]
    [.associate 7 0 ⟨1, 0⟩ true, .actualize (some gameRows) none,
      .tcpPacket false gameTimes (gameSyn 5000), .remove 7,
      .tcpPacket false gameTimes (gameSyn 5000)]
  have hsame := hrun.2.2.2.2.1
  revert hsame
  simp only [SameDecision]
  decide

end ProxySwitch.RouterReference
