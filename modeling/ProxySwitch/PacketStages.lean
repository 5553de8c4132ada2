import ProxySwitch.PacketPath

set_option autoImplicit false

/-!
# The packet path among other threads

`process_tcp_packet` and `process_udp_packet` run in the thread of the packet filter and in the
resolver thread at once. Each lookup has a lock of its own, so that every stage of a call finds
the tables and the object of the process as the other threads have left them.
-/
namespace ProxySwitch.PacketStages
open DestinationRules (InAddr)
open PacketPath ProcessTables RouterPidRoutes TcpLocalRedirect

structure Seen where
  replies : LocalRouter
  lookup : LocalRouter
  flags : NetworkProcess → NetworkProcess
  pidRoutes : Router
  port : NetworkProcess → NetworkProcess
  proxies : Router
  redirect : LocalRouter
  times : ProcessTimes

section Decisions
variable (cfg : Config) (seen : Seen) (postponed : Bool)

def outgoingTcp (p : TcpPacket InAddr) : TcpDecision :=
  match (lookupTcp seen.lookup postponed p).1 with
  | none => .queued
  | some (_, process) =>
    let process := seen.flags process
    if process.excluded then .pass .excluded
    else if process.bypassTcp && !hasPidRoute seen.pidRoutes process.id then .pass .bypassCache
    else
      let result := tcpPort cfg seen.proxies seen.times (seen.port process)
      match result.1 with
      | some port => (routeTcp cfg seen.redirect p result.2 port).1
      | none => .pass .noProxyPort

def tcpDecision (p : TcpPacket InAddr) : TcpDecision :=
  match isTcpProxyPort seen.replies.routes p.thSport,
      (processServerToClientPacket seen.replies.tcpRedirect seen.replies.now p).1 with
  | true, some translated => .toClient translated
  | _, _ => outgoingTcp cfg seen postponed p

/-- `redirect` is the table after `is_new_endpoint`. -/
def outgoingUdp (p : UdpPacket) : UdpDecision :=
  match (lookupUdp seen.lookup postponed p).1 with
  | none => .queued
  | some (_, process) =>
    let process := seen.flags process
    if process.excluded then .pass .excluded
    else if process.bypassUdp && !hasPidRoute seen.pidRoutes process.id then .pass .bypassCache
    else
      let result := udpPort cfg seen.proxies seen.times (seen.port process)
      match result.1 with
      | some port =>
        if (udpDirectRule cfg p result.2).isSome then .pass .directRule
        else if (udpClientToServer seen.redirect.udpEndpoints seen.redirect.now p).1 then
          .toProxy port
        else .pass .notTranslated
      | none => .pass .noProxyPort

def udpDecision (p : UdpPacket) : UdpDecision :=
  if p.thDport = 53 then .pass .dns
  else if isUdpProxyPort seen.replies.routes p.thSport &&
      (udpServerToClient seen.replies.udpEndpoints seen.replies.now p).1 then .toClient ()
  else outgoingUdp cfg seen postponed p

def filterUdpDecision (p : UdpPacket) : UdpDecision :=
  if p.isMulticast then .pass .multicast else udpDecision cfg seen false p

end Decisions

section Alone
variable (cfg : Config) (r : LocalRouter) (postponed : Bool) (times : ProcessTimes)

def alone : Seen :=
  ⟨r, r, fun process => process, r.routes, fun process => process, r.routes, r, times⟩

def aloneUdp (p : UdpPacket) : Seen :=
  { alone r times with
    redirect := { r with udpEndpoints := (isNewEndpoint r.udpEndpoints r.now p).2 } }

theorem outgoingTcp_alone (p : TcpPacket InAddr) :
    outgoingTcp cfg (alone r times) postponed p =
      (processOutgoingTcp cfg r postponed times p).1 := by
  unfold outgoingTcp processOutgoingTcp decideTcp alone
  dsimp only
  cases (lookupTcp r postponed p).1 with
  | none => rfl
  | some found =>
    obtain ⟨ref, process⟩ := found
    dsimp only
    by_cases hexcluded : process.excluded = true
    · rw [if_pos hexcluded, if_pos hexcluded]
    · rw [if_neg hexcluded, if_neg hexcluded]
      by_cases hbypass : (process.bypassTcp && !hasPidRoute r.routes process.id) = true
      · rw [if_pos hbypass, if_pos hbypass]
      · rw [if_neg hbypass, if_neg hbypass]
        cases (tcpPort cfg r.routes times process).1 with
        | none => rfl
        | some port =>
          unfold routeTcp
          cases p.isSyn with
          | false => rfl
          | true =>
            simp only [if_true]
            split <;> rfl

theorem tcpDecision_alone (p : TcpPacket InAddr) :
    tcpDecision cfg (alone r times) postponed p =
      (processTcpPacket cfg r postponed times p).1 := by
  have houtgoing := outgoingTcp_alone cfg r postponed times p
  simp only [tcpDecision, processTcpPacket, alone] at houtgoing ⊢
  cases isTcpProxyPort r.routes p.thSport with
  | false => exact houtgoing
  | true =>
    cases (processServerToClientPacket r.tcpRedirect r.now p).1 with
    | none => exact houtgoing
    | some translated => rfl

theorem outgoingUdp_alone (p : UdpPacket) :
    outgoingUdp cfg (aloneUdp r times p) postponed p =
      (processOutgoingUdp cfg r postponed times p).1 := by
  unfold outgoingUdp processOutgoingUdp decideUdp aloneUdp alone
  dsimp only
  cases (lookupUdp r postponed p).1 with
  | none => rfl
  | some found =>
    obtain ⟨ref, process⟩ := found
    dsimp only
    by_cases hexcluded : process.excluded = true
    · rw [if_pos hexcluded, if_pos hexcluded]
    · rw [if_neg hexcluded, if_neg hexcluded]
      by_cases hbypass : (process.bypassUdp && !hasPidRoute r.routes process.id) = true
      · rw [if_pos hbypass, if_pos hbypass]
      · rw [if_neg hbypass, if_neg hbypass]
        cases (udpPort cfg r.routes times process).1 with
        | none => rfl
        | some port =>
          unfold routeUdp
          cases (udpDirectRule cfg p (udpPort cfg r.routes times process).2).isSome <;> rfl

theorem udpDecision_alone (p : UdpPacket) :
    udpDecision cfg (aloneUdp r times p) postponed p =
      (processUdpPacket cfg r postponed times p).1 := by
  have houtgoing := outgoingUdp_alone cfg r postponed times p
  unfold udpDecision processUdpPacket
  unfold aloneUdp alone at houtgoing ⊢
  dsimp only
  by_cases hdns : p.thDport = 53
  · rw [if_pos hdns, if_pos hdns]
  · rw [if_neg hdns, if_neg hdns, houtgoing]
    cases isUdpProxyPort r.routes p.thSport && (udpServerToClient r.udpEndpoints r.now p).1 <;> rfl

theorem filterUdpDecision_alone (p : UdpPacket) :
    filterUdpDecision cfg (aloneUdp r times p) p = (filterUdpPacket cfg r false times p).1 := by
  simp only [filterUdpDecision, filterUdpPacket, Bool.not_false, Bool.true_and,
    udpDecision_alone cfg r false times p]
  split <;> rfl

end Alone

end ProxySwitch.PacketStages
