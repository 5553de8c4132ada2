import ProxySwitch.PacketPath

set_option autoImplicit false

namespace ProxySwitch.PacketPath
open DestinationRules (InAddr)
open PidReuse ProcessTables RouterPidRoutes RuntimeStrings TcpLocalRedirect

section ProxyPortLemmas
variable {cfg : Config} {routes : Router} {times : ProcessTimes} {process : NetworkProcess}
  {server : ProxyServers → Option Port} {port : Port}

theorem matchNames_eq (process : NetworkProcess) (names : List (ℕ × Text)) :
    matchNames cfg process names =
      if process.id = cfg.currentProcessId ∨ names = [] then (none, process)
      else if cfg.excludedList.any (matchesEntry process.toOwner) then
        (none, { process with excluded := true })
      else ((names.find? (matchesEntry process.toOwner ·.2)).map Prod.fst, process) := by
  induction names generalizing process with
  | nil => simp only [matchNames, or_true, if_true]
  | cons name rest ih =>
    obtain ⟨proxyId, pattern⟩ := name
    rw [matchNames]
    by_cases hown : process.id = cfg.currentProcessId
    · simp [matchAppName, hown, ih process]
    · by_cases hexcluded : cfg.excludedList.any (matchesEntry process.toOwner) = true
      · -- the rest sees the process excluded, and excludes it once more
        rw [ih]
        simp only [matchAppName, hown, hexcluded]
        split_ifs <;> simp_all
      · cases hmatch : matchesEntry process.toOwner pattern with
        | true => simp [matchAppName, hown, hexcluded, hmatch]
        | false =>
          rw [ih]
          simp only [matchAppName, hown, hexcluded, hmatch]
          split_ifs <;> simp_all

theorem matchNames_some {names : List (ℕ × Text)} {proxyId : ℕ}
    (h : (matchNames cfg process names).1 = some proxyId) :
    (matchNames cfg process names).2 = process := by
  rw [matchNames_eq] at h ⊢
  split_ifs at h ⊢
  rfl

theorem getProxyPort_some (h : (getProxyPort cfg routes times server process).1 = some port) :
    (getProxyPort cfg routes times server process).2 = process := by
  unfold getProxyPort at h ⊢
  split
  · rfl
  · rename_i hmiss
    simp only [hmiss] at h
    obtain ⟨proxyId, hname, -⟩ := Option.bind_eq_some_iff.mp h
    exact matchNames_some hname

/-- A search can only mark the process as excluded. -/
theorem getProxyPort_process :
    (getProxyPort cfg routes times server process).2 = process ∨
      (getProxyPort cfg routes times server process).2 = { process with excluded := true } := by
  unfold getProxyPort
  split
  · exact .inl rfl
  · simp only [matchNames_eq]
    split_ifs
    · exact .inl rfl
    · exact .inr rfl
    · exact .inl rfl

theorem tcpPort_some (h : (tcpPort cfg routes times process).1 = some port) :
    (tcpPort cfg routes times process).2 = process := by
  unfold tcpPort at h ⊢
  split
  · rfl
  · rename_i hunset
    rw [if_neg hunset] at h
    exact getProxyPort_some h

theorem udpPort_some (h : (udpPort cfg routes times process).1 = some port) :
    (udpPort cfg routes times process).2 = process := by
  unfold udpPort at h ⊢
  split
  · rfl
  · rename_i hunset
    rw [if_neg hunset] at h
    exact getProxyPort_some h

end ProxyPortLemmas

section TcpLemmas
variable {cfg : Config} {r : LocalRouter} {postponed : Bool} {times : ProcessTimes}
  {p : TcpPacket InAddr} {ref : ProcessRef} {process : NetworkProcess} {port : Port}

theorem routeTcp_direct (hsyn : p.isSyn = true)
    (h : (tcpDirectRule cfg p process).isSome = true) :
    routeTcp cfg r p process port = (.pass .directRule, r) := by
  simp only [routeTcp, hsyn, h, if_true]

theorem routeTcp_syn (hsyn : p.isSyn = true) (h : tcpDirectRule cfg p process = none) :
    routeTcp cfg r p process port = redirectTcp (recordDestination r p) p port := by
  simp only [routeTcp, hsyn, h, Option.isSome_none, Bool.false_eq_true, if_true, if_false]

theorem routeTcp_segment (hsyn : p.isSyn = false) :
    routeTcp cfg r p process port = redirectTcp r p port := by
  simp only [routeTcp, hsyn, Bool.false_eq_true, if_false]

theorem redirectTcp_fst :
    (redirectTcp r p port).1 =
      if (p.isSyn = true ↔ r.tcpRedirect.redirectedConnections p.clientKey = none) then
        .toProxy
          { p.swapAddresses with thDport := if port = 0 then r.tcpRedirect.proxyPort else port }
      else .pass .notTranslated := by
  simp only [redirectTcp, clientToServer_fst]
  split_ifs <;> rfl

variable (cfg r postponed times p) in
inductive TcpWay : TcpDecision × LocalRouter → Prop
  | reply (e : TimestampEndpoint) (hproxy : isTcpProxyPort r.routes p.thSport = true)
      (hkey : r.tcpRedirect.redirectedConnections p.serverKey = some e) :
      TcpWay
        (.toClient { p.swapAddresses with thSport := e.port },
          { r with tcpRedirect := (processServerToClientPacket r.tcpRedirect r.now p).2 })
  | queued (hreply : NoReply r p) (hfound : (lookupTcp r postponed p).1 = none) :
      TcpWay (.queued, { r with lookup := (lookupTcp r postponed p).2 })
  | skipped (hreply : NoReply r p) (ref : ProcessRef) (process : NetworkProcess)
      (hfound : (lookupTcp r postponed p).1 = some (ref, process))
      (hskips : skipsTcp r.routes process = true) (reason : PassReason)
      (hreason : reason = .excluded ∨ reason = .bypassCache) :
      TcpWay (.pass reason, { r with lookup := (lookupTcp r postponed p).2 })
  | noPort (hreply : NoReply r p) (ref : ProcessRef) (process : NetworkProcess)
      (hfound : (lookupTcp r postponed p).1 = some (ref, process))
      (hskips : skipsTcp r.routes process = false)
      (hport : (tcpPort cfg r.routes times process).1 = none) :
      TcpWay
        (.pass .noProxyPort,
          { r with
            lookup := (lookupTcp r postponed p).2.store ref
              { (tcpPort cfg r.routes times process).2 with bypassTcp := true } })
  | routed (hreply : NoReply r p) (ref : ProcessRef) (process : NetworkProcess) (port : Port)
      (hfound : (lookupTcp r postponed p).1 = some (ref, process))
      (hskips : skipsTcp r.routes process = false)
      (hport : (tcpPort cfg r.routes times process).1 = some port) :
      TcpWay
        (routeTcp cfg { r with lookup := (lookupTcp r postponed p).2.store ref process } p process
          port)

theorem decideTcp_way (hreply : NoReply r p)
    (hfound : (lookupTcp r postponed p).1 = some (ref, process)) :
    TcpWay cfg r postponed times p
      (decideTcp cfg { r with lookup := (lookupTcp r postponed p).2 } times p ref process) := by
  unfold decideTcp
  split
  · rename_i hexcluded
    exact .skipped hreply ref process hfound (by simp [skipsTcp, hexcluded]) _ (.inl rfl)
  · rename_i hexcluded
    split
    · rename_i hbypass
      exact .skipped hreply ref process hfound (by simp [skipsTcp, hbypass]) _ (.inr rfl)
    · rename_i hbypass
      have hskips : skipsTcp r.routes process = false := by
        rw [skipsTcp, Bool.eq_false_of_not_eq_true hexcluded, Bool.false_or]
        exact Bool.eq_false_of_not_eq_true hbypass
      simp only
      split
      · rename_i port hport
        rw [tcpPort_some hport]
        exact .routed hreply ref process port hfound hskips hport
      · rename_i hport
        exact .noPort hreply ref process hfound hskips hport

variable (cfg r postponed times p) in
theorem processTcpPacket_way :
    TcpWay cfg r postponed times p (processTcpPacket cfg r postponed times p) := by
  by_cases hreply : NoReply r p
  · have houtgoing : processTcpPacket cfg r postponed times p =
        processOutgoingTcp cfg r postponed times p := by
      unfold processTcpPacket
      cases hproxy : isTcpProxyPort r.routes p.thSport with
      | false => rfl
      | true => rw [serverToClient_unknown (hreply hproxy)]
    rw [houtgoing, processOutgoingTcp]
    split
    · rename_i hfound
      exact .queued hreply hfound
    · rename_i ref process hfound
      exact decideTcp_way hreply hfound
  · obtain ⟨hproxy, hkey⟩ := Classical.not_imp.mp hreply
    obtain ⟨e, he⟩ := Option.ne_none_iff_exists'.mp hkey
    have h : processTcpPacket cfg r postponed times p =
        (.toClient { p.swapAddresses with thSport := e.port },
          { r with tcpRedirect := (processServerToClientPacket r.tcpRedirect r.now p).2 }) := by
      simp only [processTcpPacket, hproxy, serverToClient_known he]
    rw [h]
    exact .reply e hproxy he

theorem processTcpPacket_routed (hreply : NoReply r p)
    (hfound : (lookupTcp r postponed p).1 = some (ref, process))
    (hskips : skipsTcp r.routes process = false)
    (hport : (tcpPort cfg r.routes times process).1 = some port) :
    processTcpPacket cfg r postponed times p =
      routeTcp cfg { r with lookup := (lookupTcp r postponed p).2.store ref process } p process
        port := by
  have hway := processTcpPacket_way cfg r postponed times p
  generalize processTcpPacket cfg r postponed times p = result at hway ⊢
  cases hway with
  | reply e hproxy hkey => exact absurd ((hreply hproxy).symm.trans hkey) (by simp)
  | queued _ hfound' => exact absurd (hfound'.symm.trans hfound) (by simp)
  | skipped _ ref' process' hfound' hskips' =>
    obtain ⟨rfl, rfl⟩ := Prod.mk.inj (Option.some.inj (hfound'.symm.trans hfound))
    exact absurd (hskips.symm.trans hskips') (by simp)
  | noPort _ ref' process' hfound' _ hport' =>
    obtain ⟨rfl, rfl⟩ := Prod.mk.inj (Option.some.inj (hfound'.symm.trans hfound))
    exact absurd (hport'.symm.trans hport) (by simp)
  | routed _ ref' process' port' hfound' _ hport' =>
    obtain ⟨rfl, rfl⟩ := Prod.mk.inj (Option.some.inj (hfound'.symm.trans hfound))
    obtain rfl := Option.some.inj (hport'.symm.trans hport)
    rfl

theorem processTcpPacket_toProxy {q : TcpPacket InAddr}
    (h : (processTcpPacket cfg r postponed times p).1 = .toProxy q) :
    NoReply r p ∧ ∃ ref process port, (lookupTcp r postponed p).1 = some (ref, process) ∧
      skipsTcp r.routes process = false ∧
      (tcpPort cfg r.routes times process).1 = some port := by
  have hway := processTcpPacket_way cfg r postponed times p
  generalize processTcpPacket cfg r postponed times p = result at hway h
  cases hway with
  | routed hreply ref process port hfound hskips hport =>
    exact ⟨hreply, ref, process, port, hfound, hskips, hport⟩
  | _ => cases h

theorem routeTcp_tcpRedirect :
    (routeTcp cfg r p process port).2.tcpRedirect = r.tcpRedirect ∨
      (routeTcp cfg r p process port).2.tcpRedirect =
        (processClientToServerPacket r.tcpRedirect r.now p port).2 := by
  cases hsyn : p.isSyn with
  | false => exact .inr (by rw [routeTcp_segment hsyn]; rfl)
  | true =>
    cases hrule : tcpDirectRule cfg p process with
    | none => exact .inr (by rw [routeTcp_syn hsyn hrule]; rfl)
    | some rule => exact .inl (by rw [routeTcp_direct hsyn (by rw [hrule]; rfl)])

variable (cfg r postponed times p) in
/-- A packet is handed to at most one of the two translations. -/
theorem processTcpPacket_tcpRedirect :
    (processTcpPacket cfg r postponed times p).2.tcpRedirect = r.tcpRedirect ∨
      (∃ port, (processTcpPacket cfg r postponed times p).2.tcpRedirect =
        (processClientToServerPacket r.tcpRedirect r.now p port).2) ∨
      (processTcpPacket cfg r postponed times p).2.tcpRedirect =
        (processServerToClientPacket r.tcpRedirect r.now p).2 := by
  have hway := processTcpPacket_way cfg r postponed times p
  generalize processTcpPacket cfg r postponed times p = result at hway ⊢
  cases hway with
  | reply => exact .inr (.inr rfl)
  | routed hreply ref process port =>
    rcases routeTcp_tcpRedirect with h | h
    · exact .inl h
    · exact .inr (.inl ⟨port, h⟩)
  | _ => exact .inl rfl

theorem routeTcp_lookup : (routeTcp cfg r p process port).2.lookup = r.lookup := by
  unfold routeTcp
  split
  · split <;> rfl
  · rfl

structure SameUdp (r r' : LocalRouter) : Prop where
  now : r'.now = r.now
  routes : r'.routes = r.routes
  udpEndpoints : r'.udpEndpoints = r.udpEndpoints
  udpMapper : r'.udpMapper = r.udpMapper

variable (cfg r p process port) in
theorem sameUdp_routeTcp : SameUdp r (routeTcp cfg r p process port).2 := by
  unfold routeTcp
  split
  · split <;> exact ⟨rfl, rfl, rfl, rfl⟩
  · exact ⟨rfl, rfl, rfl, rfl⟩

theorem routeTcp_tcpMapper :
    (routeTcp cfg r p process port).2.tcpMapper =
      if p.isSyn && (routeTcp cfg r p process port).1.reachesRedirect then
        (recordDestination r p).tcpMapper
      else r.tcpMapper := by
  have hreaches : ∀ r : LocalRouter, (redirectTcp r p port).1.reachesRedirect = true := by
    intro r
    rw [redirectTcp_fst]
    split <;> rfl
  cases hsyn : p.isSyn with
  | false =>
    rw [routeTcp_segment hsyn]
    rfl
  | true =>
    cases hrule : tcpDirectRule cfg p process with
    | none =>
      rw [routeTcp_syn hsyn hrule, hreaches]
      rfl
    | some rule =>
      rw [routeTcp_direct hsyn (by rw [hrule]; rfl)]
      rfl

variable (cfg r postponed times p) in
/-- A SYN that reaches the redirect records its destination under its source port. -/
theorem processTcpPacket_tcpMapper :
    (processTcpPacket cfg r postponed times p).2.tcpMapper =
      if p.isSyn && (processTcpPacket cfg r postponed times p).1.reachesRedirect then
        (recordDestination r p).tcpMapper
      else r.tcpMapper := by
  have hway := processTcpPacket_way cfg r postponed times p
  generalize processTcpPacket cfg r postponed times p = result at hway ⊢
  cases hway with
  | routed => exact routeTcp_tcpMapper
  | skipped _ _ _ _ _ reason hreason =>
    rcases hreason with rfl | rfl <;> simp [Decision.reachesRedirect]
  | _ => simp [Decision.reachesRedirect]

variable (cfg r postponed times p) in
theorem sameUdp_processTcpPacket : SameUdp r (processTcpPacket cfg r postponed times p).2 := by
  have hway := processTcpPacket_way cfg r postponed times p
  generalize processTcpPacket cfg r postponed times p = result at hway ⊢
  cases hway with
  | routed _ ref process port =>
    have h := sameUdp_routeTcp cfg { r with lookup := (lookupTcp r postponed p).2.store ref process }
      p process port
    exact ⟨h.now, h.routes, h.udpEndpoints, h.udpMapper⟩
  | _ => exact ⟨rfl, rfl, rfl, rfl⟩

end TcpLemmas

section UdpLemmas
variable {cfg : Config} {r : LocalRouter} {postponed : Bool} {times : ProcessTimes}
  {p : UdpPacket} {ref : ProcessRef} {process : NetworkProcess} {port : Port}

variable (cfg r postponed times p) in
inductive UdpWay : UdpDecision × LocalRouter → Prop
  | multicast (h : (!postponed && p.isMulticast) = true) : UdpWay (.pass .multicast, r)
  | dns (hunicast : (!postponed && p.isMulticast) = false) (h : p.thDport = 53) :
      UdpWay (.pass .dns, r)
  | reply (hunicast : (!postponed && p.isMulticast) = false) (hdns : p.thDport ≠ 53)
      (h : (isUdpProxyPort r.routes p.thSport &&
        (udpServerToClient r.udpEndpoints r.now p).1) = true) :
      UdpWay
        (.toClient (), { r with udpEndpoints := (udpServerToClient r.udpEndpoints r.now p).2 })
  | queued (hout : OutgoingUdp r postponed p) (hfound : (lookupUdp r postponed p).1 = none) :
      UdpWay (.queued, { r with lookup := (lookupUdp r postponed p).2 })
  | skipped (hout : OutgoingUdp r postponed p) (ref : ProcessRef) (process : NetworkProcess)
      (hfound : (lookupUdp r postponed p).1 = some (ref, process))
      (hskips : skipsUdp r.routes process = true) (reason : PassReason) :
      UdpWay (.pass reason, { r with lookup := (lookupUdp r postponed p).2 })
  | noPort (hout : OutgoingUdp r postponed p) (ref : ProcessRef) (process : NetworkProcess)
      (hfound : (lookupUdp r postponed p).1 = some (ref, process))
      (hskips : skipsUdp r.routes process = false)
      (hport : (udpPort cfg r.routes times process).1 = none) :
      UdpWay
        (.pass .noProxyPort,
          { r with
            lookup := (lookupUdp r postponed p).2.store ref
              { (udpPort cfg r.routes times process).2 with bypassUdp := true } })
  | routed (hout : OutgoingUdp r postponed p) (ref : ProcessRef) (process : NetworkProcess)
      (port : Port) (hfound : (lookupUdp r postponed p).1 = some (ref, process))
      (hskips : skipsUdp r.routes process = false)
      (hport : (udpPort cfg r.routes times process).1 = some port) :
      UdpWay
        (routeUdp cfg { r with lookup := (lookupUdp r postponed p).2.store ref process } p process
          port)

theorem decideUdp_way (hout : OutgoingUdp r postponed p)
    (hfound : (lookupUdp r postponed p).1 = some (ref, process)) :
    UdpWay cfg r postponed times p
      (decideUdp cfg { r with lookup := (lookupUdp r postponed p).2 } times p ref process) := by
  unfold decideUdp
  split
  · rename_i hexcluded
    exact .skipped hout ref process hfound (by simp [skipsUdp, hexcluded]) _
  · rename_i hexcluded
    split
    · rename_i hbypass
      exact .skipped hout ref process hfound (by simp [skipsUdp, hbypass]) _
    · rename_i hbypass
      have hskips : skipsUdp r.routes process = false := by
        rw [skipsUdp, Bool.eq_false_of_not_eq_true hexcluded, Bool.false_or]
        exact Bool.eq_false_of_not_eq_true hbypass
      simp only
      split
      · rename_i port hport
        rw [udpPort_some hport]
        exact .routed hout ref process port hfound hskips hport
      · rename_i hport
        exact .noPort hout ref process hfound hskips hport

variable (cfg r postponed times p) in
theorem filterUdpPacket_way :
    UdpWay cfg r postponed times p (filterUdpPacket cfg r postponed times p) := by
  unfold filterUdpPacket processUdpPacket processOutgoingUdp
  split
  · rename_i hmulticast
    exact .multicast hmulticast
  · rename_i hmulticast
    have hunicast := Bool.eq_false_of_not_eq_true hmulticast
    split
    · rename_i hdns
      exact .dns hunicast hdns
    · rename_i hdns
      simp only
      split
      · rename_i hreply
        exact .reply hunicast hdns hreply
      · rename_i hreply
        have hout : OutgoingUdp r postponed p :=
          ⟨hunicast, hdns, Bool.eq_false_of_not_eq_true hreply⟩
        split
        · rename_i hfound
          exact .queued hout hfound
        · rename_i ref process hfound
          exact decideUdp_way hout hfound

structure SameTcp (r r' : LocalRouter) : Prop where
  now : r'.now = r.now
  routes : r'.routes = r.routes
  tcpRedirect : r'.tcpRedirect = r.tcpRedirect
  tcpMapper : r'.tcpMapper = r.tcpMapper

variable (cfg r p process port) in
theorem sameTcp_routeUdp : SameTcp r (routeUdp cfg r p process port).2 := by
  unfold routeUdp
  split <;> exact ⟨rfl, rfl, rfl, rfl⟩

theorem routeUdp_lookup : (routeUdp cfg r p process port).2.lookup = r.lookup := by
  unfold routeUdp
  split <;> rfl

variable (cfg r postponed times p) in
theorem sameTcp_filterUdpPacket : SameTcp r (filterUdpPacket cfg r postponed times p).2 := by
  have hway := filterUdpPacket_way cfg r postponed times p
  generalize filterUdpPacket cfg r postponed times p = result at hway ⊢
  cases hway with
  | routed _ ref process port =>
    have h := sameTcp_routeUdp cfg { r with lookup := (lookupUdp r postponed p).2.store ref process }
      p process port
    exact ⟨h.now, h.routes, h.tcpRedirect, h.tcpMapper⟩
  | _ => exact ⟨rfl, rfl, rfl, rfl⟩

end UdpLemmas

theorem acceptTcp_now (r : LocalRouter) (port : Port) : (acceptTcp r port).2.now = r.now := by
  unfold acceptTcp
  split <;> rfl

theorem next_now (cfg : Config) (r : LocalRouter) {e : Event} (h : ∀ elapsed, e ≠ .tick elapsed) :
    (next cfg r e).now = r.now := by
  cases e with
  | tcpPacket postponed times p => exact (sameUdp_processTcpPacket cfg r postponed times p).now
  | udpPacket postponed times p => exact (sameTcp_filterUdpPacket cfg r postponed times p).now
  | accept port => exact acceptTcp_now r port
  | tick elapsed => exact absurd rfl (h elapsed)
  | _ => rfl

theorem next_tcpRedirect (cfg : Config) (r : LocalRouter) (e : Event) :
    (next cfg r e).tcpRedirect = r.tcpRedirect ∨
      (∃ postponed times p, e = .tcpPacket postponed times p ∧
        ((∃ port, (next cfg r e).tcpRedirect =
          (processClientToServerPacket r.tcpRedirect r.now p port).2) ∨
        (next cfg r e).tcpRedirect = (processServerToClientPacket r.tcpRedirect r.now p).2)) ∨
      e = .cleanupTcp ∧ (next cfg r e).tcpRedirect = r.tcpRedirect.cleanup r.now := by
  cases e with
  | tcpPacket postponed times p =>
    rcases processTcpPacket_tcpRedirect cfg r postponed times p with h | h | h
    · exact .inl h
    · exact .inr (.inl ⟨postponed, times, p, rfl, .inl h⟩)
    · exact .inr (.inl ⟨postponed, times, p, rfl, .inr h⟩)
  | udpPacket postponed times p => exact .inl (sameTcp_filterUdpPacket cfg r postponed times p).tcpRedirect
  | cleanupTcp => exact .inr (.inr ⟨rfl, rfl⟩)
  | accept port =>
    refine .inl ?_
    simp only [next, acceptTcp]
    split <;> rfl
  | _ => exact .inl rfl

theorem next_proxyPort (cfg : Config) (r : LocalRouter) (e : Event) :
    (next cfg r e).tcpRedirect.proxyPort = r.tcpRedirect.proxyPort := by
  rcases next_tcpRedirect cfg r e with h | ⟨postponed, times, p, -, ⟨port, h⟩ | h⟩ | ⟨-, h⟩
  · rw [h]
  · rw [h, clientToServer_proxyPort]
  · rw [h, serverToClient_proxyPort]
  · rw [h]
    rfl

end ProxySwitch.PacketPath
