import ProxySwitch.PacketPathSteps

set_option autoImplicit false

namespace ProxySwitch.RoutedSyns
open DestinationRules (InAddr)
open PacketPath ProcessTables RouterPidRoutes TcpLocalRedirect TransitionRuns

structure EntersRedirect (r : LocalRouter) (p : TcpPacket InAddr) (process : NetworkProcess) :
    Prop where
  notReply : NoReply r p
  notSkipped : skipsTcp r.routes process = false
  /-- No connection to the same address from the same source port is in the table. -/
  keyFree : r.tcpRedirect.redirectedConnections p.clientKey = none

def NoLeak (cfg : Config) (r : LocalRouter) : Event → Prop
  | .tcpPacket postponed times p =>
    p.isSyn = true → ∀ process port, Routed cfg r postponed times p process port →
      tcpDirectRule cfg p process = none →
        (processTcpPacket cfg r postponed times p).1 =
          .toProxy { p.swapAddresses with thDport := port }
  | _ => True

def WayFree (cfg : Config) (r : LocalRouter) : Event → Prop
  | .tcpPacket postponed times p =>
    p.isSyn = true → ∀ process port, Routed cfg r postponed times p process port →
      tcpDirectRule cfg p process = none → EntersRedirect r p process
  | _ => True

variable {cfg : Config} {r : LocalRouter} {postponed : Bool} {times : ProcessTimes}
  {p : TcpPacket InAddr} {process : NetworkProcess} {port : Port}

theorem toProxy_of_entersRedirect (hzero : r.tcpRedirect.proxyPort = 0) (hsyn : p.isSyn = true)
    (hrouted : Routed cfg r postponed times p process port)
    (hrule : tcpDirectRule cfg p process = none) (h : EntersRedirect r p process) :
    (processTcpPacket cfg r postponed times p).1 =
      .toProxy { p.swapAddresses with thDport := port } := by
  obtain ⟨ref, hfound, hport⟩ := hrouted
  have hfree : p.isSyn = true ↔ r.tcpRedirect.redirectedConnections p.clientKey = none :=
    iff_of_true hsyn h.keyFree
  rw [processTcpPacket_routed h.notReply hfound h.notSkipped hport, routeTcp_syn hsyn hrule,
    redirectTcp_fst, recordDestination, if_pos hfree]
  -- the redirect's own port stands in for a missing one, and is never set
  simp only [hzero]
  split_ifs with hnone
  · rw [hnone]
  · rfl

theorem entersRedirect_of_toProxy {q : TcpPacket InAddr} (hsyn : p.isSyn = true)
    (hrouted : Routed cfg r postponed times p process port)
    (hrule : tcpDirectRule cfg p process = none)
    (h : (processTcpPacket cfg r postponed times p).1 = .toProxy q) :
    EntersRedirect r p process := by
  obtain ⟨ref, hfound, hport⟩ := hrouted
  obtain ⟨hreply, _, _, _, hfound', hskips, -⟩ := processTcpPacket_toProxy h
  obtain ⟨-, rfl⟩ := Prod.mk.inj (Option.some.inj (hfound'.symm.trans hfound))
  rw [processTcpPacket_routed hreply hfound hskips hport, routeTcp_syn hsyn hrule,
    redirectTcp_fst] at h
  refine ⟨hreply, hskips, ?_⟩
  by_contra hkey
  rw [if_neg (fun hfree => hkey (hfree.mp hsyn))] at h
  cases h

theorem noLeak_iff (hzero : r.tcpRedirect.proxyPort = 0) (e : Event) :
    NoLeak cfg r e ↔ WayFree cfg r e := by
  cases e with
  | tcpPacket postponed times p =>
    constructor
    · intro h hsyn process port hrouted hrule
      exact entersRedirect_of_toProxy hsyn hrouted hrule (h hsyn process port hrouted hrule)
    · intro h hsyn process port hrouted hrule
      exact toProxy_of_entersRedirect hzero hsyn hrouted hrule (h hsyn process port hrouted hrule)
  | _ => rfl

/-- No routed SYN leaks precisely when each finds its way into the redirect free. -/
theorem meets_noLeak_iff (cfg : Config) (proxyServers : List ProxyServers) (events : List Event) :
    Meets (step cfg) (NoLeak cfg) (start proxyServers) events ↔
      Meets (step cfg) (WayFree cfg) (start proxyServers) events := by
  refine meets_congr (I := fun r => r.tcpRedirect.proxyPort = 0) ?_
    (fun r e hzero => noLeak_iff hzero e) events rfl
  intro r e r' hzero hstep
  obtain rfl := Option.some.inj hstep
  exact (next_proxyPort cfg r e).trans hzero

/-- A configuration with one pattern, and a table with one session of a process it matches. -/
def appConfig : Config := ⟨1, [], [(0, "APP".toList)], []⟩

def appOwner : Owner := ⟨⟨"APP.EXE".toList, "APP.EXE".toList⟩, 7⟩

def appSyn : TcpPacket InAddr := ⟨2, 1, 10, 20, 5000, 80, true, false, false, false⟩

def appRows : IpSession → Option Owner := fun session =>
  if session = tcpSession appSyn then some appOwner else none

theorem repeatedSyn_leaks :
    ¬∀ cfg proxyServers events, Meets (step cfg) (NoLeak cfg) (start proxyServers) events := by
  intro h
  have hrun := h appConfig [⟨some 8080, none⟩]
    [.actualize (some appRows) none, .tcpPacket false (fun _ => none) appSyn,
      .tcpPacket false (fun _ => none) appSyn]
  have hrouted := hrun.2.2.1 rfl { toOwner := appOwner } 8080 ⟨.tcp (tcpSession appSyn), rfl, rfl⟩ rfl
  revert hrouted
  decide

end ProxySwitch.RoutedSyns
