import ProxySwitch.PacketPathSteps

set_option autoImplicit false

namespace ProxySwitch.DirectConnections
open DestinationRules (InAddr)
open PacketPath ProcessTables RouterPidRoutes TcpLocalRedirect TransitionRuns

structure Observed where
  router : LocalRouter
  direct : IpSession → Bool

/-- What the decision on a SYN says of its connection: a direct rule or no proxy port make it
    direct, also where a flag remembers that there is none; a SYN bound for the redirect is
    not direct even if the redirect refuses it. -/
def verdict : TcpDecision → Option Bool
  | .pass .notTranslated => some false
  | .pass _ => some true
  | .toProxy _ => some false
  | .queued => none
  | .toClient _ => none

def observe (cfg : Config) (s : Observed) : Event → IpSession → Bool
  | .tcpPacket postponed times p =>
    match p.isSyn, verdict (processTcpPacket cfg s.router postponed times p).1 with
    | true, some direct => Function.update s.direct (tcpSession p) direct
    | _, _ => s.direct
  | _ => s.direct

def observedStep (cfg : Config) (s : Observed) (e : Event) : Option Observed :=
  (step cfg s.router e).map fun router => ⟨router, observe cfg s e⟩

def observedStart (proxyServers : List ProxyServers) : Observed :=
  ⟨start proxyServers, fun _ => false⟩

def StaysDirect (cfg : Config) (s : Observed) : Event → Prop
  | .tcpPacket postponed times p =>
    p.isSyn = false → s.direct (tcpSession p) = true →
      ∀ q, (processTcpPacket cfg s.router postponed times p).1 ≠ .toProxy q
  | _ => True

/-- A later segment of a direct connection whose process has a proxy port finds no connection
    from its source port to its destination address in the table. -/
def KeyUnused (cfg : Config) (s : Observed) : Event → Prop
  | .tcpPacket postponed times p =>
    p.isSyn = false → s.direct (tcpSession p) = true →
      NoReply s.router p → ∀ process port, Routed cfg s.router postponed times p process port →
        skipsTcp s.router.routes process = false →
          s.router.tcpRedirect.redirectedConnections p.clientKey = none
  | _ => True

variable {cfg : Config} {r : LocalRouter} {postponed : Bool} {times : ProcessTimes}
  {p : TcpPacket InAddr}

theorem segment_toProxy_iff (hsyn : p.isSyn = false) :
    (∃ q, (processTcpPacket cfg r postponed times p).1 = .toProxy q) ↔
      NoReply r p ∧ ∃ process port, Routed cfg r postponed times p process port ∧
        skipsTcp r.routes process = false ∧
          r.tcpRedirect.redirectedConnections p.clientKey ≠ none := by
  constructor
  · rintro ⟨q, h⟩
    obtain ⟨hreply, ref, process, port, hfound, hskips, hport⟩ := processTcpPacket_toProxy h
    refine ⟨hreply, process, port, ⟨ref, hfound, hport⟩, hskips, fun hkey => ?_⟩
    rw [processTcpPacket_routed hreply hfound hskips hport, routeTcp_segment hsyn, redirectTcp_fst,
      hsyn, hkey] at h
    simp at h
  · rintro ⟨hreply, process, port, ⟨ref, hfound, hport⟩, hskips, hkey⟩
    rw [processTcpPacket_routed hreply hfound hskips hport, routeTcp_segment hsyn, redirectTcp_fst,
      if_pos (by simp only [hsyn, hkey, Bool.false_eq_true])]
    exact ⟨_, rfl⟩

theorem staysDirect_iff (s : Observed) (e : Event) : StaysDirect cfg s e ↔ KeyUnused cfg s e := by
  cases e with
  | tcpPacket postponed times p =>
    refine forall_congr' fun hsyn => forall_congr' fun _ => ?_
    rw [← not_exists, segment_toProxy_iff hsyn, not_and]
    refine forall_congr' fun _ => ?_
    simp only [not_exists, not_and, not_not]
  | _ => rfl

/-- Direct connections stay direct precisely when none of their segments finds its key in use. -/
theorem meets_staysDirect_iff (cfg : Config) (proxyServers : List ProxyServers)
    (events : List Event) :
    Meets (observedStep cfg) (StaysDirect cfg) (observedStart proxyServers) events ↔
      Meets (observedStep cfg) (KeyUnused cfg) (observedStart proxyServers) events :=
  meets_congr (I := fun _ => True) (fun _ _ _ _ _ => trivial)
    (fun s e _ => staysDirect_iff s e) events trivial

def httpsDirect : Config :=
  ⟨1, [], [(0, "APP".toList)], [⟨"direct".toList, [], [], true, true, [⟨443, 443⟩], []⟩]⟩

def browser : Owner := ⟨⟨"APP.EXE".toList, "APP.EXE".toList⟩, 7⟩

def browserPacket (dport : Port) (syn : Bool) : TcpPacket InAddr :=
  ⟨2, 1, 10, 20, 5000, dport, syn, !syn, false, false⟩

def browserRows : IpSession → Option Owner := fun session =>
  if session = tcpSession (browserPacket 443 true) ∨
      session = tcpSession (browserPacket 80 true) then some browser
  else none

/-- A direct connection to port 443 and a redirected one to port 80 of the same server share
    their source port: the next segment of the direct one goes to the proxy. -/
theorem direct_segment_redirected :
    ¬∀ cfg proxyServers events,
      Meets (observedStep cfg) (StaysDirect cfg) (observedStart proxyServers) events := by
  intro h
  have hrun := h httpsDirect [⟨some 8080, none⟩]
    [.actualize (some browserRows) none,
      .tcpPacket false (fun _ => none) (browserPacket 443 true),
      .tcpPacket false (fun _ => none) (browserPacket 80 true),
      .tcpPacket false (fun _ => none) (browserPacket 443 false)]
  refine hrun.2.2.2.1 rfl (by decide)
    { (browserPacket 443 false).swapAddresses with thDport := 8080 } ?_
  decide

end ProxySwitch.DirectConnections
