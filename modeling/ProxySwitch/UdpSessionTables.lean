import ProxySwitch.LocalUdpProxy
import ProxySwitch.UdpRedirection

set_option autoImplicit false

/-!
# The three tables of a UDP session

The redirect's `endpoints_`, the router's `udp_mapper_` and each local proxy's `proxy_sockets_`,
with the datagrams on their way from the redirect to a proxy. `SetUp.connectFailed` is forced on
a port that the mapper does not hold: the proxy is then asked for at 0.0.0.0:0.
-/
namespace ProxySwitch.UdpSessionTables
open DestinationRules (InAddr)
open LocalUdpProxy PacketPath PidReuse ProcessTables RouterPidRoutes RouterReference
open TcpLocalRedirect TransitionRuns UdpRedirection

/-- `servers` are the UDP proxies by the port they listen on, `times` what `GetProcessTimes`
    reports, `inFlight` the redirected datagrams that no proxy has received yet, by the proxy's
    port and the source port. -/
structure World where
  router : LocalRouter
  times : ProcessTimes
  servers : Port → Server
  inFlight : List (Port × Port)

/-- `redirected` tells a datagram of the router from one that a local program sends to the
    proxy itself. -/
inductive Event
  | packet (postponed : Bool) (p : UdpPacket)
  | router (e : PacketPath.Event)
  | processTimes (times : ProcessTimes)
  | serverRead (proxyPort : Port) (c : Completion) (redirected : Bool)
  | lost (proxyPort port : Port)
  | remoteRead (proxyPort : Port) (socket : ℕ) (kept : Bool)
  | clear (proxyPort : Port)
  | tick (elapsed : ℕ)

namespace World

def updateServer (w : World) (proxyPort : Port) (f : Server → Server) : World :=
  { w with servers := Function.update w.servers proxyPort (f (w.servers proxyPort)) }

def packet (cfg : Config) (w : World) (postponed : Bool) (p : UdpPacket) : World :=
  let result := filterUdpPacket cfg w.router postponed w.times p
  { w with
    router := result.2
    inFlight := match result.1 with
      | .toProxy proxyPort => (proxyPort, p.thSport) :: w.inFlight
      | _ => w.inFlight }

def flyingAfter (w : World) (proxyPort : Port) (c : Completion) (redirected : Bool) :
    List (Port × Port) :=
  if redirected then w.inFlight.erase (proxyPort, c.sender.port) else w.inFlight

def read (w : World) (proxyPort : Port) (c : Completion) (redirected : Bool) : World :=
  let asked := queries (w.servers proxyPort) c
  { w.updateServer proxyPort fun s => (serverRead s c).server with
    router := { w.router with
      udpMapper :=
        if asked then Function.update w.router.udpMapper c.sender.port false
        else w.router.udpMapper }
    inFlight := w.flyingAfter proxyPort c redirected }

/-- A redirected datagram carries its SOCKS5 header and is waited for; without an entry in the
    mapper there is no proxy to connect to. -/
def canRead (w : World) (proxyPort : Port) (c : Completion) (redirected : Bool) : Bool :=
  (w.servers proxyPort).reading &&
    (!redirected || c.bytes ≠ [] && w.inFlight.contains (proxyPort, c.sender.port)) &&
    (!queries (w.servers proxyPort) c || w.router.udpMapper c.sender.port ||
      c.setUp == .connectFailed)

end World

def step (cfg : Config) (w : World) : Event → Option World
  | .packet postponed p => some (w.packet cfg postponed p)
  | .router e =>
    match e with
    | .udpPacket _ _ _ | .tick _ => none
    | e => some { w with router := next cfg w.router e }
  | .processTimes times => some { w with times := times }
  | .serverRead proxyPort c redirected =>
    if w.canRead proxyPort c redirected then some (w.read proxyPort c redirected) else none
  | .lost proxyPort port => some { w with inFlight := w.inFlight.erase (proxyPort, port) }
  | .remoteRead proxyPort socket kept =>
    some (w.updateServer proxyPort fun s => remoteRead s socket kept)
  | .clear proxyPort => some (w.updateServer proxyPort Server.clear)
  | .tick elapsed =>
    some { w with
      router := { w.router with now := w.router.now + elapsed }
      servers := fun proxyPort =>
        { w.servers proxyPort with now := (w.servers proxyPort).now + elapsed } }

def start (proxyServers : List ProxyServers) : World where
  router := PacketPath.start proxyServers
  times _ := none
  servers _ := LocalUdpProxy.start
  inFlight := []

def World.HasSession (w : World) (proxyPort port : Port) : Prop :=
  (w.servers proxyPort).proxySockets port ≠ none

def World.Pending (w : World) (port : Port) : Prop := w.router.udpMapper port = true

/-- The proxy has to serve the port: the redirect knows the port and its datagrams go to the
    proxy, or one of them is on its way there. -/
def World.Serves (cfg : Config) (w : World) (flying : List (Port × Port)) (proxyPort port : Port) :
    Prop :=
  w.router.udpEndpoints port ≠ none ∧ RedirectsTo cfg w.router w.times port proxyPort ∨
    (proxyPort, port) ∈ flying

def Consistent (cfg : Config) (w : World) : Prop :=
  ∀ proxyPort port, w.Serves cfg w.inFlight proxyPort port →
    w.HasSession proxyPort port ∨ w.Pending port

/-- The tables and routes that the event leaves send no known port to a proxy that did not have to
    serve it before and has no session for it. -/
def MovesToSessions (cfg : Config) (w w' : World) : Prop :=
  ∀ proxyPort port, w'.Serves cfg w'.inFlight proxyPort port →
    w.Serves cfg w.inFlight proxyPort port ∨ w.HasSession proxyPort port ∨ w.Pending port

/-- The events of the router that change what owns a port, where it goes, or what is taken for
    a reply of a proxy. -/
def movesPorts : PacketPath.Event → Bool
  | .actualize _ _ | .associate _ _ _ _ | .remove _ | .clear | .maintain _ | .cleanupUdp => true
  | _ => false

/-- Taking a port out of the mapper makes a session in a proxy that has to serve the port, and
    every other such proxy has one; a session is removed only if its proxy need not serve its
    port, or the port is in the mapper again; and no change of owners or routes moves a known port
    to a proxy without a session for it. -/
def KeepsSessions (cfg : Config) (w : World) : Event → Prop
  | .serverRead proxyPort c redirected =>
    queries (w.servers proxyPort) c = true →
      ∀ other, w.Serves cfg (w.flyingAfter proxyPort c redirected) other c.sender.port →
        w.HasSession other c.sender.port ∨
          other = proxyPort ∧ ∃ relayStarted, c.setUp = .established relayStarted
  | .clear proxyPort => ∀ port socket, (w.servers proxyPort).proxySockets port = some socket →
      (w.servers proxyPort).isReadyForRemoval socket = true →
        w.Serves cfg w.inFlight proxyPort port → w.Pending port
  | .router e =>
    movesPorts e = true → MovesToSessions cfg w { w with router := next cfg w.router e }
  | .processTimes times => MovesToSessions cfg w { w with times := times }
  | _ => True

section Steps
variable {cfg : Config} {w w' : World} {proxyPort port : Port}

/-- The redirect and the ways of the datagrams are all that `Serves` reads of the router. -/
theorem serves_of_widens {flying flying' : List (Port × Port)} (h : Widens w.router w'.router)
    (htimes : w'.times = w.times)
    (hflying : (proxyPort, port) ∈ flying' → (proxyPort, port) ∈ flying)
    (hserves : w'.Serves cfg flying' proxyPort port) :
    w.Serves cfg flying proxyPort port ∨ w'.Pending port := by
  obtain ⟨hknown, hto⟩ | hin := hserves
  · have hbefore := redirectsTo_of_marked h.routes h.marked
      (fun q hq => Option.isSome_iff_ne_none.mpr (h.known q (Option.isSome_iff_ne_none.mp hq))) hto
    rw [htimes] at hbefore
    obtain hknown | hpending := h.fresh port hknown
    · exact .inl (.inl ⟨hknown, hbefore⟩)
    · exact .inr hpending
  · exact .inl (.inr (hflying hin))

theorem consistent_of_widens (h : Consistent cfg w) (hwidens : Widens w.router w'.router)
    (htimes : w'.times = w.times)
    (hservers : ∀ proxyPort port, w.HasSession proxyPort port → w'.HasSession proxyPort port)
    (hflying : ∀ entry, entry ∈ w'.inFlight → entry ∈ w.inFlight) : Consistent cfg w' := by
  intro proxyPort port hserves
  obtain hbefore | hpending := serves_of_widens hwidens htimes (hflying _) hserves
  · exact (h proxyPort port hbefore).imp (hservers proxyPort port) (hwidens.pending port)
  · exact .inr hpending

theorem consistent_packet (postponed : Bool) (p : UdpPacket) (h : Consistent cfg w) :
    Consistent cfg (w.packet cfg postponed p) := by
  have hwidens := widens_filterUdpPacket cfg w.router postponed w.times p
  intro proxyPort port hserves
  -- the new entry is of a port that was redirected before, or has just entered the mapper
  have hflying : (proxyPort, port) ∈ (w.packet cfg postponed p).inFlight →
      w.Serves cfg w.inFlight proxyPort port ∨ (w.packet cfg postponed p).Pending port := by
    intro hin
    simp only [World.packet] at hin
    split at hin
    · rename_i toPort hto
      rcases List.mem_cons.mp hin with hnew | hold
      · obtain ⟨rfl, rfl⟩ := Prod.mk.inj hnew
        obtain hknown | hpending := known_or_pending_of_toProxy hto
        · exact .inl (.inl ⟨hknown, postponed, p, rfl, hto⟩)
        · exact .inr hpending
      · exact .inl (.inr hold)
    · exact .inl (.inr hin)
  have hbefore : w.Serves cfg w.inFlight proxyPort port ∨
      (w.packet cfg postponed p).Pending port := by
    obtain hknown | hin := hserves
    · have hserves : (w.packet cfg postponed p).Serves cfg [] proxyPort port := .inl hknown
      exact serves_of_widens hwidens rfl (fun h => absurd h List.not_mem_nil) hserves
    · exact hflying hin
  obtain hserves | hpending := hbefore
  · exact (h proxyPort port hserves).imp id (hwidens.pending port)
  · exact .inr hpending

/-- Without a change of the sessions and of the mapper, only newly served ports count. -/
theorem consistent_iff_moves (h : Consistent cfg w) (hservers : w'.servers = w.servers)
    (hmapper : w'.router.udpMapper = w.router.udpMapper) :
    Consistent cfg w' ↔ MovesToSessions cfg w w' := by
  have hsame : ∀ proxyPort port, w'.HasSession proxyPort port ∨ w'.Pending port ↔
      w.HasSession proxyPort port ∨ w.Pending port := by
    intro proxyPort port
    simp only [World.HasSession, World.Pending, hservers, hmapper]
  constructor
  · intro hafter proxyPort port hserves
    exact .inr ((hsame proxyPort port).mp (hafter proxyPort port hserves))
  · intro hmoves proxyPort port hserves
    rw [hsame]
    obtain hbefore | hheld := hmoves proxyPort port hserves
    · exact h proxyPort port hbefore
    · exact hheld

theorem next_udpMapper {r : LocalRouter} {e : PacketPath.Event}
    (h : ∀ postponed times p, e ≠ .udpPacket postponed times p) :
    (next cfg r e).udpMapper = r.udpMapper := by
  cases e with
  | tcpPacket postponed times p => exact (sameUdp_processTcpPacket cfg r postponed times p).udpMapper
  | udpPacket postponed times p => exact absurd rfl (h postponed times p)
  | accept port =>
    simp only [next, acceptTcp]
    split <;> rfl
  | _ => rfl

theorem widens_next {r : LocalRouter} {e : PacketPath.Event}
    (h : ∀ postponed times p, e ≠ .udpPacket postponed times p) (hmoves : movesPorts e = false) :
    Widens r (next cfg r e) := by
  cases e with
  | tcpPacket postponed times p => exact widens_processTcpPacket cfg r postponed times p
  | udpPacket postponed times p => exact absurd rfl (h postponed times p)
  | accept port =>
    simp only [next, acceptTcp]
    split <;> exact widens_lookup (fun _ => rfl) rfl rfl rfl
  | cleanupTcp | tick _ => exact widens_lookup (fun _ => rfl) rfl rfl rfl
  | _ => cases hmoves

theorem consistent_router {e : PacketPath.Event}
    (hudp : ∀ postponed times p, e ≠ .udpPacket postponed times p) (h : Consistent cfg w) :
    Consistent cfg { w with router := next cfg w.router e } ↔
      (movesPorts e = true → MovesToSessions cfg w { w with router := next cfg w.router e }) := by
  cases hmoves : movesPorts e with
  | true =>
    have hiff : Consistent cfg { w with router := next cfg w.router e } ↔
        MovesToSessions cfg w { w with router := next cfg w.router e } :=
      consistent_iff_moves h rfl (next_udpMapper hudp)
    exact hiff.trans ⟨fun h _ => h, fun h => h rfl⟩
  | false =>
    refine ⟨fun _ => nofun, fun _ => ?_⟩
    exact consistent_of_widens h (widens_next hudp hmoves) rfl (fun _ _ => id) fun _ => id

theorem serves_read {c : Completion} {redirected : Bool} {other : Port} :
    (w.read proxyPort c redirected).Serves cfg (w.flyingAfter proxyPort c redirected) other port ↔
      w.Serves cfg (w.flyingAfter proxyPort c redirected) other port := by
  have hto : RedirectsTo cfg (w.read proxyPort c redirected).router w.times port other ↔
      RedirectsTo cfg w.router w.times port other := by
    constructor
    · exact redirectsTo_of_marked rfl (marked_of_objectAt fun _ => rfl) fun _ => id
    · exact redirectsTo_of_marked rfl (marked_of_objectAt fun _ => rfl) fun _ => id
  simp only [World.Serves]
  rw [show (w.read proxyPort c redirected).times = w.times from rfl, hto]
  rfl

theorem hasSession_read {c : Completion} {redirected : Bool} {other : Port} :
    (w.read proxyPort c redirected).HasSession other port ↔ w.HasSession other port ∨
      queries (w.servers proxyPort) c = true ∧ port = c.sender.port ∧ other = proxyPort ∧
        ∃ relayStarted, c.setUp = .established relayStarted := by
  simp only [World.HasSession, World.read, World.updateServer, Function.update_apply]
  split
  · rename_i hsame
    subst hsame
    rw [serverRead_proxySockets]
    simp only [true_and]
  · rename_i hother
    simp only [hother, false_and, and_false, or_false]

theorem serves_flyingAfter {c : Completion} {redirected : Bool} {other : Port}
    (h : w.Serves cfg (w.flyingAfter proxyPort c redirected) other port) :
    w.Serves cfg w.inFlight other port := by
  refine h.imp_right fun hin => ?_
  unfold World.flyingAfter at hin
  split at hin
  · exact List.mem_of_mem_erase hin
  · exact hin

theorem consistent_read {c : Completion} {redirected : Bool} (h : Consistent cfg w) :
    Consistent cfg (w.read proxyPort c redirected) ↔
      KeepsSessions cfg w (.serverRead proxyPort c redirected) := by
  have hmapper : ∀ port, (w.read proxyPort c redirected).Pending port ↔
      w.Pending port ∧ ¬(queries (w.servers proxyPort) c = true ∧ port = c.sender.port) := by
    intro port
    simp only [World.Pending, World.read]
    split
    · rename_i hasked
      rw [Function.update_apply]
      split
      · rename_i hsame
        simp [hasked, hsame]
      · rename_i hother
        simp [hother]
    · rename_i hasked
      simp [hasked]
  constructor
  · intro hafter hasked other hserves
    obtain hsession | hpending := hafter other c.sender.port (serves_read.mpr hserves)
    · exact (hasSession_read.mp hsession).imp_right fun hnew => hnew.2.2
    · exact absurd ⟨hasked, rfl⟩ ((hmapper c.sender.port).mp hpending).2
  · intro hkeeps other port hserves
    replace hserves := serves_read.mp hserves
    by_cases htaken : queries (w.servers proxyPort) c = true ∧ port = c.sender.port
    · obtain ⟨hasked, rfl⟩ := htaken
      refine .inl (hasSession_read.mpr ?_)
      exact (hkeeps hasked other hserves).imp_right fun hnew => ⟨hasked, rfl, hnew⟩
    · obtain hsession | hpending := h other port (serves_flyingAfter hserves)
      · exact .inl (hasSession_read.mpr (.inl hsession))
      · exact .inr ((hmapper port).mpr ⟨hpending, htaken⟩)

theorem hasSession_clear {other : Port} :
    (w.updateServer proxyPort Server.clear).HasSession other port ↔
      ∃ socket, (w.servers other).proxySockets port = some socket ∧
        (other = proxyPort → (w.servers other).isReadyForRemoval socket = false) := by
  simp only [World.HasSession, World.updateServer, Function.update_apply]
  split
  · rename_i hsame
    subst hsame
    rw [Option.ne_none_iff_exists']
    simp [Server.clear, Option.filter_eq_some_iff]
  · rename_i hother
    rw [Option.ne_none_iff_exists']
    simp [hother]

theorem consistent_clear (h : Consistent cfg w) :
    Consistent cfg (w.updateServer proxyPort Server.clear) ↔
      KeepsSessions cfg w (.clear proxyPort) := by
  constructor
  · intro hafter port socket hsocket hready hserves
    obtain hsession | hpending := hafter proxyPort port hserves
    · obtain ⟨other, hother, hkept⟩ := hasSession_clear.mp hsession
      obtain rfl := Option.some.inj (hsocket.symm.trans hother)
      exact absurd hready (by rw [hkept rfl]; exact Bool.false_ne_true)
    · exact hpending
  · intro hkeeps other port hserves
    obtain hsession | hpending := h other port hserves
    · obtain ⟨socket, hsocket⟩ := Option.ne_none_iff_exists'.mp hsession
      by_cases hremoved : other = proxyPort ∧ (w.servers other).isReadyForRemoval socket = true
      · obtain ⟨rfl, hready⟩ := hremoved
        exact .inr (hkeeps port socket hsocket hready hserves)
      · refine .inl (hasSession_clear.mpr ⟨socket, hsocket, fun hsame => ?_⟩)
        exact Bool.eq_false_of_not_eq_true fun hready => hremoved ⟨hsame, hready⟩
    · exact .inr hpending

/-- In a consistent world a step leaves a consistent one precisely when it keeps the sessions. -/
theorem consistent_step {e : Event} (h : Consistent cfg w) (hstep : step cfg w e = some w') :
    Consistent cfg w' ↔ KeepsSessions cfg w e := by
  cases e with
  | packet postponed p =>
    obtain rfl := Option.some.inj hstep
    exact iff_of_true (consistent_packet postponed p h) trivial
  | router e =>
    cases e with
    | udpPacket postponed times p => cases hstep
    | tick elapsed => cases hstep
    | _ =>
      obtain rfl := Option.some.inj hstep
      exact consistent_router nofun h
  | processTimes times =>
    obtain rfl := Option.some.inj hstep
    exact consistent_iff_moves h rfl rfl
  | serverRead proxyPort c redirected =>
    simp only [step] at hstep
    split at hstep
    · obtain rfl := Option.some.inj hstep
      exact consistent_read h
    · cases hstep
  | lost proxyPort port =>
    obtain rfl := Option.some.inj hstep
    refine iff_of_true ?_ trivial
    exact consistent_of_widens h (widens_lookup (fun _ => rfl) rfl rfl rfl) rfl (fun _ _ => id)
      fun _ => List.mem_of_mem_erase
  | remoteRead proxyPort socket kept =>
    obtain rfl := Option.some.inj hstep
    refine iff_of_true ?_ trivial
    refine consistent_of_widens h (widens_lookup (fun _ => rfl) rfl rfl rfl) rfl
      (fun other port hsession => ?_) fun _ => id
    simp only [World.HasSession, World.updateServer, Function.update_apply]
    split
    · rename_i hsame
      subst hsame
      unfold remoteRead
      split <;> exact hsession
    · exact hsession
  | clear proxyPort =>
    obtain rfl := Option.some.inj hstep
    exact consistent_clear h
  | tick elapsed =>
    obtain rfl := Option.some.inj hstep
    refine iff_of_true ?_ trivial
    exact consistent_of_widens h (widens_lookup (fun _ => rfl) rfl rfl rfl) rfl (fun _ _ => id)
      fun _ => id

theorem consistent_start (cfg : Config) (proxyServers : List ProxyServers) :
    Consistent cfg (start proxyServers) := by
  rintro proxyPort port (⟨hknown, -⟩ | hin)
  · exact absurd rfl hknown
  · cases hin

end Steps

/-- The tables of every run agree about the known ports precisely when every read, removal and
    move of the run keeps the sessions. -/
theorem always_consistent_iff (cfg : Config) (proxyServers : List ProxyServers)
    (events : List Event) :
    Always (step cfg) (Consistent cfg) (start proxyServers) events ↔
      Meets (step cfg) (KeepsSessions cfg) (start proxyServers) events :=
  always_iff_meets (I := fun _ => True) (fun _ _ _ _ _ => trivial)
    (fun _ _ _ _ h hstep => consistent_step h hstep) events trivial
    (consistent_start cfg proxyServers)

def appRouted : Config where
  currentProcessId := 1
  excludedList := []
  proxyToNames := [(0, "APP".toList)]
  destinationDirectRules := []

def appDatagram : UdpPacket := ⟨0, 10, 20, 0, 5000, 7000⟩

def idleRun : List Event :=
  [.router (.actualize none (some fun _ => some ⟨⟨"APP".toList, "APP".toList⟩, 7⟩)),
    .packet false appDatagram,
    .serverRead 8081 ⟨true, ⟨10, 5000⟩, [7], .established true, true, true, true, true⟩ true,
    .tick (minutes 6),
    .clear 8081]

theorem idle_session_forgotten : ¬∀ cfg proxyServers events,
    Always (step cfg) (Consistent cfg) (start proxyServers) events := by
  intro h
  have hidle := (h appRouted [⟨none, some 8081⟩] idleRun).2.2.2.2.2
  obtain hsession | hpending := hidle 8081 5000 (.inl ⟨nofun, false, appDatagram, rfl, rfl⟩)
  · exact hsession rfl
  · exact absurd hpending Bool.false_ne_true

end ProxySwitch.UdpSessionTables
