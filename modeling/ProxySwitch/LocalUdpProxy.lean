import ProxySwitch.DestinationRules
import ProxySwitch.TcpLocalRedirect
import ProxySwitch.TransitionRuns

set_option autoImplicit false

/-!
# The local UDP proxy

`socks5_local_udp_proxy_server` and its sessions, `socks5_udp_proxy_socket`. The completion
handler and the cleanup thread run under `lock_`, so each is one step. The server reads into one
buffer with one context, which serves every datagram.
-/
namespace ProxySwitch.LocalUdpProxy
open DestinationRules (InAddr)
open TcpLocalRedirect (IpEndpoint Port minutes)

abbrev Datagram := List UInt8

/-- A session; `localAddress` is `local_address_sa_`, the sender it was made for. -/
structure UdpProxySocket where
  localAddress : IpEndpoint InAddr
  timestamp : ℕ
  readyForRemoval : Bool
  deriving DecidableEq

/-- `sockets` are the sessions ever made, by number: one that `proxySockets` has lost lives on
    while a context points to it. `proxySocketPtr` and `wsaBuf` are fields of
    `server_io_context_`. -/
structure Server where
  now : ℕ
  sockets : List UdpProxySocket
  proxySockets : Port → Option ℕ
  proxySocketPtr : Option ℕ
  wsaBuf : Option Datagram
  reading : Bool
  crashed : Bool

/-- The ways through `connect_to_remote_host` for a port without a session. `threw` leaves the
    handler; `relayStarted` is what `start` returns, which nobody asks for. -/
inductive SetUp
  | connectFailed
  | associateFailed
  | socketFailed
  | bindFailed
  | udpConnectFailed
  | threw
  | initializeFailed
  | established (relayStarted : Bool)
  deriving DecidableEq

structure Completion where
  status : Bool
  sender : IpEndpoint InAddr
  bytes : Datagram
  setUp : SetUp
  packetAllocated : Bool := true
  contextAllocated : Bool := true
  sendAccepted : Bool := true
  readPosted : Bool := true

/-- What the handler did with a datagram: the session pointer it processed the datagram
    through, what `WSASend` took, and the sessions it closed. -/
structure Outcome where
  server : Server
  processed : Option (Option ℕ) := none
  sent : List (ℕ × Datagram) := []
  closed : List ℕ := []

namespace Server

def updateSocket (s : Server) (socket : ℕ) (f : UdpProxySocket → UdpProxySocket) : Server :=
  { s with sockets := s.sockets.modify socket f }

def closeClient (s : Server) (socket : ℕ) : Server :=
  s.updateSocket socket fun x => { x with readyForRemoval := true }

def touch (s : Server) (socket : ℕ) : Server :=
  s.updateSocket socket fun x => { x with timestamp := s.now }

def emplace (s : Server) (sender : IpEndpoint InAddr) (relayStarted : Bool) : Server :=
  { s with
    sockets := s.sockets ++ [⟨sender, s.now, !relayStarted⟩]
    proxySockets := Function.update s.proxySockets sender.port (some s.sockets.length)
    proxySocketPtr := some s.sockets.length }

def isReadyForRemoval (s : Server) (socket : ℕ) : Bool :=
  match s.sockets[socket]? with
  | some x => x.readyForRemoval || minutes 5 < s.now - x.timestamp
  | none => false

/-- One round of `clear_thread`. -/
def clear (s : Server) : Server :=
  { s with proxySockets := fun port => (s.proxySockets port).filter fun x => !s.isReadyForRemoval x }

end Server

/-- `none` is an exception that leaves the handler. -/
def connectToRemoteHost (s : Server) (sender : IpEndpoint InAddr) (setUp : SetUp) :
    Option (Bool × Server) :=
  match s.proxySockets sender.port with
  | some socket => some (true, { s with proxySocketPtr := some socket })
  | none =>
    match setUp with
    | .threw => none
    | .established relayStarted => some (true, s.emplace sender relayStarted)
    | _ => some (false, s)

def crash (s : Server) (processed : Option ℕ) : Outcome :=
  ⟨{ s with crashed := true }, some processed, [], []⟩

/-- `process_receive_buffer_complete` of a session for the server's context. -/
def processReceiveBufferComplete (s : Server) (c : Completion) (socket : ℕ) : Outcome :=
  let s := s.touch socket
  match s.wsaBuf with
  | some bytes =>
    let s := { s with wsaBuf := none }
    if !c.contextAllocated then ⟨s, some (some socket), [], []⟩
    else if c.sendAccepted then ⟨s, some (some socket), [(socket, bytes)], []⟩
    else ⟨s.closeClient socket, some (some socket), [], [socket]⟩
  | none =>
    -- `WSASend` refuses the null buffer, and `free` reads through it
    if c.contextAllocated then ⟨s.closeClient socket, some (some socket), [], [socket]⟩
    else crash s (some socket)

def dispatch (s : Server) (c : Completion) : Outcome :=
  match s.proxySocketPtr with
  | some socket => processReceiveBufferComplete s c socket
  | none => crash s none

def postRead (c : Completion) (o : Outcome) : Outcome :=
  { o with server := { o.server with reading := c.readPosted && !o.server.crashed } }

def serverRead (s : Server) (c : Completion) : Outcome :=
  let s := { s with reading := false }
  if !c.status then postRead c ⟨s, none, [], []⟩
  else if c.bytes = [] then postRead c (dispatch s c)
  else
    match connectToRemoteHost s c.sender c.setUp with
    | none => ⟨s, none, [], []⟩
    | some (false, s) => postRead c ⟨s, none, [], []⟩
    | some (true, s) =>
      if c.packetAllocated then postRead c (dispatch { s with wsaBuf := some c.bytes } c)
      else postRead c ⟨{ s with wsaBuf := none }, none, [], []⟩

/-- A session's own read from the proxy has completed; `kept` is false where a send to the client
    or the next read fails. -/
def remoteRead (s : Server) (socket : ℕ) (kept : Bool) : Server :=
  if kept then s.touch socket else (s.touch socket).closeClient socket

inductive Event
  | serverRead (c : Completion)
  | remoteRead (socket : ℕ) (kept : Bool)
  | clear
  | tick (elapsed : ℕ)

def step (s : Server) : Event → Option Server
  | .serverRead c => if s.reading then some (serverRead s c).server else none
  | .remoteRead socket kept => if s.crashed then none else some (remoteRead s socket kept)
  | .clear => if s.crashed then none else some s.clear
  | .tick elapsed => some { s with now := s.now + elapsed }

/-- After `start`. -/
def start : Server where
  now := 0
  sockets := []
  proxySockets _ := none
  proxySocketPtr := none
  wsaBuf := none
  reading := true
  crashed := false

section Fields
variable (s : Server) (socket : ℕ) (f : UdpProxySocket → UdpProxySocket)

@[simp] theorem updateSocket_proxySockets :
    (s.updateSocket socket f).proxySockets = s.proxySockets := rfl
@[simp] theorem updateSocket_wsaBuf : (s.updateSocket socket f).wsaBuf = s.wsaBuf := rfl
@[simp] theorem touch_proxySockets : (s.touch socket).proxySockets = s.proxySockets := rfl
@[simp] theorem touch_wsaBuf : (s.touch socket).wsaBuf = s.wsaBuf := rfl
@[simp] theorem closeClient_proxySockets :
    (s.closeClient socket).proxySockets = s.proxySockets := rfl
@[simp] theorem closeClient_wsaBuf : (s.closeClient socket).wsaBuf = s.wsaBuf := rfl

end Fields

@[simp] theorem dispatch_proxySockets (s : Server) (c : Completion) :
    (dispatch s c).server.proxySockets = s.proxySockets := by
  unfold dispatch
  split
  · unfold processReceiveBufferComplete crash
    dsimp only
    split <;> split_ifs <;> rfl
  · rfl

/-- The read asks `query_remote_peer_`, for want of a session. -/
def queries (s : Server) (c : Completion) : Bool :=
  c.status && c.bytes ≠ [] && (s.proxySockets c.sender.port).isNone

theorem serverRead_proxySockets (s : Server) (c : Completion) (port : Port) :
    (serverRead s c).server.proxySockets port ≠ none ↔ s.proxySockets port ≠ none ∨
      queries s c = true ∧ port = c.sender.port ∧
        ∃ relayStarted, c.setUp = .established relayStarted := by
  unfold serverRead queries
  cases c.status with
  | false => simp [postRead]
  | true =>
    by_cases hempty : c.bytes = []
    · simp [hempty, postRead]
    · simp only [Bool.not_true, Bool.false_eq_true, if_false, hempty, ne_eq, not_false_eq_true,
        decide_true, Bool.and_self, Bool.true_and, connectToRemoteHost]
      cases hsession : s.proxySockets c.sender.port with
      | some socket =>
        simp only [Option.isNone_some, Bool.false_eq_true, false_and, or_false]
        split_ifs <;> simp [postRead]
      | none =>
        cases c.setUp with
        | established relayStarted =>
          have htable : Function.update s.proxySockets c.sender.port (some s.sockets.length) port ≠
              none ↔ s.proxySockets port ≠ none ∨ port = c.sender.port := by
            rw [Function.update_apply]
            split <;> simp [*]
          split_ifs <;> simpa [postRead, Server.emplace] using htable
        | _ => simp [postRead]

def Keyed (s : Server) : Prop :=
  ∀ port socket, s.proxySockets port = some socket →
    ∃ x, s.sockets[socket]? = some x ∧ x.localAddress.port = port

section Keyed
variable {s : Server}

theorem keyed_updateSocket (h : Keyed s) (socket : ℕ) {f : UdpProxySocket → UdpProxySocket}
    (hf : ∀ x, (f x).localAddress = x.localAddress) : Keyed (s.updateSocket socket f) := by
  intro port other hport
  obtain ⟨x, hx, rfl⟩ := h port other hport
  refine ⟨if socket = other then f x else x, ?_, ?_⟩
  · simp only [Server.updateSocket, List.getElem?_modify, hx, Option.map_eq_map, Option.map_some]
  · split
    · rw [hf]
    · rfl

theorem keyed_touch (h : Keyed s) (socket : ℕ) : Keyed (s.touch socket) :=
  keyed_updateSocket h socket fun _ => rfl

theorem keyed_closeClient (h : Keyed s) (socket : ℕ) : Keyed (s.closeClient socket) :=
  keyed_updateSocket h socket fun _ => rfl

theorem keyed_emplace (h : Keyed s) (sender : IpEndpoint InAddr) (relayStarted : Bool) :
    Keyed (s.emplace sender relayStarted) := by
  intro port socket hport
  by_cases hsame : port = sender.port
  · subst hsame
    simp only [Server.emplace, Function.update_self, Option.some.injEq] at hport
    subst hport
    exact ⟨⟨sender, s.now, !relayStarted⟩, by simp [Server.emplace], rfl⟩
  · simp only [Server.emplace, Function.update_of_ne hsame] at hport
    obtain ⟨x, hx, hkey⟩ := h port socket hport
    refine ⟨x, ?_, hkey⟩
    simp only [Server.emplace]
    rw [List.getElem?_append_left (List.getElem?_eq_some_iff.mp hx).1]
    exact hx

theorem keyed_clear (h : Keyed s) : Keyed s.clear := by
  intro port socket hport
  exact h port socket (Option.mem_filter_iff.mp hport).1

theorem keyed_connectToRemoteHost {sender : IpEndpoint InAddr} {setUp : SetUp} {found : Bool}
    {next : Server} (h : Keyed s) (hconnect : connectToRemoteHost s sender setUp = some (found, next)) :
    Keyed next := by
  unfold connectToRemoteHost at hconnect
  cases hsession : s.proxySockets sender.port with
  | some socket =>
    simp only [hsession, Option.some.injEq, Prod.mk.injEq] at hconnect
    obtain ⟨rfl, rfl⟩ := hconnect
    exact h
  | none =>
    simp only [hsession] at hconnect
    cases setUp with
    | threw => cases hconnect
    | established relayStarted =>
      simp only [Option.some.injEq, Prod.mk.injEq] at hconnect
      obtain ⟨rfl, rfl⟩ := hconnect
      exact keyed_emplace h sender relayStarted
    | _ =>
      simp only [Option.some.injEq, Prod.mk.injEq] at hconnect
      obtain ⟨rfl, rfl⟩ := hconnect
      exact h

/-- A connected sender has the session in the table that the context points to. -/
theorem connectToRemoteHost_ptr {sender : IpEndpoint InAddr} {setUp : SetUp} {next : Server}
    (h : connectToRemoteHost s sender setUp = some (true, next)) :
    ∃ socket, next.proxySocketPtr = some socket ∧ next.proxySockets sender.port = some socket := by
  unfold connectToRemoteHost at h
  cases hsession : s.proxySockets sender.port with
  | some socket =>
    simp only [hsession, Option.some.injEq, Prod.mk.injEq, true_and] at h
    subst h
    exact ⟨socket, rfl, hsession⟩
  | none =>
    simp only [hsession] at h
    cases setUp with
    | established relayStarted =>
      simp only [Option.some.injEq, Prod.mk.injEq, true_and] at h
      subst h
      exact ⟨s.sockets.length, rfl, Function.update_self _ _ _⟩
    | threw => cases h
    | _ => simp at h

theorem connectToRemoteHost_frame {sender : IpEndpoint InAddr} {setUp : SetUp} {found : Bool}
    {next : Server} (h : connectToRemoteHost s sender setUp = some (found, next)) :
    next.wsaBuf = s.wsaBuf ∧ next.crashed = s.crashed ∧ next.reading = s.reading := by
  unfold connectToRemoteHost at h
  cases hsession : s.proxySockets sender.port with
  | some socket =>
    simp only [hsession, Option.some.injEq, Prod.mk.injEq] at h
    rw [← h.2]
    exact ⟨rfl, rfl, rfl⟩
  | none =>
    simp only [hsession] at h
    cases setUp with
    | threw => cases h
    | _ =>
      obtain ⟨-, rfl⟩ := Prod.mk.inj (Option.some.inj h)
      exact ⟨rfl, rfl, rfl⟩

theorem connectToRemoteHost_crashed {sender : IpEndpoint InAddr} {setUp : SetUp} {found : Bool}
    {next : Server} (h : connectToRemoteHost s sender setUp = some (found, next)) :
    next.crashed = s.crashed :=
  (connectToRemoteHost_frame h).2.1

end Keyed

end ProxySwitch.LocalUdpProxy
