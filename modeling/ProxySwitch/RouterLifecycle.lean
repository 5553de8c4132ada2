import Mathlib.Tactic.Linarith
import ProxySwitch.PoolShutdown

set_option autoImplicit false

/-!
# Starting and stopping the router's proxy servers

`start`, `stop` and `add_socks5_proxy` of `socks_local_router` hold `lifecycle_mutex_`, so they run one
after the other; the workers of the completion port and the kernel go on at the same time. Each step is
one access to what they share. The handler that a server registers runs in the phases of `Phase`.
-/
namespace ProxySwitch.RouterLifecycle
open CompletionPort

/-- Before the counter, before the test of `end_server_`, behind it, before the counter is released. -/
inductive Phase
  | entering
  | counted
  | processing
  | leaving
  deriving DecidableEq

/-- Where `start()` or `stop()` of a server stands. -/
inductive Stage
  | idle
  | starting
  | reserved
  | running
  | ending
  | waiting (iterations : ℕ)
  | waited
  | cleared
  deriving DecidableEq

/-- A `tcp_proxy_server` or a `socks5_local_udp_proxy_server`. `serverSocket` tells whether
    `server_socket_` is valid, `proxySockets` whether the session's sockets and their contexts are there;
    the fields behind it record the history. -/
structure Server (w : ℕ) where
  isTcp : Bool
  endServer : Bool
  serverSocket : Bool
  activeIocpOperations : ℤ
  completionKey : BitVec w
  stage : Stage
  proxySockets : Bool
  sessionKey : BitVec w
  gaveUp : Bool
  destroyed : Bool

/-- What a call of the router has still to do. A server that could not be started takes the servers
    of `discards` with it; `drain` is the return of `stop_thread_pool`. -/
inductive Op
  | startPool
  | poolStarted
  | startServer (server : ℕ) (discards : List ℕ)
  | startFilter
  | stopServer (server : ℕ)
  | stopPool
  | drain
  | deactivate
  | register (servers : List ℕ)
  | destroy (server : ℕ)
  deriving DecidableEq

/-- `usedDestroyed` records that a worker has come to a server that was destroyed: what the program does
    from there on is undefined. -/
structure Router (w : ℕ) (ο : Type) where
  port : IoCompletionPort w ο ℕ Phase
  servers : ℕ → Server w
  proxyServers : List ℕ
  nextServer : ℕ
  isActive : Bool
  todo : List Op
  usedDestroyed : Bool

/-- `outcome` is what a system call answers, `posted` whether the first read of a UDP server was posted. -/
inductive Label (w : ℕ) (ο : Type)
  | start
  | stop
  | addSocks5Proxy (tcp udp start : Bool)
  | control (outcome posted : Bool)
  | createThreadFails
  | worker (a : CompletionPort.Label w ο ℕ Phase)
  | handler (i : ℕ) (reposted : Bool)

section Step

variable {w : ℕ} {ο : Type}

def newServer (w : ℕ) (isTcp : Bool) : Server w where
  isTcp := isTcp
  endServer := true
  serverSocket := true
  activeIocpOperations := 0
  completionKey := 0
  stage := .idle
  proxySockets := false
  sessionKey := 0
  gaveUp := false
  destroyed := false

/-- The new objects are destroyed in the reverse order. -/
def addProgram (servers : List ℕ) (start : Bool) : List Op :=
  (if start then servers.map fun v => .startServer v servers.reverse else []) ++ [.register servers]

namespace Router

variable (r : Router w ο)

def setServer (v : ℕ) (server : Server w) : Router w ο :=
  { r with servers := Function.update r.servers v server }

/-- `start()` was a failure: the object is thrown away where the router does not keep it. -/
def startFailed (discards : List ℕ) (rest : List Op) : Router w ο :=
  { r with todo := if discards = [] then rest
      else discards.flatMap fun v => [Op.stopServer v, Op.destroy v] }

/-- The first locked part of `associate_device`, with the handler of server `v`. Where it throws, the
    router's call ends there, with `end_server_` cleared. -/
def reserveKey (v : ℕ) (discards : List ℕ) : Router w ο :=
  let server := r.servers v
  let generated := { r with port := r.port.reserve v }
  match (generateKey r.port.handlers maxAttempts r.port.nextKey).1 with
  | some key => generated.setServer v { server with stage := .reserved, sessionKey := key }
  | none => (generated.setServer v { server with stage := .running }).startFailed discards []

/-- `CreateIoCompletionPort` answers the one call that is under way. -/
def answered (success : Bool) : IoCompletionPort w ο ℕ Phase :=
  match r.port.associating with
  | (key, ioHandler) :: _ => r.port.associated 0 key ioHandler success
  | [] => r.port

/-- `associate_device` returns. -/
def associated (v : ℕ) (discards : List ℕ) (rest : List Op) (success posted : Bool) : Router w ο :=
  let server := r.servers v
  let key := server.sessionKey
  let returned := { r with port := r.answered success }
  if success then
    let running := { server with completionKey := key, stage := .running }
    if server.isTcp then { returned.setServer v running with todo := rest }
    else if posted then
      { returned.setServer v { running with activeIocpOperations := server.activeIocpOperations + 1 } with
        todo := rest }
    else (returned.setServer v { running with endServer := true, stage := .idle }).startFailed discards rest
  else (returned.setServer v { server with endServer := true, stage := .idle }).startFailed discards rest

/-- A TCP server makes a new socket to associate, a UDP server has its server socket only; without one
    the server is started without a key. -/
def startServer (v : ℕ) (discards : List ℕ) (rest : List Op) (outcome posted : Bool) : Router w ο :=
  let server := r.servers v
  match server.stage with
  | .starting =>
    if (if server.isTcp then outcome else server.serverSocket) then r.reserveKey v discards
    else { r.setServer v { server with stage := .running } with todo := rest }
  | .reserved => r.associated v discards rest outcome posted
  | _ =>
    if server.endServer then
      r.setServer v { server with
        endServer := false, stage := .starting, proxySockets := true, gaveUp := false }
    else { r with todo := rest }

def maxWaitIterations : ℕ := 100

/-- The server socket is closed and the handler unregistered. A UDP server closes its sockets before it
    waits, a TCP server afterwards. -/
def unregister (v : ℕ) : Router w ο :=
  let server := r.servers v
  let waiting := { server with
    completionKey := 0
    serverSocket := false
    stage := .waiting 0
    proxySockets := server.isTcp && server.proxySockets }
  { r.setServer v waiting with
    port := if server.completionKey = 0 then r.port else r.port.unregisterHandler server.completionKey }

def stopServer (v : ℕ) (rest : List Op) : Router w ο :=
  let server := r.servers v
  match server.stage with
  | .ending => r.unregister v
  | .waiting iterations =>
    r.setServer v (
      if 0 < server.activeIocpOperations then
        if maxWaitIterations < iterations + 1 then { server with stage := .waited, gaveUp := true }
        else { server with stage := .waiting (iterations + 1) }
      else { server with stage := .waited })
  | .waited => { r.setServer v { server with stage := .cleared, proxySockets := false } with todo := rest }
  | _ =>
    if server.endServer then { r with todo := rest }
    else r.setServer v { server with endServer := true, stage := .ending }

def stopServers : List Op := r.proxyServers.map Op.stopServer

/-- All workers have been joined. -/
def drained (server : Server w) : Server w :=
  if server.stage = .cleared then { server with stage := .idle } else server

section Control

variable (concurrentThreads : ℕ)

def control (op : Op) (rest : List Op) (outcome posted : Bool) : Option (Router w ο) :=
  match op with
  | .startPool =>
    (CompletionPort.step concurrentThreads .entering r.port .startThreadPool).map fun port =>
      { r with port, todo := rest }
  | .poolStarted => if r.port.caller = .idle then some { r with todo := rest } else none
  | .startServer v discards => some (r.startServer v discards rest outcome posted)
  | .startFilter => some { r with todo := if outcome then rest
      else r.stopServers ++ [.stopPool, .drain, .deactivate] }
  | .stopServer v => some (r.stopServer v rest)
  | .stopPool =>
    (CompletionPort.step concurrentThreads .entering r.port .stopThreadPool).map fun port =>
      { r with port, todo := rest }
  | .drain =>
    if r.port.caller = .idle then
      some { r with servers := fun v => drained (r.servers v), todo := rest }
    else none
  | .deactivate => some { r with isActive := false, todo := rest }
  | .register servers => some { r with proxyServers := r.proxyServers ++ servers, todo := rest }
  | .destroy v => some { r.setServer v { r.servers v with destroyed := true } with todo := rest }

end Control

/-- Worker `i` is done with its turn in the handler of `v`. -/
def turn (v : ℕ) (operations : ℤ) (i : ℕ) (p : Worker w ο ℕ Phase) : Router w ο :=
  { r.setServer v { r.servers v with activeIocpOperations := operations } with port := r.port.goto i p }

/-- The next turn of the handler that worker `i` calls. A UDP server counts the reads of its own socket
    when they are posted, and every completion when the handler returns. -/
def handler (i : ℕ) (reposted : Bool) : Option (Router w ο) :=
  match r.port.threads[i]? with
  | some (.calling v c phase) =>
    let server := r.servers v
    let operations := server.activeIocpOperations
    let admitted := if server.endServer then Phase.leaving else Phase.processing
    if server.destroyed then some { r with usedDestroyed := true }
    else match phase with
    | .entering =>
      if server.isTcp then some (r.turn v (operations + 1) i (.calling v c .counted))
      else some (r.turn v operations i (.calling v c admitted))
    | .counted => some (r.turn v operations i (.calling v c admitted))
    | .processing =>
      if !server.isTcp && reposted && !server.endServer then
        some (r.turn v (operations + 1) i (.calling v c .leaving))
      else some (r.turn v operations i (.calling v c .leaving))
    | .leaving => some (r.turn v (operations - 1) i .checking)
  | _ => none

def startProgram : List Op :=
  [.startPool, .poolStarted] ++ r.proxyServers.map (fun v => .startServer v []) ++ [.startFilter]

def stopProgram : List Op := r.stopServers ++ [.stopPool, .drain]

def newServers (tcp udp : Bool) : List ℕ :=
  (if tcp then [r.nextServer] else []) ++ (if udp then [r.nextServer + 1] else [])

/-- A call of the router, once `lifecycle_mutex_` is free. -/
def call (isActive : Bool) (todo : List Op) : Option (Router w ο) :=
  if r.todo = [] then some { r with isActive, todo } else none

end Router

/-- What the workers do on their own, the kernel's part and that of the pool's caller included. -/
def isWorkers {η φ : Type} : CompletionPort.Label w ο η φ → Bool
  | .createThread | .stopThread _ | .join | .check _ | .dequeue _ | .timeout _ | .examine _ | .look _
  | .post _ | .associateDeviceWithKey _ | .deviceAssociatedWithKey _ _ => true
  | _ => false

variable (concurrentThreads : ℕ)

def step (r : Router w ο) : Label w ο → Option (Router w ο)
  | .start => if r.isActive then r.call true [] else r.call true r.startProgram
  | .stop => if r.isActive then r.call false r.stopProgram else r.call false []
  | .addSocks5Proxy tcp udp start =>
    let servers := Function.update (Function.update r.servers r.nextServer (newServer w true))
      (r.nextServer + 1) (newServer w false)
    (r.call r.isActive (addProgram (r.newServers tcp udp) start)).map fun called =>
      { called with servers, nextServer := r.nextServer + 2 }
  | .control outcome posted =>
    match r.todo with
    | op :: rest => r.control concurrentThreads op rest outcome posted
    | [] => none
  | .createThreadFails =>
    (CompletionPort.step concurrentThreads .entering r.port .createThreadFails).map fun port =>
      { r with port, todo := [.poolStarted] }
  | .worker a =>
    if isWorkers a then
      (CompletionPort.step concurrentThreads .entering r.port a).map fun port => { r with port }
    else none
  | .handler i reposted => r.handler i reposted

def initial (w : ℕ) (ο : Type) : Router w ο where
  port := CompletionPort.initial w ο ℕ Phase
  servers := fun _ => newServer w true
  proxyServers := []
  nextServer := 0
  isActive := false
  todo := []
  usedDestroyed := false

end Step

end ProxySwitch.RouterLifecycle
