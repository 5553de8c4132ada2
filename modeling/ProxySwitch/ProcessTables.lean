import ProxySwitch.DestinationRules
import ProxySwitch.RouterPidRoutes
import ProxySwitch.TcpLocalRedirect

set_option autoImplicit false

/-!
# The process tables

`process_lookup<ip_address_v4>`: which process owns a TCP session or a UDP endpoint. Each row
holds a process object of its own, whose flags live until the table is rebuilt. Sessions that
no row explains share the default process while they stay in the cache of protected sessions.
-/
namespace ProxySwitch.ProcessTables
open DestinationRules (InAddr)
open RouterPidRoutes (DWORD)
open TcpLocalRedirect

/-- What the resolver reports for a row; the texts are in upper case, as the constructor of
    `network_process` stores them. -/
structure Owner extends DestinationRules.NetworkProcess where
  id : DWORD

structure NetworkProcess extends Owner where
  tcpProxyPort : Option Port := none
  udpProxyPort : Option Port := none
  excluded : Bool := false
  bypassTcp : Bool := false
  bypassUdp : Bool := false

structure IpSession where
  localEnd : IpEndpoint InAddr
  remoteEnd : IpEndpoint InAddr
  deriving DecidableEq

structure ProcessLookup where
  tcpToApp : IpSession → Option NetworkProcess
  udpToApp : IpEndpoint InAddr → Option NetworkProcess
  tcpProtectedApps : IpSession → Option ℕ
  udpProtectedApps : IpEndpoint InAddr → Option ℕ
  defaultProcess : NetworkProcess

inductive ProcessRef
  | tcp (session : IpSession)
  | udp (endpoint : IpEndpoint InAddr)
  | default

def ProcessLookup.store (l : ProcessLookup) (ref : ProcessRef) (process : NetworkProcess) :
    ProcessLookup :=
  match ref with
  | .tcp session => { l with tcpToApp := Function.update l.tcpToApp session (some process) }
  | .udp endpoint => { l with udpToApp := Function.update l.udpToApp endpoint (some process) }
  | .default => { l with defaultProcess := process }

section Protected
variable {κ : Type*}

def protectedAppsCacheTimeout : ℕ := seconds 2

/-- The end of both lookups, after the tables: whether the default process is found. A hit
    refreshes the entry, an expired entry is erased, and `setToDefault` adds a missing one. -/
def lookupProtected [DecidableEq κ] (setToDefault : Bool) (apps : κ → Option ℕ) (now : ℕ)
    (key : κ) : Bool × (κ → Option ℕ) :=
  match apps key with
  | some t =>
    if protectedAppsCacheTimeout < now - t then
      (setToDefault, Function.update apps key (if setToDefault then some now else none))
    else (true, Function.update apps key (some now))
  | none => (setToDefault, if setToDefault then Function.update apps key (some now) else apps)

def expireProtected (apps : κ → Option ℕ) (now : ℕ) : κ → Option ℕ := fun key =>
  (apps key).filter fun t => ¬protectedAppsCacheTimeout < now - t

end Protected

variable (l : ProcessLookup) (now : ℕ)

def lookupProcessForTcp (setToDefault : Bool) (session : IpSession) :
    Option (ProcessRef × NetworkProcess) × ProcessLookup :=
  match l.tcpToApp session with
  | some process => (some (.tcp session, process), l)
  | none =>
    let found := lookupProtected setToDefault l.tcpProtectedApps now session
    (if found.1 then some (.default, l.defaultProcess) else none,
      { l with tcpProtectedApps := found.2 })

/-- UDP endpoints may have the form 0.0.0.0:137. -/
def zeroIpEndpoint (endpoint : IpEndpoint InAddr) : IpEndpoint InAddr := { endpoint with ip := 0 }

def lookupProcessForUdp (setToDefault : Bool) (endpoint : IpEndpoint InAddr) :
    Option (ProcessRef × NetworkProcess) × ProcessLookup :=
  match l.udpToApp endpoint, l.udpToApp (zeroIpEndpoint endpoint) with
  | some process, _ => (some (.udp endpoint, process), l)
  | none, some process => (some (.udp (zeroIpEndpoint endpoint), process), l)
  | none, none =>
    let found := lookupProtected setToDefault l.udpProtectedApps now endpoint
    (if found.1 then some (.default, l.defaultProcess) else none,
      { l with udpProtectedApps := found.2 })

/-- PID 0 is the idle process, PID 4 the system process. -/
def isSystemProcess (pid : DWORD) : Bool := pid == 0 || pid == 4

/-- `make_shared<network_process>` for a row, or no object for a system process. -/
def processEntry (row : Owner) : Option NetworkProcess :=
  if isSystemProcess row.id then none else some { toOwner := row }

/-- The rows that the system reports, the last one of each key; `none` is a failed query,
    which keeps the table. -/
def actualize (tcpRows : Option (IpSession → Option Owner))
    (udpRows : Option (IpEndpoint InAddr → Option Owner)) : ProcessLookup where
  tcpToApp := match tcpRows with
    | some rows => fun session => (rows session).bind processEntry
    | none => l.tcpToApp
  udpToApp := match udpRows with
    | some rows => fun endpoint => (rows endpoint).bind processEntry
    | none => l.udpToApp
  tcpProtectedApps := expireProtected l.tcpProtectedApps now
  udpProtectedApps := expireProtected l.udpProtectedApps now
  defaultProcess := l.defaultProcess

def systemProcess : NetworkProcess where
  name := "SYSTEM".toList
  pathName := "SYSTEM".toList
  id := 0

def emptyLookup : ProcessLookup where
  tcpToApp _ := none
  udpToApp _ := none
  tcpProtectedApps _ := none
  udpProtectedApps _ := none
  defaultProcess := systemProcess

end ProxySwitch.ProcessTables
