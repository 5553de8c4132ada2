import ProxySwitch.RouterPidRoutes
import ProxySwitch.RuntimeStrings

set_option autoImplicit false

/-!
# The session route server

The registry of `SessionRouteServer` and its four message handlers. Each handler runs
under `_sessionLock` and is one step; between two handlers the router's resolver thread
may sweep the PID table.
-/
namespace ProxySwitch.SessionRouteServer
open RouterPidRoutes RuntimeStrings

structure SessionState where
  endpoint : String := ""
  proxyHandle : IntPtr := 0
  pids : Finset DWORD := ∅
  deriving DecidableEq

/-- `proxyMap` is set once at startup; `router` is the native router behind `_socksify`. -/
structure Server where
  proxyMap : String → Option IntPtr
  sessions : String → Option SessionState
  router : Router

def Server.setSession (s : Server) (id : String) (state : Option SessionState) : Server :=
  { s with sessions := Function.update s.sessions id state }

def Server.setRouter (s : Server) (router : Router) : Server := { s with router := router }

section Fields
variable (s : Server) (id : String) (state : Option SessionState) (router : Router)

@[simp] theorem setSession_proxyMap : (s.setSession id state).proxyMap = s.proxyMap := rfl
@[simp] theorem setSession_router : (s.setSession id state).router = s.router := rfl
@[simp] theorem setRouter_proxyMap : (s.setRouter router).proxyMap = s.proxyMap := rfl
@[simp] theorem setRouter_sessions : (s.setRouter router).sessions = s.sessions := rfl
@[simp] theorem setRouter_router : (s.setRouter router).router = router := rfl
@[simp] theorem setSession_self : (s.setSession id state).sessions id = state :=
  Function.update_self _ _ _
@[simp] theorem setSession_of_ne {id' : String} (h : id' ≠ id) :
    (s.setSession id state).sessions id' = s.sessions id' := Function.update_of_ne h _ _

end Fields

/-- An authorised request. A field that is missing or null is read as the empty string. -/
inductive Message
  | createSession (sessionId endpoint : String)
  | addPid (sessionId : String) (pid : DWORD) (createdAtFileTime : BitVec 64)
  | removePid (sessionId : String) (pid : DWORD)
  | closeSession (sessionId : String)
  deriving DecidableEq

structure Reply where
  success : Bool
  error : Option String := none
  deriving DecidableEq

def Message.sessionId : Message → String
  | .createSession id _ | .addPid id _ _ | .removePid id _ | .closeSession id => id

def blank (s : String) : Bool := isNullOrWhiteSpace s.toList

def doCreateSession (s : Server) (sessionId endpoint : String) : Server × Reply :=
  if blank sessionId then (s, ⟨false, "missing sessionId"⟩)
  else if blank endpoint then (s, ⟨false, "missing endpoint"⟩)
  else match s.proxyMap endpoint with
    | none => (s, ⟨false, "proxy endpoint not found"⟩)
    | some handle =>
      -- an open session of this id is replaced, its `Pids` with it
      (s.setSession sessionId (some { endpoint := endpoint, proxyHandle := handle }), ⟨true, none⟩)

def doAddPid (s : Server) (sessionId : String) (pid : DWORD) (createdAtFileTime : BitVec 64)
    (stored : Bool) : Server × Reply :=
  if blank sessionId then (s, ⟨false, "missing sessionId"⟩)
  else match s.sessions sessionId with
    | none => (s, ⟨false, "session not found"⟩)
    | some state =>
      match associateProcessIdToProxy s.router pid (sizeT state.proxyHandle)
        (splitFileTime createdAtFileTime) stored with
      | (true, router) =>
        ((s.setRouter router).setSession sessionId
          (some { state with pids := insert pid state.pids }), ⟨true, none⟩)
      | (false, router) => (s.setRouter router, ⟨false, none⟩)

def doRemovePid (s : Server) (sessionId : String) (pid : DWORD) : Server × Reply :=
  if blank sessionId then (s, ⟨false, "missing sessionId"⟩)
  else match s.sessions sessionId with
    | none => (s, ⟨false, "session not found"⟩)
    | some state =>
      -- the router is told before, and whether or not, `Pids` holds the PID
      let (ok, router) := removeProcessId s.router pid
      ((s.setRouter router).setSession sessionId
        (some { state with pids := state.pids.erase pid }), ⟨ok, none⟩)

def doCloseSession (s : Server) (sessionId : String) : Server × Reply :=
  if blank sessionId then (s, ⟨false, "missing sessionId"⟩)
  else match s.sessions sessionId with
    | none => (s, ⟨false, "session not found"⟩)
    | some state =>
      ((s.setRouter (removeProcessIds s.router state.pids)).setSession sessionId none, ⟨true, none⟩)

/-- The dispatch of `ProcessMessage` after the token check. -/
def processMessage (s : Server) (m : Message) (stored : Bool) : Server × Reply :=
  match m with
  | .createSession id endpoint => doCreateSession s id endpoint
  | .addPid id pid createdAt => doAddPid s id pid createdAt stored
  | .removePid id pid => doRemovePid s id pid
  | .closeSession id => doCloseSession s id

/-- What can happen to the server: a request of any client, or a sweep of the router
    against the processes that then run. -/
inductive Event
  | request (m : Message) (stored : Bool)
  | sweep (times : ProcessTimes)

def step (s : Server) : Event → Option Server
  | .request m stored => some (processMessage s m stored).1
  | .sweep times => some (s.setRouter (cleanupStalePidRoutes s.router times))

def init (proxyMap : String → Option IntPtr) (proxyServers : List ProxyServers) : Server where
  proxyMap := proxyMap
  sessions := fun _ => none
  router := { proxyServers := proxyServers, pidToProxy := fun _ => none }

section Cases
variable (s : Server) (id endpoint : String) (pid : DWORD)

theorem doCreateSession_cases :
    (∃ e, doCreateSession s id endpoint = (s, ⟨false, some e⟩)) ∨
    ∃ handle, s.proxyMap endpoint = some handle ∧ blank id = false ∧
      doCreateSession s id endpoint =
        (s.setSession id (some { endpoint := endpoint, proxyHandle := handle }), ⟨true, none⟩) := by
  unfold doCreateSession
  split
  · exact .inl ⟨_, rfl⟩
  split
  · exact .inl ⟨_, rfl⟩
  split
  · exact .inl ⟨_, rfl⟩
  · rename_i hid _ _ handle hmap
    exact .inr ⟨handle, hmap, Bool.not_eq_true _ ▸ hid, rfl⟩

theorem doAddPid_cases (createdAt : BitVec 64) (stored : Bool) :
    (∃ e, doAddPid s id pid createdAt stored = (s, ⟨false, e⟩)) ∨
    ∃ state, s.sessions id = some state ∧ blank id = false ∧
      doAddPid s id pid createdAt stored =
        ((s.setRouter (s.router.setRoute pid
            (some ⟨sizeT state.proxyHandle, splitFileTime createdAt⟩))).setSession id
          (some { state with pids := insert pid state.pids }), ⟨true, none⟩) := by
  unfold doAddPid
  split
  · exact .inl ⟨_, rfl⟩
  rename_i hid
  cases hstate : s.sessions id with
  | none => exact .inl ⟨_, rfl⟩
  | some state =>
    rcases associateProcessIdToProxy_cases s.router pid (sizeT state.proxyHandle)
      (splitFileTime createdAt) stored with h | ⟨_, h⟩
    · exact .inl ⟨none, by simp only [h]; rfl⟩
    · exact .inr ⟨state, rfl, Bool.not_eq_true _ ▸ hid, by simp only [h]⟩

theorem doRemovePid_cases :
    (∃ e, doRemovePid s id pid = (s, ⟨false, some e⟩) ∧
      (blank id = true ∨ s.sessions id = none)) ∨
    ∃ state, s.sessions id = some state ∧ blank id = false ∧
      doRemovePid s id pid =
        ((s.setRouter (s.router.setRoute pid none)).setSession id
          (some { state with pids := state.pids.erase pid }), ⟨true, none⟩) := by
  unfold doRemovePid
  split
  · exact .inl ⟨_, rfl, .inl ‹_›⟩
  rename_i hid
  cases hstate : s.sessions id with
  | none => exact .inl ⟨_, rfl, .inr rfl⟩
  | some state => exact .inr ⟨state, rfl, Bool.not_eq_true _ ▸ hid, rfl⟩

theorem doCloseSession_cases :
    (∃ e, doCloseSession s id = (s, ⟨false, some e⟩) ∧
      (blank id = true ∨ s.sessions id = none)) ∨
    ∃ state, s.sessions id = some state ∧ blank id = false ∧
      doCloseSession s id =
        ((s.setRouter (removeProcessIds s.router state.pids)).setSession id none,
          ⟨true, none⟩) := by
  unfold doCloseSession
  split
  · exact .inl ⟨_, rfl, .inl ‹_›⟩
  rename_i hid
  cases hstate : s.sessions id with
  | none => exact .inl ⟨_, rfl, .inr rfl⟩
  | some state => exact .inr ⟨state, rfl, Bool.not_eq_true _ ▸ hid, rfl⟩

end Cases

theorem processMessage_sessions_of_ne (s : Server) (m : Message) (stored : Bool) {id : String}
    (h : id ≠ m.sessionId) : (processMessage s m stored).1.sessions id = s.sessions id := by
  cases m with
  | createSession a endpoint =>
    rcases doCreateSession_cases s a endpoint with ⟨e, he⟩ | ⟨handle, _, _, he⟩ <;>
      simp [processMessage, he, show id ≠ a from h]
  | addPid a pid createdAt =>
    rcases doAddPid_cases s a pid createdAt stored with ⟨e, he⟩ | ⟨state, _, _, he⟩ <;>
      simp [processMessage, he, show id ≠ a from h]
  | removePid a pid =>
    rcases doRemovePid_cases s a pid with ⟨e, he, _⟩ | ⟨state, _, _, he⟩ <;>
      simp [processMessage, he, show id ≠ a from h]
  | closeSession a =>
    rcases doCloseSession_cases s a with ⟨e, he, _⟩ | ⟨state, _, _, he⟩ <;>
      simp [processMessage, he, show id ≠ a from h]

end ProxySwitch.SessionRouteServer
