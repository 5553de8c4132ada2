import Mathlib.Data.List.Nodup
import Mathlib.Data.List.Perm.Basic
import ProxySwitch.TransitionRuns

set_option autoImplicit false

/-!
# The pending-connection table

The accept thread and the connect thread of `tcp_proxy_server`, with the sessions they
lead to, up to the server's stop. What a thread does between two uses of shared state
is one step, and what it does under `lock_` is one step. Every socket has its own number.
-/
namespace ProxySwitch.PendingConnections
open TransitionRuns

abbrev SOCKET := ℕ

/-- An entry of `sock_array_events_`, its event left out. `none` is `INVALID_SOCKET`. -/
structure Entry where
  localSocket : SOCKET
  remoteSocket : Option SOCKET
  deriving DecidableEq

structure Session where
  localSocket : Option SOCKET
  remoteSocket : Option SOCKET
  deriving DecidableEq

/-- What the accept thread has in its hands: a client, a client and the bound remote socket,
    or a client whose entry is in the table and whose `connect` comes next. -/
inductive Accepting
  | idle
  | accepted (client : SOCKET)
  | prepared (client remote : SOCKET)
  | registered (client remote : SOCKET)
  deriving DecidableEq

/-- The `FD_CONNECT` event of a remote socket is signaled when its `connect` has ended, with
    success or failure. -/
inductive ConnectState
  | fresh
  | inProgress
  | signaled
  deriving DecidableEq

/-- `waitEvents` is the connect thread's copy of the table, `abandoned` are the sockets of sessions
    that only their own operations still refer to, `accepted` and `closed` record what
    `WSAAccept` returned and what `closesocket` was called with. -/
structure Server where
  sockArrayEvents : List Entry
  waitEvents : List Entry
  proxySockets : List Session
  abandoned : List Entry
  accepting : Accepting
  connectState : SOCKET → ConnectState
  nextSocket : SOCKET
  accepted : List SOCKET
  closed : List SOCKET

def connectionsArraySize : ℕ := 64

/-- The ways through `connect_to_remote_host` up to the lock. -/
inductive Prepare
  | noRemotePort
  | socketFailed
  | bindFailed
  | bound
  deriving DecidableEq

inductive Register
  | createEventFailed
  | eventSelectFailed
  | registered
  deriving DecidableEq

inductive Connect
  | failed
  | wouldBlock
  | completed
  deriving DecidableEq

/-- The set-up of a session by the connect thread, which an exception may break off. If the
    contexts do not refer to the session yet, its destructor closes both sockets; if it has
    posted operations, they keep it. -/
inductive Setup
  | failed
  | destroyed
  | abandoned
  | established
  deriving DecidableEq

/-- Which `WSARecv` of `start_data_relay` fails at once. -/
inductive Relay
  | started
  | localFailed
  | remoteFailed
  deriving DecidableEq

inductive Event
  | accept
  | prepare (result : Prepare)
  | register (result : Register)
  | connect (result : Connect)
  | connectDone (remote : SOCKET)
  | buildWaitEvents
  | connected (index : ℕ) (result : Setup)
  | startDataRelay (index : ℕ) (result : Relay)
  | closeClient (index : ℕ)
  | closeAbandoned (index : ℕ)
  | clear
  deriving DecidableEq

def Server.closesockets (s : Server) (sockets : List SOCKET) : Server :=
  { s with closed := sockets ++ s.closed }

/-- `connect_to_remote_host` returned false: the accept thread closes the client. -/
def Server.reject (s : Server) (client : SOCKET) (remote : List SOCKET) : Server :=
  { s.closesockets (client :: remote) with accepting := .idle }

def prepare (s : Server) (client : SOCKET) (result : Prepare) : Server :=
  if connectionsArraySize ≤ s.sockArrayEvents.length then s.reject client []
  else match result with
    | .noRemotePort | .socketFailed => s.reject client []
    | .bindFailed => { s with nextSocket := s.nextSocket + 1 }.reject client [s.nextSocket]
    | .bound =>
      { s with nextSocket := s.nextSocket + 1, accepting := .prepared client s.nextSocket }

def register (s : Server) (client remote : SOCKET) (result : Register) : Server :=
  if connectionsArraySize - 1 ≤ s.sockArrayEvents.length then s.reject client [remote]
  else match result with
    -- the entry just pushed is popped again under the lock
    | .createEventFailed | .eventSelectFailed => s.reject client [remote]
    | .registered =>
      { s with
        sockArrayEvents := s.sockArrayEvents ++ [⟨client, some remote⟩]
        accepting := .registered client remote }

def Server.setConnectState (s : Server) (remote : SOCKET) (state : ConnectState) : Server :=
  { s with connectState := Function.update s.connectState remote state }

def connect (s : Server) (client remote : SOCKET) (result : Connect) : Server :=
  match result with
  -- the entry stays in `sock_array_events_`
  | .failed => s.reject client [remote]
  | .wouldBlock => { s.setConnectState remote .inProgress with accepting := .idle }
  | .completed => { s.setConnectState remote .signaled with accepting := .idle }

def Entry.sockets (entry : Entry) : List SOCKET := entry.localSocket :: entry.remoteSocket.toList

/-- An event other than the first is signaled. If a session cannot be set up, the handler
    closes both sockets. -/
def connected (s : Server) (index : ℕ) (entry : Entry) (result : Setup) : Server :=
  let s := { s with sockArrayEvents := s.sockArrayEvents.eraseIdx index, waitEvents := [] }
  match result with
  | .established =>
    { s with proxySockets := s.proxySockets ++ [⟨some entry.localSocket, entry.remoteSocket⟩] }
  | .failed => s.closesockets entry.sockets
  -- first the destructor, then the handler
  | .destroyed => (s.closesockets entry.sockets).closesockets entry.sockets
  | .abandoned => { s.closesockets entry.sockets with abandoned := entry :: s.abandoned }

def Session.sockets (session : Session) : List SOCKET :=
  session.localSocket.toList ++ session.remoteSocket.toList

/-- `close_client` on either side closes what is open of both. -/
def closeClient (s : Server) (index : ℕ) (session : Session) : Server :=
  { s.closesockets session.sockets with proxySockets := s.proxySockets.set index ⟨none, none⟩ }

/-- The relay's first receives. When the second of them fails, the local socket is closed, and
    `close_client` for the remote one closes it again. -/
def startDataRelay (s : Server) (index : ℕ) (session : Session) : Relay → Server
  | .started => s
  | .localFailed => closeClient s index session
  | .remoteFailed => closeClient (s.closesockets session.localSocket.toList) index session

def closeAbandoned (s : Server) (index : ℕ) (entry : Entry) : Server :=
  { s.closesockets entry.sockets with abandoned := s.abandoned.eraseIdx index }

def isReadyForRemoval (session : Session) : Bool :=
  session.localSocket.isNone && session.remoteSocket.isNone

def step (s : Server) : Event → Option Server
  | .accept =>
    match s.accepting with
    | .idle => some { s with
        accepting := .accepted s.nextSocket
        nextSocket := s.nextSocket + 1
        accepted := s.nextSocket :: s.accepted }
    | _ => none
  | .prepare result =>
    match s.accepting with
    | .accepted client => some (prepare s client result)
    | _ => none
  | .register result =>
    match s.accepting with
    | .prepared client remote => some (register s client remote result)
    | _ => none
  | .connect result =>
    match s.accepting with
    | .registered client remote => some (connect s client remote result)
    | _ => none
  | .connectDone remote =>
    if s.connectState remote = .inProgress then some (s.setConnectState remote .signaled) else none
  | .buildWaitEvents => some { s with waitEvents := s.sockArrayEvents }
  | .connected index result =>
    match s.waitEvents[index]?, s.sockArrayEvents[index]? with
    | some event, some entry =>
      if index ≠ 0 ∧ event.remoteSocket.map s.connectState = some .signaled then
        some (connected s index entry result)
      else none
    | _, _ => none
  | .startDataRelay index result =>
    match s.proxySockets[index]? with
    | some session =>
      -- a receive on `INVALID_SOCKET` fails
      if result = .localFailed ∨ session.localSocket.isSome then
        some (startDataRelay s index session result)
      else none
    | none => none
  | .closeClient index =>
    match s.proxySockets[index]? with
    | some session => some (closeClient s index session)
    | none => none
  | .closeAbandoned index =>
    match s.abandoned[index]? with
    | some entry => some (closeAbandoned s index entry)
    | none => none
  | .clear => some { s with proxySockets := s.proxySockets.filter fun a => !isReadyForRemoval a }

/-- After `start`: the first entry holds a socket of its own and no remote socket. -/
def start : Server where
  sockArrayEvents := [⟨0, none⟩]
  waitEvents := []
  proxySockets := []
  abandoned := []
  accepting := .idle
  connectState := fun _ => .fresh
  nextSocket := 1
  accepted := []
  closed := []

/-! ## Who holds a socket -/

def Accepting.sockets : Accepting → List SOCKET
  | .idle | .registered _ _ => []
  | .accepted client => [client]
  | .prepared client remote => [client, remote]

def Server.pending (s : Server) : List Entry := s.sockArrayEvents.tail

/-- How often a socket is in the accept thread's hands, in an entry other than the first, in a
    session, or closed. -/
def holders (s : Server) (socket : SOCKET) : ℕ :=
  s.accepting.sockets.count socket + (s.pending.flatMap Entry.sockets).count socket +
    (s.proxySockets.flatMap Session.sockets).count socket + s.closed.count socket

/-- The connect of the entry's remote socket is about to be called, in progress, or ended and
    not handled yet. -/
def Underway (s : Server) (remote : SOCKET) : Prop :=
  s.connectState remote ≠ .fresh ∨ ∃ client, s.accepting = .registered client remote

/-- Every entry but the first stands for a connect that is under way and whose sockets are
    open; every accepted socket is in one place; so each place the table has lost is taken by
    a connect under way. -/
structure LeaksNothing (s : Server) : Prop where
  pending : ∀ entry ∈ s.pending, entry.localSocket ∉ s.closed ∧
    ∃ remote, entry.remoteSocket = some remote ∧ remote ∉ s.closed ∧ Underway s remote
  owned : ∀ client ∈ s.accepted, holders s client = 1
  room : ∃ remotes : List SOCKET, remotes.Nodup ∧ s.sockArrayEvents.length = remotes.length + 1 ∧
    ∀ remote ∈ remotes, remote ∉ s.closed ∧ Underway s remote

/-- No `connect` and no receive of the relay's start on the remote socket fails at once, and no
    exception breaks the set-up of a session off before its contexts refer to it, or after it has
    posted an operation that completes. -/
def ClosesOnce (_ : Server) : Event → Prop
  | .connect .failed | .startDataRelay _ .remoteFailed => False
  | .connected _ .destroyed | .closeAbandoned _ => False
  | _ => True

/-! ## What every step keeps -/

structure Consistent (s : Server) : Prop where
  first : ∃ entry, s.sockArrayEvents = entry :: s.pending
  snapshot : s.waitEvents <+: s.sockArrayEvents
  prepared : ∀ client remote, s.accepting = .prepared client remote →
    remote < s.nextSocket ∧ s.connectState remote = .fresh
  registered : ∀ client remote, s.accepting = .registered client remote →
    remote < s.nextSocket ∧ s.connectState remote = .fresh ∧ ⟨client, some remote⟩ ∈ s.pending
  unused : ∀ socket, s.nextSocket ≤ socket → s.connectState socket = .fresh

section Connected
variable {s : Server} (h : Consistent s) {index : ℕ} {event entry : Entry}
  (hevent : s.waitEvents[index]? = some event) (hentry : s.sockArrayEvents[index]? = some entry)

include h hevent hentry in
/-- Only the connect thread removes entries, so its copy still names the right one. -/
theorem event_eq_entry : event = entry := by
  obtain ⟨rest, hrest⟩ := h.snapshot
  rw [← hrest, List.getElem?_append_left (List.getElem?_eq_some_iff.mp hevent).1] at hentry
  exact Option.some.inj (hevent.symm.trans hentry)

include h hentry in
theorem pending_perm (hindex : index ≠ 0) :
    s.pending.Perm (entry :: (s.sockArrayEvents.eraseIdx index).tail) := by
  obtain ⟨first, htable⟩ := h.first
  obtain ⟨position, rfl⟩ := Nat.exists_eq_succ_of_ne_zero hindex
  rw [htable, List.getElem?_cons_succ] at hentry
  obtain ⟨hlt, rfl⟩ := List.getElem?_eq_some_iff.mp hentry
  rw [htable, List.eraseIdx_cons_succ, List.tail_cons]
  exact (List.getElem_cons_eraseIdx_perm hlt).symm

end Connected

theorem consistent_reject {s : Server} (h : Consistent s) (client : SOCKET) (remote : List SOCKET) :
    Consistent (s.reject client remote) :=
  ⟨h.first, h.snapshot, nofun, nofun, h.unused⟩

theorem consistent_prepare {s : Server} (h : Consistent s) (client : SOCKET) (result : Prepare) :
    Consistent (prepare s client result) := by
  have hnext : ∀ socket, s.nextSocket + 1 ≤ socket → s.connectState socket = .fresh :=
    fun socket hle => h.unused socket (Nat.le_of_succ_le hle)
  unfold prepare
  split
  · exact consistent_reject h client []
  · cases result with
    | noRemotePort => exact consistent_reject h client []
    | socketFailed => exact consistent_reject h client []
    | bindFailed => exact ⟨h.first, h.snapshot, nofun, nofun, hnext⟩
    | bound =>
      refine ⟨h.first, h.snapshot, fun c r heq => ?_, nofun, hnext⟩
      cases heq
      exact ⟨Nat.lt_succ_self _, h.unused _ (Nat.le_refl _)⟩

theorem pending_append {s : Server} (h : Consistent s) (entry : Entry) :
    (s.sockArrayEvents ++ [entry]).tail = s.pending ++ [entry] := by
  obtain ⟨first, htable⟩ := h.first
  rw [htable]
  rfl

theorem consistent_register {s : Server} (h : Consistent s) {client remote : SOCKET}
    (hprepared : s.accepting = .prepared client remote) (result : Register) :
    Consistent (register s client remote result) := by
  unfold register
  split
  · exact consistent_reject h client [remote]
  · cases result with
    | createEventFailed => exact consistent_reject h client [remote]
    | eventSelectFailed => exact consistent_reject h client [remote]
    | registered =>
      obtain ⟨first, htable⟩ := h.first
      obtain ⟨hlt, hfresh⟩ := h.prepared client remote hprepared
      have hpending := pending_append h ⟨client, some remote⟩
      refine ⟨⟨first, ?_⟩, List.IsPrefix.trans h.snapshot (List.prefix_append _ _), nofun,
        fun c r heq => ?_, h.unused⟩
      · change s.sockArrayEvents ++ _ = first :: (s.sockArrayEvents ++ _).tail
        rw [hpending, htable]
        rfl
      · cases heq
        refine ⟨hlt, hfresh, ?_⟩
        change (⟨client, some remote⟩ : Entry) ∈ (s.sockArrayEvents ++ _).tail
        rw [hpending]
        exact List.mem_append_right _ (List.mem_singleton_self _)

theorem consistent_connect {s : Server} (h : Consistent s) {client remote : SOCKET}
    (hregistered : s.accepting = .registered client remote) (result : Connect) :
    Consistent (connect s client remote result) := by
  obtain ⟨hlt, -, -⟩ := h.registered client remote hregistered
  have hunused : ∀ state socket, s.nextSocket ≤ socket →
      Function.update s.connectState remote state socket = .fresh := by
    intro state socket hle
    rw [Function.update_of_ne (Nat.ne_of_gt (Nat.lt_of_lt_of_le hlt hle))]
    exact h.unused socket hle
  cases result with
  | failed => exact consistent_reject h client [remote]
  | wouldBlock => exact ⟨h.first, h.snapshot, nofun, nofun, hunused _⟩
  | completed => exact ⟨h.first, h.snapshot, nofun, nofun, hunused _⟩

theorem consistent_connected {s : Server} (h : Consistent s) {index : ℕ} {event entry : Entry}
    (hevent : s.waitEvents[index]? = some event) (hentry : s.sockArrayEvents[index]? = some entry)
    (hindex : index ≠ 0) (hsignaled : event.remoteSocket.map s.connectState = some .signaled)
    (result : Setup) : Consistent (connected s index entry result) := by
  obtain rfl := event_eq_entry h hevent hentry
  obtain ⟨first, htable⟩ := h.first
  have hperm := pending_perm h hentry hindex
  have herased : s.sockArrayEvents.eraseIdx index =
      first :: (s.sockArrayEvents.eraseIdx index).tail := by
    obtain ⟨position, rfl⟩ := Nat.exists_eq_succ_of_ne_zero hindex
    rw [htable]
    rfl
  have hkept : ∀ client remote, s.accepting = .registered client remote →
      ⟨client, some remote⟩ ∈ (s.sockArrayEvents.eraseIdx index).tail := by
    intro client remote hregistered
    obtain ⟨-, hfresh, hmem⟩ := h.registered client remote hregistered
    rcases List.mem_cons.mp (hperm.mem_iff.mp hmem) with rfl | hmem
    · simp [hfresh] at hsignaled
    · exact hmem
  have hregistered : ∀ client remote, s.accepting = .registered client remote →
      remote < s.nextSocket ∧ s.connectState remote = .fresh ∧
        ⟨client, some remote⟩ ∈ (s.sockArrayEvents.eraseIdx index).tail := fun c r heq =>
    ⟨(h.registered c r heq).1, (h.registered c r heq).2.1, hkept c r heq⟩
  cases result <;>
    exact ⟨⟨first, herased⟩, List.nil_prefix, h.prepared, hregistered, h.unused⟩

theorem consistent_connectDone {s : Server} (h : Consistent s) {remote : SOCKET}
    (hprogress : s.connectState remote = .inProgress) :
    Consistent (s.setConnectState remote .signaled) := by
  have hother : ∀ socket, s.connectState socket = .fresh →
      Function.update s.connectState remote .signaled socket = .fresh := by
    intro socket hfresh
    rw [Function.update_of_ne]
    · exact hfresh
    · rintro rfl
      rw [hprogress] at hfresh
      cases hfresh
  refine ⟨h.first, h.snapshot, fun c r heq => ?_, fun c r heq => ?_, fun socket hle => ?_⟩
  · obtain ⟨hlt, hfresh⟩ := h.prepared c r heq
    exact ⟨hlt, hother r hfresh⟩
  · obtain ⟨hlt, hfresh, hmem⟩ := h.registered c r heq
    exact ⟨hlt, hother r hfresh, hmem⟩
  · exact hother socket (h.unused socket hle)

inductive Moves (s : Server) : Event → Server → Prop
  | accept (h : s.accepting = .idle) : Moves s .accept { s with
      accepting := .accepted s.nextSocket
      nextSocket := s.nextSocket + 1
      accepted := s.nextSocket :: s.accepted }
  | prepare {client : SOCKET} (result : Prepare) (h : s.accepting = .accepted client) :
      Moves s (.prepare result) (prepare s client result)
  | register {client remote : SOCKET} (result : Register)
      (h : s.accepting = .prepared client remote) :
      Moves s (.register result) (register s client remote result)
  | connect {client remote : SOCKET} (result : Connect)
      (h : s.accepting = .registered client remote) :
      Moves s (.connect result) (connect s client remote result)
  | connectDone {remote : SOCKET} (h : s.connectState remote = .inProgress) :
      Moves s (.connectDone remote) (s.setConnectState remote .signaled)
  | buildWaitEvents : Moves s .buildWaitEvents { s with waitEvents := s.sockArrayEvents }
  | connected {index : ℕ} {event entry : Entry} (result : Setup)
      (hevent : s.waitEvents[index]? = some event) (hentry : s.sockArrayEvents[index]? = some entry)
      (hindex : index ≠ 0) (hsignaled : event.remoteSocket.map s.connectState = some .signaled) :
      Moves s (.connected index result) (connected s index entry result)
  | startDataRelay {index : ℕ} {session : Session} (result : Relay)
      (h : s.proxySockets[index]? = some session)
      (hopen : result = .localFailed ∨ session.localSocket.isSome) :
      Moves s (.startDataRelay index result) (startDataRelay s index session result)
  | closeClient {index : ℕ} {session : Session} (h : s.proxySockets[index]? = some session) :
      Moves s (.closeClient index) (closeClient s index session)
  | closeAbandoned {index : ℕ} {entry : Entry} (h : s.abandoned[index]? = some entry) :
      Moves s (.closeAbandoned index) (closeAbandoned s index entry)
  | clear : Moves s .clear
      { s with proxySockets := s.proxySockets.filter fun a => !isReadyForRemoval a }

theorem moves_of_step {s t : Server} {e : Event} (hstep : step s e = some t) : Moves s e t := by
  cases e with
  | connectDone remote =>
    obtain ⟨hprogress, ⟨⟩⟩ := Option.ite_none_right_eq_some.mp hstep
    exact .connectDone hprogress
  | buildWaitEvents =>
    obtain rfl := Option.some.inj hstep
    exact .buildWaitEvents
  | connected index result =>
    simp only [step] at hstep
    split at hstep
    · rename_i event entry hevent hentry
      obtain ⟨⟨hindex, hsignaled⟩, ⟨⟩⟩ := Option.ite_none_right_eq_some.mp hstep
      exact .connected result hevent hentry hindex hsignaled
    · cases hstep
  | startDataRelay index result =>
    simp only [step] at hstep
    split at hstep
    · rename_i session hsession
      obtain ⟨hopen, ⟨⟩⟩ := Option.ite_none_right_eq_some.mp hstep
      exact .startDataRelay result hsession hopen
    · cases hstep
  | clear =>
    obtain rfl := Option.some.inj hstep
    exact .clear
  | _ =>
    simp only [step] at hstep
    split at hstep
    · obtain rfl := Option.some.inj hstep
      constructor
      assumption
    · cases hstep

theorem consistent_moves {s t : Server} {e : Event} (h : Consistent s) (hmove : Moves s e t) :
    Consistent t := by
  cases hmove with
  | accept _ =>
    exact ⟨h.first, h.snapshot, nofun, nofun, fun socket hle =>
      h.unused socket (Nat.le_of_succ_le hle)⟩
  | prepare result _ => exact consistent_prepare h _ result
  | register result hprepared => exact consistent_register h hprepared result
  | connect result hregistered => exact consistent_connect h hregistered result
  | connectDone hprogress => exact consistent_connectDone h hprogress
  | buildWaitEvents => exact ⟨h.first, List.prefix_refl _, h.prepared, h.registered, h.unused⟩
  | connected result hevent hentry hindex hsignaled =>
    exact consistent_connected h hevent hentry hindex hsignaled result
  | startDataRelay result _ _ =>
    cases result <;> exact ⟨h.first, h.snapshot, h.prepared, h.registered, h.unused⟩
  | _ => exact ⟨h.first, h.snapshot, h.prepared, h.registered, h.unused⟩

def Accepting.client : Accepting → Option SOCKET
  | .idle => none
  | .accepted client | .prepared client _ | .registered client _ => some client

/-- The local sockets are accepted ones, and those of abandoned sessions have been closed. -/
structure Known (s : Server) : Prop where
  accepting : ∀ client ∈ s.accepting.client, client ∈ s.accepted
  pending : ∀ entry ∈ s.pending, entry.localSocket ∈ s.accepted
  sessions : ∀ session ∈ s.proxySockets, ∀ client ∈ session.localSocket, client ∈ s.accepted
  abandoned : ∀ entry ∈ s.abandoned, entry.localSocket ∈ s.accepted ∧ entry.localSocket ∈ s.closed

theorem known_reject {s : Server} (h : Known s) (client : SOCKET) (remote : List SOCKET) :
    Known (s.reject client remote) :=
  ⟨nofun, h.pending, h.sessions, fun entry hentry =>
    ⟨(h.abandoned entry hentry).1, List.mem_append_right _ (h.abandoned entry hentry).2⟩⟩

theorem known_closesockets {s : Server} (h : Known s) (sockets : List SOCKET) :
    Known (s.closesockets sockets) :=
  ⟨h.accepting, h.pending, h.sessions, fun entry hentry =>
    ⟨(h.abandoned entry hentry).1, List.mem_append_right _ (h.abandoned entry hentry).2⟩⟩

theorem known_closeClient {s : Server} (h : Known s) (index : ℕ) (session : Session) :
    Known (closeClient s index session) := by
  have hclosed := known_closesockets h session.sockets
  refine ⟨h.accepting, h.pending, fun other hother client hclient => ?_, hclosed.abandoned⟩
  rcases List.mem_or_eq_of_mem_set hother with hold | rfl
  · exact h.sessions other hold client hclient
  · cases hclient

theorem known_prepare {s : Server} (h : Known s) {client : SOCKET}
    (haccepted : s.accepting = .accepted client) (result : Prepare) :
    Known (prepare s client result) := by
  have hclient : client ∈ s.accepted := h.accepting client (by rw [haccepted]; rfl)
  unfold prepare
  split
  · exact known_reject h client []
  · cases result with
    | bound =>
      refine ⟨fun c hc => ?_, h.pending, h.sessions, h.abandoned⟩
      obtain rfl := Option.some.inj hc
      exact hclient
    | bindFailed => exact known_reject (s := { s with nextSocket := s.nextSocket + 1 }) ⟨h.accepting,
        h.pending, h.sessions, h.abandoned⟩ client [s.nextSocket]
    | _ => exact known_reject h client []

theorem known_register {s : Server} (hs : Consistent s) (h : Known s) {client remote : SOCKET}
    (hprepared : s.accepting = .prepared client remote) (result : Register) :
    Known (register s client remote result) := by
  have hclient : client ∈ s.accepted := h.accepting client (by rw [hprepared]; rfl)
  unfold register
  split
  · exact known_reject h client [remote]
  · cases result with
    | registered =>
      refine ⟨fun c hc => ?_, fun entry hentry => ?_, h.sessions, h.abandoned⟩
      · obtain rfl := Option.some.inj hc
        exact hclient
      · change entry ∈ (s.sockArrayEvents ++ _).tail at hentry
        rw [pending_append hs] at hentry
        rcases List.mem_append.mp hentry with hold | hnew
        · exact h.pending entry hold
        · obtain rfl := List.mem_singleton.mp hnew
          exact hclient
    | _ => exact known_reject h client [remote]

theorem known_connected {s : Server} (hs : Consistent s) (h : Known s) {index : ℕ} {entry : Entry}
    (hentry : s.sockArrayEvents[index]? = some entry) (hindex : index ≠ 0) (result : Setup) :
    Known (connected s index entry result) := by
  have hperm := pending_perm hs hentry hindex
  have hclient : entry.localSocket ∈ s.accepted :=
    h.pending entry (hperm.mem_iff.mpr List.mem_cons_self)
  have hpending : ∀ other ∈ (s.sockArrayEvents.eraseIdx index).tail,
      other.localSocket ∈ s.accepted := fun other hother =>
    h.pending other (hperm.mem_iff.mpr (List.mem_cons_of_mem _ hother))
  have hrest : Known { s with
      sockArrayEvents := s.sockArrayEvents.eraseIdx index, waitEvents := [] } :=
    ⟨h.accepting, hpending, h.sessions, h.abandoned⟩
  have hclosed := known_closesockets hrest entry.sockets
  cases result with
  | established =>
    refine ⟨h.accepting, hpending, fun session hsession client hmem => ?_, h.abandoned⟩
    rcases List.mem_append.mp hsession with hold | hnew
    · exact h.sessions session hold client hmem
    · obtain rfl := List.mem_singleton.mp hnew
      obtain rfl := Option.some.inj hmem
      exact hclient
  | failed => exact hclosed
  | destroyed => exact known_closesockets hclosed entry.sockets
  | abandoned =>
    refine ⟨h.accepting, hpending, h.sessions, fun other hother => ?_⟩
    rcases List.mem_cons.mp hother with rfl | hold
    · exact ⟨hclient, List.mem_append_left _ List.mem_cons_self⟩
    · exact hclosed.abandoned other hold

theorem known_moves {s t : Server} {e : Event} (hs : Consistent s) (h : Known s)
    (hmove : Moves s e t) : Known t := by
  cases hmove with
  | accept _ =>
    refine ⟨fun client hclient => ?_, fun entry hentry => .tail _ (h.pending entry hentry),
      fun session hsession client hclient => .tail _ (h.sessions session hsession client hclient),
      fun entry hentry => ⟨.tail _ (h.abandoned entry hentry).1, (h.abandoned entry hentry).2⟩⟩
    obtain rfl := Option.some.inj hclient
    exact List.mem_cons_self
  | prepare result haccepted => exact known_prepare h haccepted result
  | register result hprepared => exact known_register hs h hprepared result
  | connect result _ =>
    cases result with
    | failed => exact known_reject h _ _
    | _ => exact ⟨nofun, h.pending, h.sessions, h.abandoned⟩
  | connected result _ hentry hindex _ => exact known_connected hs h hentry hindex result
  | startDataRelay result _ _ =>
    cases result with
    | started => exact h
    | localFailed => exact known_closeClient h _ _
    | remoteFailed => exact known_closeClient (known_closesockets h _) _ _
  | closeClient _ => exact known_closeClient h _ _
  | closeAbandoned _ =>
    refine ⟨h.accepting, h.pending, h.sessions, fun entry hentry => ?_⟩
    obtain ⟨hclient, hclosed⟩ := h.abandoned entry (List.mem_of_mem_eraseIdx hentry)
    exact ⟨hclient, List.mem_append_right _ hclosed⟩
  | clear =>
    exact ⟨h.accepting, h.pending, fun session hsession =>
      h.sessions session (List.mem_filter.mp hsession).1, h.abandoned⟩
  | _ => exact ⟨h.accepting, h.pending, h.sessions, h.abandoned⟩

/-! ## Runs that close every socket once -/

structure Owned (s : Server) : Prop where
  consistent : Consistent s
  next_pos : 1 ≤ s.nextSocket
  holders_eq : ∀ socket, holders s socket = if 1 ≤ socket ∧ socket < s.nextSocket then 1 else 0
  accepted : ∀ client ∈ s.accepted, 1 ≤ client ∧ client < s.nextSocket
  underway : ∀ entry ∈ s.pending, ∃ remote, entry.remoteSocket = some remote ∧ Underway s remote

theorem holders_reject {s : Server} {client : SOCKET} {remote : List SOCKET}
    (h : s.accepting.sockets = client :: remote) (socket : SOCKET) :
    holders (s.reject client remote) socket = holders s socket := by
  have hclosed : (s.reject client remote).closed = client :: remote ++ s.closed := rfl
  have hpending : (s.reject client remote).pending = s.pending := rfl
  have hsessions : (s.reject client remote).proxySockets = s.proxySockets := rfl
  have hidle : (s.reject client remote).accepting.sockets = [] := rfl
  rw [holders, holders, hidle, h, hclosed, hpending, hsessions, List.count_append, List.count_nil]
  omega

theorem holders_new {s t : Server} (h : Owned s) (hnext : t.nextSocket = s.nextSocket + 1)
    (hnew : ∀ socket, holders t socket = holders s socket + [s.nextSocket].count socket)
    (socket : SOCKET) :
    holders t socket = if 1 ≤ socket ∧ socket < t.nextSocket then 1 else 0 := by
  have hpos := h.next_pos
  rw [hnew, h.holders_eq, hnext, List.count_singleton]
  grind

theorem accepted_new {s : Server} (h : Owned s) :
    ∀ client ∈ s.accepted, 1 ≤ client ∧ client < s.nextSocket + 1 := fun client hmem =>
  ⟨(h.accepted client hmem).1, Nat.lt_succ_of_lt (h.accepted client hmem).2⟩

/-- Between two clients every entry's `connect` has been called. -/
theorem connect_called {s : Server} (h : Owned s)
    (haccepting : ∀ client remote, s.accepting ≠ .registered client remote) :
    ∀ entry ∈ s.pending, ∃ remote, entry.remoteSocket = some remote ∧
      s.connectState remote ≠ .fresh := by
  intro entry hentry
  obtain ⟨remote, hremote, hstate | ⟨client, hregistered⟩⟩ := h.underway entry hentry
  · exact ⟨remote, hremote, hstate⟩
  · exact absurd hregistered (haccepting client remote)

theorem underway_called {s t : Server} (hpending : ∀ entry ∈ s.pending,
      ∃ remote, entry.remoteSocket = some remote ∧ s.connectState remote ≠ .fresh)
    (hstate : t.connectState = s.connectState) : ∀ entry ∈ s.pending,
      ∃ remote, entry.remoteSocket = some remote ∧ Underway t remote := by
  intro entry hentry
  obtain ⟨remote, hremote, hcalled⟩ := hpending entry hentry
  exact ⟨remote, hremote, .inl (by rw [hstate]; exact hcalled)⟩

theorem owned_reject {s : Server} (h : Owned s) {client : SOCKET} {remote : List SOCKET}
    (hsockets : s.accepting.sockets = client :: remote) : Owned (s.reject client remote) := by
  refine ⟨consistent_reject h.consistent client remote, h.next_pos, fun socket => ?_, h.accepted,
    underway_called (s := s) (connect_called h ?_) rfl⟩
  · rw [holders_reject hsockets]
    exact h.holders_eq socket
  · intro c r hregistered
    rw [hregistered] at hsockets
    cases hsockets

theorem owned_prepare {s : Server} (h : Owned s) {client : SOCKET}
    (haccepted : s.accepting = .accepted client) (result : Prepare) :
    Owned (prepare s client result) := by
  have hsockets : s.accepting.sockets = [client] := by rw [haccepted]; rfl
  have hcalled := connect_called h (by rw [haccepted]; exact nofun)
  have hconsistent := consistent_prepare h.consistent client result
  unfold prepare at hconsistent ⊢
  split
  · exact owned_reject h hsockets
  · rename_i hroom
    rw [if_neg hroom] at hconsistent
    cases result with
    | noRemotePort => exact owned_reject h hsockets
    | socketFailed => exact owned_reject h hsockets
    | bindFailed =>
      refine ⟨hconsistent, Nat.le_succ_of_le h.next_pos, holders_new h rfl fun socket => ?_,
        accepted_new h, underway_called hcalled rfl⟩
      have hidle : Accepting.idle.sockets = [] := rfl
      simp only [holders, hsockets, Server.reject, Server.closesockets, Server.pending, hidle,
        List.cons_append, List.nil_append, List.count_cons, List.count_nil]
      omega
    | bound =>
      refine ⟨hconsistent, Nat.le_succ_of_le h.next_pos, holders_new h rfl fun socket => ?_,
        accepted_new h, underway_called hcalled rfl⟩
      have hprepared : (Accepting.prepared client s.nextSocket).sockets = [client, s.nextSocket] := rfl
      simp only [holders, hsockets, hprepared, Server.pending, List.count_cons, List.count_nil]
      omega

theorem owned_register {s : Server} (h : Owned s) {client remote : SOCKET}
    (hprepared : s.accepting = .prepared client remote) (result : Register) :
    Owned (register s client remote result) := by
  have hsockets : s.accepting.sockets = [client, remote] := by rw [hprepared]; rfl
  have hcalled := connect_called h (by rw [hprepared]; exact nofun)
  have hconsistent := consistent_register h.consistent hprepared result
  unfold register at hconsistent ⊢
  split
  · exact owned_reject h hsockets
  · rename_i hroom
    rw [if_neg hroom] at hconsistent
    cases result with
    | createEventFailed => exact owned_reject h hsockets
    | eventSelectFailed => exact owned_reject h hsockets
    | registered =>
      have hpending := pending_append h.consistent ⟨client, some remote⟩
      refine ⟨hconsistent, h.next_pos, fun socket => ?_, h.accepted, ?_⟩
      · rw [← h.holders_eq socket]
        have hnew : Entry.sockets ⟨client, some remote⟩ = [client, remote] := rfl
        have hregistered : (Accepting.registered client remote).sockets = [] := rfl
        simp only [holders, hsockets, hregistered, Server.pending] at hpending ⊢
        rw [hpending, List.flatMap_append, List.count_append, List.flatMap_singleton, hnew,
          List.count_nil]
        omega
      · intro entry hentry
        change entry ∈ (s.sockArrayEvents ++ _).tail at hentry
        rw [hpending] at hentry
        rcases List.mem_append.mp hentry with hold | hnew
        · obtain ⟨r, hremote, hr⟩ := hcalled entry hold
          exact ⟨r, hremote, .inl hr⟩
        · obtain rfl := List.mem_singleton.mp hnew
          exact ⟨remote, rfl, .inr ⟨client, rfl⟩⟩

theorem owned_connect {s : Server} (h : Owned s) {client remote : SOCKET}
    (hregistered : s.accepting = .registered client remote) {result : Connect}
    (hresult : result ≠ .failed) : Owned (connect s client remote result) := by
  have hconsistent := consistent_connect h.consistent hregistered result
  have hholders : ∀ state socket,
      holders { s.setConnectState remote state with accepting := .idle } socket =
        holders s socket := by
    intro state socket
    simp only [holders, hregistered]
    rfl
  have hunderway : ∀ state, state ≠ ConnectState.fresh → ∀ entry ∈ s.pending,
      ∃ r, entry.remoteSocket = some r ∧
        Function.update s.connectState remote state r ≠ .fresh := by
    intro state hstate entry hentry
    obtain ⟨r, hremote, hr⟩ := h.underway entry hentry
    refine ⟨r, hremote, ?_⟩
    by_cases hsame : r = remote
    · rw [hsame, Function.update_self]
      exact hstate
    · rw [Function.update_of_ne hsame]
      rcases hr with hcalled | ⟨c, hc⟩
      · exact hcalled
      · rw [hregistered] at hc
        cases hc
        exact absurd rfl hsame
  have howned : ∀ state, state ≠ ConnectState.fresh →
      Consistent { s.setConnectState remote state with accepting := .idle } →
      Owned { s.setConnectState remote state with accepting := .idle } := by
    intro state hstate hconsistent
    refine ⟨hconsistent, h.next_pos, fun socket => (hholders state socket).trans (h.holders_eq socket),
      h.accepted, fun entry hentry => ?_⟩
    obtain ⟨r, hremote, hr⟩ := hunderway state hstate entry hentry
    exact ⟨r, hremote, .inl hr⟩
  cases result with
  | failed => exact absurd rfl hresult
  | wouldBlock => exact howned _ nofun hconsistent
  | completed => exact howned _ nofun hconsistent

theorem count_flatMap_set {α : Type*} {f : α → List SOCKET} {l : List α} {index : ℕ} {a b : α}
    (h : l[index]? = some a) (socket : SOCKET) :
    ((l.set index b).flatMap f).count socket + (f a).count socket =
      (l.flatMap f).count socket + (f b).count socket := by
  induction l generalizing index with
  | nil => cases h
  | cons x xs ih =>
    cases index with
    | zero =>
      obtain rfl := Option.some.inj h
      simp only [List.set_cons_zero, List.flatMap_cons, List.count_append]
      omega
    | succ index =>
      have htail := ih (by simpa using h)
      simp only [List.set_cons_succ, List.flatMap_cons, List.count_append]
      omega

theorem flatMap_filter_of_nil {α : Type*} {f : α → List SOCKET} {p : α → Bool} {l : List α}
    (h : ∀ a ∈ l, p a = false → f a = []) : (l.filter p).flatMap f = l.flatMap f := by
  induction l with
  | nil => rfl
  | cons x xs ih =>
    have htail := ih fun a ha => h a (List.mem_cons_of_mem _ ha)
    cases hx : p x with
    | true => simp [hx, htail]
    | false => simp [hx, htail, h x List.mem_cons_self hx]

theorem owned_connected {s : Server} (h : Owned s) {index : ℕ} {event entry : Entry}
    (hevent : s.waitEvents[index]? = some event) (hentry : s.sockArrayEvents[index]? = some entry)
    (hindex : index ≠ 0) (hsignaled : event.remoteSocket.map s.connectState = some .signaled)
    {result : Setup} (hresult : result ≠ .destroyed) : Owned (connected s index entry result) := by
  have hconsistent := consistent_connected h.consistent hevent hentry hindex hsignaled result
  have hperm := pending_perm h.consistent hentry hindex
  have hcount : ∀ socket, (s.pending.flatMap Entry.sockets).count socket =
      entry.sockets.count socket +
        ((s.sockArrayEvents.eraseIdx index).tail.flatMap Entry.sockets).count socket := by
    intro socket
    rw [(hperm.flatMap_right Entry.sockets).count_eq, List.flatMap_cons, List.count_append]
  have hunderway : ∀ entry ∈ (s.sockArrayEvents.eraseIdx index).tail,
      ∃ remote, entry.remoteSocket = some remote ∧ Underway s remote := fun entry hmem =>
    h.underway entry (hperm.mem_iff.mpr (List.mem_cons_of_mem _ hmem))
  cases result with
  | established =>
    refine ⟨hconsistent, h.next_pos, fun socket => ?_, h.accepted, hunderway⟩
    have hsession : Session.sockets ⟨some entry.localSocket, entry.remoteSocket⟩ = entry.sockets :=
      rfl
    refine Eq.trans ?_ (h.holders_eq socket)
    rw [holders, holders, hcount socket]
    simp only [connected, Server.pending, List.flatMap_append, List.flatMap_singleton,
      List.count_append, hsession]
    omega
  | destroyed => exact absurd rfl hresult
  | failed | abandoned =>
    refine ⟨hconsistent, h.next_pos, fun socket => ?_, h.accepted, hunderway⟩
    refine Eq.trans ?_ (h.holders_eq socket)
    rw [holders, holders, hcount socket]
    simp only [connected, Server.closesockets, Server.pending, List.count_append]
    omega

theorem owned_closeClient {s : Server} (h : Owned s) {index : ℕ} {session : Session}
    (hsession : s.proxySockets[index]? = some session) : Owned (closeClient s index session) := by
  refine ⟨⟨h.consistent.first, h.consistent.snapshot, h.consistent.prepared,
    h.consistent.registered, h.consistent.unused⟩, h.next_pos, fun socket => ?_, h.accepted,
    h.underway⟩
  have hset := count_flatMap_set (f := Session.sockets) (b := ⟨none, none⟩) hsession socket
  have hnone : Session.sockets ⟨none, none⟩ = [] := rfl
  refine Eq.trans ?_ (h.holders_eq socket)
  simp only [holders, closeClient, Server.closesockets, Server.pending, List.count_append, hnone,
    List.count_nil] at hset ⊢
  omega

theorem owned_moves {s t : Server} {e : Event} (h : Owned s) (hok : ClosesOnce s e)
    (hmove : Moves s e t) : Owned t := by
  have hconsistent := consistent_moves h.consistent hmove
  cases hmove with
  | accept hidle =>
    refine ⟨hconsistent, Nat.le_succ_of_le h.next_pos, holders_new h rfl fun socket => ?_, ?_,
      underway_called (s := s) (connect_called h (by rw [hidle]; exact nofun)) rfl⟩
    · have hnone : s.accepting.sockets = [] := by rw [hidle]; rfl
      have hnew : (Accepting.accepted s.nextSocket).sockets = [s.nextSocket] := rfl
      simp only [holders, hnone, hnew, Server.pending, List.count_nil]
      omega
    · intro client hclient
      rcases List.mem_cons.mp hclient with rfl | hold
      · exact ⟨h.next_pos, Nat.lt_succ_self _⟩
      · exact accepted_new h client hold
  | prepare result haccepted => exact owned_prepare h haccepted result
  | register result hprepared => exact owned_register h hprepared result
  | connect result hregistered =>
    refine owned_connect h hregistered ?_
    rintro rfl
    exact hok
  | connectDone hprogress =>
    refine ⟨hconsistent, h.next_pos, h.holders_eq, h.accepted, fun entry hentry => ?_⟩
    obtain ⟨remote, hremote, hcalled | hregistered⟩ := h.underway entry hentry
    · refine ⟨remote, hremote, .inl ?_⟩
      change Function.update _ _ _ _ ≠ _
      rw [Function.update_apply]
      split
      · exact nofun
      · exact hcalled
    · exact ⟨remote, hremote, .inr hregistered⟩
  | buildWaitEvents => exact ⟨hconsistent, h.next_pos, h.holders_eq, h.accepted, h.underway⟩
  | connected result hevent hentry hindex hsignaled =>
    refine owned_connected h hevent hentry hindex hsignaled ?_
    rintro rfl
    exact hok
  | startDataRelay result hsession _ =>
    cases result with
    | started => exact h
    | localFailed => exact owned_closeClient h hsession
    | remoteFailed => exact hok.elim
  | closeClient hsession => exact owned_closeClient h hsession
  | closeAbandoned _ => exact hok.elim
  | clear =>
    refine ⟨hconsistent, h.next_pos, fun socket => ?_, h.accepted, h.underway⟩
    have hremoved : ∀ session ∈ s.proxySockets,
        (!isReadyForRemoval session) = false → session.sockets = [] := by
      intro session _ hready
      obtain ⟨localSocket, remoteSocket⟩ := session
      cases localSocket <;> cases remoteSocket <;> first | rfl | cases hready
    refine Eq.trans ?_ (h.holders_eq socket)
    rw [holders, holders, ← flatMap_filter_of_nil hremoved]
    rfl

theorem remotes_sublist (entries : List Entry) :
    (entries.filterMap Entry.remoteSocket).Sublist (entries.flatMap Entry.sockets) := by
  induction entries with
  | nil => exact List.Sublist.slnil
  | cons entry entries ih =>
    obtain ⟨localSocket, remoteSocket⟩ := entry
    cases remoteSocket with
    | none => exact .cons _ ih
    | some remote => exact .cons _ (.cons_cons _ ih)

theorem length_remotes {entries : List Entry}
    (h : ∀ entry ∈ entries, ∃ remote, entry.remoteSocket = some remote) :
    (entries.filterMap Entry.remoteSocket).length = entries.length := by
  induction entries with
  | nil => rfl
  | cons entry entries ih =>
    obtain ⟨remote, hremote⟩ := h entry List.mem_cons_self
    rw [List.filterMap_cons_some hremote, List.length_cons, List.length_cons,
      ih fun e he => h e (List.mem_cons_of_mem _ he)]

theorem not_closed {s : Server} (h : Owned s) {entry : Entry} (hentry : entry ∈ s.pending)
    {socket : SOCKET} (hsocket : socket ∈ entry.sockets) : socket ∉ s.closed := by
  have hheld : 0 < (s.pending.flatMap Entry.sockets).count socket :=
    List.count_pos_iff.mpr (List.mem_flatMap.mpr ⟨entry, hentry, hsocket⟩)
  have hone : holders s socket ≤ 1 := by
    rw [h.holders_eq]
    split <;> omega
  intro hclosed
  have hpos := List.count_pos_iff.mpr hclosed
  unfold holders at hone
  omega

theorem leaksNothing_of_owned {s : Server} (h : Owned s) : LeaksNothing s := by
  have hremotes : ∀ remote ∈ s.pending.filterMap Entry.remoteSocket,
      remote ∉ s.closed ∧ Underway s remote := by
    intro remote hmem
    obtain ⟨entry, hentry, hremote⟩ := List.mem_filterMap.mp hmem
    obtain ⟨r, hr, hunderway⟩ := h.underway entry hentry
    obtain rfl := Option.some.inj (hremote.symm.trans hr)
    exact ⟨not_closed h hentry (by simp [Entry.sockets, hremote]), hunderway⟩
  refine ⟨fun entry hentry => ?_, fun client hclient => ?_, ?_⟩
  · obtain ⟨remote, hremote, hunderway⟩ := h.underway entry hentry
    exact ⟨not_closed h hentry (by simp [Entry.sockets]), remote, hremote,
      not_closed h hentry (by simp [Entry.sockets, hremote]), hunderway⟩
  · rw [h.holders_eq, if_pos (h.accepted client hclient)]
  · refine ⟨s.pending.filterMap Entry.remoteSocket, ?_, ?_, hremotes⟩
    · refine List.nodup_iff_count_le_one.mpr fun remote => ?_
      have hle := (remotes_sublist s.pending).count_le remote
      have hone : holders s remote ≤ 1 := by
        rw [h.holders_eq]
        split <;> omega
      unfold holders at hone
      omega
    · obtain ⟨first, htable⟩ := h.consistent.first
      rw [length_remotes fun entry hentry => (h.underway entry hentry).imp fun _ hr => hr.1, htable]
      rfl

/-- A socket that has been closed twice is in two places. -/
theorem closed_once {s : Server} (h : LeaksNothing s) {client : SOCKET}
    (hclient : client ∈ s.accepted) : s.closed.count client ≤ 1 := by
  have hone := h.owned client hclient
  unfold holders at hone
  omega

/-- After an immediate failure of `connect` the entry stands for a closed socket; the other steps
    close an accepted socket twice. -/
theorem meets_of_leaksNothing {s t : Server} {e : Event} (hs : Consistent s ∧ Known s)
    (hstep : step s e = some t) (ht : LeaksNothing t) : ClosesOnce s e := by
  obtain ⟨h, hknown⟩ := hs
  have hmove := moves_of_step hstep
  have honce : ∀ client, client ∈ t.accepted → t.closed.count client ≤ 1 := fun _ => closed_once ht
  cases hmove with
  | connect result hregistered =>
    cases result with
    | failed =>
      obtain ⟨-, -, hentry⟩ := h.registered _ _ hregistered
      obtain ⟨-, remote, hremote, hopen, -⟩ := ht.pending _ hentry
      obtain rfl := Option.some.inj hremote
      exact hopen (List.mem_cons_of_mem _ List.mem_cons_self)
    | _ => trivial
  | @connected index event entry result hevent hentry hindex hsignaled =>
    cases result with
    | destroyed =>
      have hclient : entry.localSocket ∈ s.accepted :=
        hknown.pending entry ((pending_perm h hentry hindex).mem_iff.mpr List.mem_cons_self)
      have htwice := honce entry.localSocket hclient
      simp only [connected, Server.closesockets, Entry.sockets, List.count_append,
        List.count_cons_self] at htwice
      omega
    | _ => trivial
  | @startDataRelay index session result hsession hopen =>
    cases result with
    | remoteFailed =>
      obtain ⟨client, hlocal⟩ := Option.isSome_iff_exists.mp (hopen.resolve_left nofun)
      have hclient : client ∈ s.accepted :=
        hknown.sessions session (List.mem_of_getElem? hsession) client hlocal
      have htwice := honce client hclient
      simp only [startDataRelay, closeClient, Server.closesockets, Session.sockets, hlocal,
        Option.toList_some, List.count_append, List.count_cons_self, List.singleton_append] at htwice
      omega
    | _ => trivial
  | @closeAbandoned index entry hentry =>
    obtain ⟨hclient, hclosed⟩ := hknown.abandoned entry (List.mem_of_getElem? hentry)
    have htwice := honce entry.localSocket hclient
    have hbefore := List.count_pos_iff.mpr hclosed
    simp only [closeAbandoned, Server.closesockets, Entry.sockets, List.count_append,
      List.count_cons_self] at htwice
    omega
  | _ => trivial

theorem consistent_start : Consistent start :=
  ⟨⟨⟨0, none⟩, rfl⟩, List.nil_prefix, nofun, nofun, fun _ _ => rfl⟩

theorem known_start : Known start := ⟨nofun, nofun, nofun, nofun⟩

theorem owned_start : Owned start := by
  refine ⟨consistent_start, Nat.le_refl _, fun socket => ?_, nofun, nofun⟩
  have hnone : ¬ (1 ≤ socket ∧ socket < start.nextSocket) := fun h =>
    absurd h.2 (Nat.not_lt.mpr h.1)
  rw [if_neg hnone]
  rfl

theorem leaksNothing_iff (events : List Event) :
    Always step LeaksNothing start events ↔ Meets step ClosesOnce start events := by
  constructor
  · refine meets_of_always_next (I := fun s => Consistent s ∧ Known s) (fun s _ t hs hstep => ?_)
      (fun _ _ _ hs hstep ht => meets_of_leaksNothing hs hstep ht) ⟨consistent_start, known_start⟩
    have hmove := moves_of_step hstep
    exact ⟨consistent_moves hs.1 hmove, known_moves hs.1 hs.2 hmove⟩
  · intro h
    exact always_mono (fun _ => leaksNothing_of_owned)
      (always_of_meets (fun _ _ _ howned hok hstep => owned_moves howned hok (moves_of_step hstep))
        owned_start h)

theorem failed_connect_stays :
    ¬ ∀ events : List Event, Always step LeaksNothing start events := by
  intro h
  have hrun := (always_iff_reached _ _).mp
    (h [.accept, .prepare .bound, .register .registered, .connect .failed])
    _ [] _ (List.append_nil _).symm rfl
  obtain ⟨-, remote, hremote, hopen, -⟩ := hrun.pending ⟨1, some 2⟩ (by decide)
  obtain rfl := Option.some.inj hremote
  revert hopen
  decide

end ProxySwitch.PendingConnections
