import Mathlib.Data.Int.Notation
import ProxySwitch.RingWindows
import ProxySwitch.TransitionRuns

set_option autoImplicit false

/-!
# The TCP relay

One `tcp_proxy_socket` from `start_data_relay` on: two sockets, a cyclic buffer for each
direction, and the completion handlers. A handler runs under the session's lock, so one
completion is one step. Calls on an open socket do not fail.
-/
namespace ProxySwitch.TcpRelay
open RingWindows

inductive ConnectionStatus
  | clientNoChange
  | clientConnected
  | clientEstablished
  | clientCompleted
  deriving DecidableEq

structure WSABUF where
  len : ℕ
  buf : ℕ
  deriving DecidableEq

def sendReceiveBufferSize : ℕ := 65536

/-- `static_cast<ULONG>` of a pointer difference. -/
def ulong (difference : ℤ) : ℕ := (difference % 4294967296).toNat

/-- A send the kernel holds, with the bytes it has read of it so far. -/
structure Send where
  wsaBuf : WSABUF
  taken : List UInt8
  deriving DecidableEq

/-- The data read from one socket and written to the other. `recvs` and `sends` are the
    operations posted and not completed; `inbound` and `finished` are what the endpoint has
    sent and the proxy has not received yet. `stored`, `received`, `handed` and `sent` only
    record: the addresses and the bytes received, the bytes the kernel has read of the sends
    and the bytes of the completed sends. -/
structure Direction where
  data : ℕ
  memory : ℕ → UInt8
  recvBuf : WSABUF
  sendBuf : WSABUF
  started : Bool
  recvs : List WSABUF
  sends : List Send
  inbound : List UInt8
  finished : Bool
  stored : List ℕ
  received : List UInt8
  handed : List UInt8
  sent : List UInt8

/-- `local_socket_` and the data read from it are at `true`, `remote_socket_` and the data
    read from it at `false`, as `is_local` says it. So `local_recv_buf_` and
    `remote_send_buf_` are both fields of `relayFrom true`. `ended` only records that an
    endpoint's end of data was handled while the session was established. -/
structure Relay where
  connectionStatus : ConnectionStatus
  socketOpen : Bool → Bool
  relayFrom : Bool → Direction
  ended : Bool

def Relay.update (r : Relay) (isLocal : Bool) (f : Direction → Direction) : Relay :=
  { r with relayFrom := Function.update r.relayFrom isLocal (f (r.relayFrom isLocal)) }

section Fields
variable (r : Relay) (isLocal : Bool) (f : Direction → Direction)

@[simp] theorem update_connectionStatus :
    (r.update isLocal f).connectionStatus = r.connectionStatus := rfl
@[simp] theorem update_socketOpen : (r.update isLocal f).socketOpen = r.socketOpen := rfl
@[simp] theorem update_ended : (r.update isLocal f).ended = r.ended := rfl
@[simp] theorem update_self : (r.update isLocal f).relayFrom isLocal = f (r.relayFrom isLocal) :=
  Function.update_self _ _ _
@[simp] theorem update_of_ne {other : Bool} (h : other ≠ isLocal) :
    (r.update isLocal f).relayFrom other = r.relayFrom other := Function.update_of_ne h _ _
@[simp] theorem update_update (g : Direction → Direction) :
    (r.update isLocal f).update isLocal g = r.update isLocal fun d => g (f d) := by
  simp [Relay.update]

end Fields

def closeClient (r : Relay) (isReceive isLocal : Bool) : Relay :=
  let r := if r.socketOpen isLocal then
      { r with
        socketOpen := Function.update r.socketOpen isLocal false
        connectionStatus := .clientCompleted }
    else r
  let r := if isReceive then r.update isLocal fun d => { d with recvBuf := ⟨0, d.recvBuf.buf⟩ }
    else r.update (!isLocal) fun d => { d with sendBuf := ⟨0, d.sendBuf.buf⟩ }
  { r with socketOpen := Function.update r.socketOpen (!isLocal) false }

def Direction.postRecv (d : Direction) : Direction := { d with recvs := d.recvs ++ [d.recvBuf] }

def Direction.postSend (d : Direction) : Direction :=
  { d with sends := d.sends ++ [⟨d.sendBuf, []⟩] }

-- a call on `INVALID_SOCKET` fails at once, and every call site closes the session then
def wsaRecv (r : Relay) (isLocal : Bool) : Relay :=
  if r.socketOpen isLocal then r.update isLocal Direction.postRecv
  else closeClient r true isLocal

def wsaSend (r : Relay) (isLocal : Bool) : Relay :=
  if r.socketOpen isLocal then r.update (!isLocal) Direction.postSend
  else closeClient r false isLocal

def Direction.forward (d : Direction) (ioSize : ℕ) : Direction :=
  { d with sendBuf := ⟨ioSize, d.recvBuf.buf⟩ }

def Direction.shiftRecv (d : Direction) (ioSize : ℕ) : Direction :=
  let buf := d.recvBuf.buf + ioSize
  { d with
    recvBuf :=
      if d.sendBuf.buf < buf then
        if buf < d.data + sendReceiveBufferSize then
          ⟨ulong ((d.data + sendReceiveBufferSize : ℕ) - (buf : ℤ)), buf⟩
        else ⟨ulong ((d.sendBuf.buf : ℤ) - d.data), d.data⟩
      else ⟨ulong ((d.sendBuf.buf : ℤ) - buf), buf⟩ }

/-- The two halves of `process_receive_buffer_complete` differ in the socket only. -/
def processReceiveBufferComplete (r : Relay) (ioSize : ℕ) (isLocal : Bool) : Relay :=
  match r.connectionStatus with
  | .clientCompleted => r.update isLocal fun d => { d with recvBuf := ⟨0, d.recvBuf.buf⟩ }
  | .clientEstablished =>
    let r := if (r.relayFrom isLocal).sendBuf.len = 0 then
        wsaSend (r.update isLocal fun d => d.forward ioSize) (!isLocal)
      else r
    let r := r.update isLocal fun d => d.shiftRecv ioSize
    if (r.relayFrom isLocal).recvBuf.len ≠ 0 then wsaRecv r isLocal else r
  | .clientNoChange | .clientConnected => r

def Direction.reuseSent (d : Direction) (ioSize : ℕ) : Direction :=
  { d with recvBuf := ⟨ioSize, d.sendBuf.buf⟩ }

def Direction.advanceSend (d : Direction) (ioSize : ℕ) : Direction :=
  let buf := d.sendBuf.buf + ioSize
  { d with
    sendBuf := ⟨d.sendBuf.len, if buf = d.data + sendReceiveBufferSize then d.data else buf⟩ }

def Direction.remainingSend (d : Direction) : Direction :=
  { d with
    sendBuf :=
      if d.sendBuf.buf < d.recvBuf.buf then
        ⟨ulong ((d.recvBuf.buf : ℤ) - d.sendBuf.buf), d.sendBuf.buf⟩
      else ⟨ulong ((d.data + sendReceiveBufferSize : ℕ) - (d.sendBuf.buf : ℤ)), d.sendBuf.buf⟩ }

def processSendBufferComplete (r : Relay) (ioSize : ℕ) (isLocal : Bool) : Relay :=
  let r := if r.connectionStatus ≠ .clientCompleted ∧ (r.relayFrom (!isLocal)).recvBuf.len = 0 then
      let r := r.update (!isLocal) fun d => d.reuseSent ioSize
      if 0 < (r.relayFrom (!isLocal)).recvBuf.len then wsaRecv r (!isLocal) else r
    else r
  let r := r.update (!isLocal) fun d => d.advanceSend ioSize
  if (r.relayFrom (!isLocal)).sendBuf.buf = (r.relayFrom (!isLocal)).recvBuf.buf then
    -- both halves close with `is_local` false here
    let r := if r.connectionStatus = .clientCompleted then closeClient r false false else r
    r.update (!isLocal) fun d => { d with sendBuf := ⟨0, d.sendBuf.buf⟩ }
  else
    let r := r.update (!isLocal) Direction.remainingSend
    if (r.relayFrom (!isLocal)).sendBuf.len ≠ 0 then wsaSend r isLocal else r

/-- What can happen to a relay. The endpoints send and finish; the kernel writes into a
    posted receive and reads from a posted send; an operation completes, or fails because its
    socket was closed; the session has been idle for more than an hour. An operation is named by
    the socket it is on and its index. -/
inductive Event
  | startDataRelay (isLocal : Bool)
  | endpointSend (isLocal : Bool) (bytes : List UInt8)
  | endpointFinish (isLocal : Bool)
  | kernelWrite (isLocal : Bool) (index offset : ℕ) (byte : UInt8)
  | kernelRead (isLocal : Bool) (index : ℕ)
  | receiveComplete (isLocal : Bool) (index numBytes : ℕ)
  | sendComplete (isLocal : Bool) (index : ℕ)
  | receiveFailed (isLocal : Bool) (index : ℕ)
  | sendFailed (isLocal : Bool) (index : ℕ)
  | idleCleanup

/-- The bytes of a completed receive: in memory where it was posted, and no longer inbound. -/
def Direction.takeIn (d : Direction) (op : WSABUF) (numBytes : ℕ) : Direction :=
  { d with
    memory := store d.memory op.buf (d.inbound.take numBytes)
    inbound := d.inbound.drop numBytes
    stored := d.stored ++ (List.range numBytes).map fun i => op.buf + i
    received := d.received ++ d.inbound.take numBytes }

def Direction.readNext (d : Direction) (index : ℕ) (op : Send) : Direction :=
  let byte := d.memory (op.wsaBuf.buf + op.taken.length)
  { d with
    sends := d.sends.set index { op with taken := op.taken ++ [byte] }
    handed := d.handed ++ [byte] }

/-- The dispatch of the completion loop in `tcp_proxy_server::start`, for a read. -/
def receiveComplete (r : Relay) (isLocal : Bool) (index numBytes : ℕ) (op : WSABUF) : Relay :=
  let r := r.update isLocal fun d => { d with recvs := d.recvs.eraseIdx index }
  if numBytes = 0 then
    closeClient { r with ended := r.ended || r.connectionStatus = .clientEstablished } true isLocal
  else processReceiveBufferComplete (r.update isLocal fun d => d.takeIn op numBytes) numBytes isLocal

def sendComplete (r : Relay) (isLocal : Bool) (index : ℕ) (op : Send) : Relay :=
  let r := r.update (!isLocal) fun d =>
    { d with sends := d.sends.eraseIdx index, sent := d.sent ++ op.taken }
  processSendBufferComplete r op.taken.length isLocal

def step (r : Relay) : Event → Option Relay
  | .startDataRelay isLocal =>
    -- `WSARecv` on the local socket comes first
    if (r.relayFrom isLocal).started = false ∧ (isLocal = false → (r.relayFrom true).started) then
      some (wsaRecv (r.update isLocal fun d => { d with started := true }) isLocal)
    else none
  | .endpointSend isLocal bytes =>
    if (r.relayFrom isLocal).finished then none
    else some (r.update isLocal fun d => { d with inbound := d.inbound ++ bytes })
  | .endpointFinish isLocal => some (r.update isLocal fun d => { d with finished := true })
  | .kernelWrite isLocal index offset byte =>
    match (r.relayFrom isLocal).recvs[index]? with
    | some op =>
      if offset < op.len then
        some (r.update isLocal fun d => { d with memory := store d.memory (op.buf + offset) [byte] })
      else none
    | none => none
  | .kernelRead isLocal index =>
    match (r.relayFrom (!isLocal)).sends[index]? with
    | some op =>
      if r.socketOpen isLocal ∧ op.taken.length < op.wsaBuf.len then
        some (r.update (!isLocal) fun d => d.readNext index op)
      else none
    | none => none
  | .receiveComplete isLocal index numBytes =>
    match (r.relayFrom isLocal).recvs[index]? with
    | some op =>
      if numBytes ≤ op.len ∧ numBytes ≤ (r.relayFrom isLocal).inbound.length ∧
          (numBytes = 0 → (r.relayFrom isLocal).inbound = [] ∧ (r.relayFrom isLocal).finished) then
        some (receiveComplete r isLocal index numBytes op)
      else none
    | none => none
  | .sendComplete isLocal index =>
    match (r.relayFrom (!isLocal)).sends[index]? with
    | some op => if op.taken ≠ [] then some (sendComplete r isLocal index op) else none
    | none => none
  | .receiveFailed isLocal index =>
    match (r.relayFrom isLocal).recvs[index]? with
    | some _ =>
      if r.socketOpen isLocal then none
      else some (closeClient (r.update isLocal fun d => { d with recvs := d.recvs.eraseIdx index })
        true isLocal)
    | none => none
  | .sendFailed isLocal index =>
    match (r.relayFrom (!isLocal)).sends[index]? with
    | some _ =>
      if r.socketOpen isLocal then none
      else some (closeClient
        (r.update (!isLocal) fun d => { d with sends := d.sends.eraseIdx index }) false isLocal)
    | none => none
  | .idleCleanup =>
    -- the safety closure of `is_ready_for_removal`
    if r.socketOpen true ∨ r.socketOpen false then
      some (closeClient (closeClient r false true) false false)
    else none

/-- Both sockets are associated with the completion port, and the relay is about to start. -/
def Direction.fresh (data : ℕ) (memory : ℕ → UInt8) : Direction where
  data := data
  memory := memory
  recvBuf := ⟨sendReceiveBufferSize, data⟩
  sendBuf := ⟨0, 0⟩
  started := false
  recvs := []
  sends := []
  inbound := []
  finished := false
  stored := []
  received := []
  handed := []
  sent := []

def established (data : Bool → ℕ) (memory : Bool → ℕ → UInt8) : Relay where
  connectionStatus := .clientEstablished
  socketOpen := fun _ => true
  relayFrom := fun isLocal => .fresh (data isLocal) (memory isLocal)
  ended := false

end ProxySwitch.TcpRelay
