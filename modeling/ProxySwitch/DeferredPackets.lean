import ProxySwitch.PacketStages

set_option autoImplicit false

/-!
# Packets deferred to the resolver thread

The callback of the packet filter, `process_resolve_thread_proc` and the lifecycle of
`socks_local_router` around `process_resolve_buffer_queue_`. Each section under
`process_resolve_buffer_mutex_` is one step; the calls of the buffer pool, which no mutex protects,
begin and end with a step each.
-/
namespace ProxySwitch.DeferredPackets
open DestinationRules (InAddr)
open PacketPath PacketStages
open TcpLocalRedirect (TcpPacket)

/-- `m_dwDeviceFlags`: the packet was sent by the protocol stack or received from an adapter. -/
inductive DeviceFlags
  | onSend
  | onReceive
  deriving DecidableEq

inductive PacketAction
  | pass
  | drop
  | revert
  deriving DecidableEq

inductive Receiver
  | adapters
  | mstcp
  deriving DecidableEq

/-- Where `packet_process_thread` puts a packet back into the flow. -/
def putBack : DeviceFlags → PacketAction → Option Receiver
  | .onSend, .pass | .onReceive, .revert => some .adapters
  | .onReceive, .pass | .onSend, .revert => some .mstcp
  | _, .drop => none

/-- A packet by its protocol; `other` is all that is neither TCP nor UDP over IPv4. -/
inductive Frame
  | tcp (p : TcpPacket InAddr)
  | udp (p : UdpPacket)
  | other

def Frame.isTransport : Frame → Bool
  | .tcp _ | .udp _ => true
  | .other => false

/-- `number` counts the packets that were deferred. -/
structure Packet where
  number : ℕ
  flags : DeviceFlags
  frame : Frame

structure IntermediateBuffer extends Packet where
  address : ℕ

def numbers (buffers : List IntermediateBuffer) : List ℕ := buffers.map fun b => b.number

def addresses (buffers : List IntermediateBuffer) : List ℕ := buffers.map IntermediateBuffer.address

/-- `c`, after the packet of `b` was copied to its address. -/
def IntermediateBuffer.overwrite (b c : IntermediateBuffer) : IntermediateBuffer :=
  if c.address = b.address then b else c

/-- The `boost::object_pool` of `intermediate_buffer_pool`, whose functions are not synchronised:
    nothing is known of what it gives out after two calls have overlapped. -/
structure ObjectPool where
  live : List ℕ
  calls : ℕ
  damaged : Bool

namespace ObjectPool
variable (p : ObjectPool)

def enter : ObjectPool := { p with calls := p.calls + 1, damaged := p.damaged || p.calls != 0 }

def leave : ObjectPool := { p with calls := p.calls - 1 }

def mayGive (address : ℕ) : Bool := p.damaged || !p.live.contains address

def give (address : ℕ) : ObjectPool := { p.leave with live := address :: p.live }

def take (address : ℕ) : ObjectPool := { p.leave with live := p.live.erase address }

end ObjectPool

/-- Where `packet_process_thread` stands in `enqueue_for_deferred_resolve`: before the first check
    of the capacity, before and in `construct`, before the push, and before and in the `destroy` of
    a buffer that was not pushed. -/
inductive Callback
  | idle
  | checking (p : Packet)
  | allocating (p : Packet)
  | constructing (p : Packet)
  | pushing (b : IntermediateBuffer)
  | discarding (b : IntermediateBuffer)
  | destroying (b : IntermediateBuffer)

def Callback.pending : Callback → List Packet
  | .checking p | .allocating p | .constructing p => [p]
  | .pushing b => [b.toPacket]
  | _ => []

def Callback.owned : Callback → List IntermediateBuffer
  | .pushing b | .discarding b | .destroying b => [b]
  | _ => []

/-- Where the loop of the resolver thread stands, with its `local_queue`, `to_adapters` and
    `to_mstcp`. -/
inductive Stage
  | waiting
  | refreshing (localQueue : List IntermediateBuffer)
  | resolving (localQueue toAdapters toMstcp : List IntermediateBuffer)
  | sending (toMstcp : List IntermediateBuffer)

def Stage.held : Stage → List IntermediateBuffer
  | .waiting => []
  | .refreshing localQueue => localQueue
  | .resolving localQueue toAdapters toMstcp => localQueue ++ (toAdapters ++ toMstcp)
  | .sending toMstcp => toMstcp

def Stage.map (f : IntermediateBuffer → IntermediateBuffer) : Stage → Stage
  | .waiting => .waiting
  | .refreshing localQueue => .refreshing (localQueue.map f)
  | .resolving localQueue toAdapters toMstcp =>
    .resolving (localQueue.map f) (toAdapters.map f) (toMstcp.map f)
  | .sending toMstcp => .sending (toMstcp.map f)

/-- `releasing` is before, or in, the `destroy` of `b`, with more buffers to go back to the pool
    before the next stage. -/
inductive Resolver
  | absent
  | running (stage : Stage)
  | releasing (b : IntermediateBuffer) (buffers : List IntermediateBuffer) (destroying : Bool)
    (next : Stage)
  | exited

def Resolver.release (next : Stage) : List IntermediateBuffer → Resolver
  | [] => .running next
  | b :: buffers => .releasing b buffers false next

def Resolver.held : Resolver → List IntermediateBuffer
  | .running stage => stage.held
  | .releasing _ _ _ next => next.held
  | _ => []

def Resolver.owned : Resolver → List IntermediateBuffer
  | .running stage => stage.held
  | .releasing b buffers _ next => b :: buffers ++ next.held
  | _ => []

def Resolver.map (f : IntermediateBuffer → IntermediateBuffer) : Resolver → Resolver
  | .running stage => .running (stage.map f)
  | .releasing b buffers destroying next =>
    .releasing (f b) (buffers.map f) destroying (next.map f)
  | r => r

def maxResolveQueueDepth : ℕ := 2048

/-- The queue, its two threads and what happened so far: the packets that were accepted, those
    that were refused, the actions decided and the packets handed on. -/
structure DeferredQueue where
  queue : List IntermediateBuffer
  pool : ObjectPool
  callback : Callback
  resolver : Resolver
  deferred : ℕ
  accepted : List ℕ
  refused : List ℕ
  decided : List (IntermediateBuffer × PacketAction)
  handed : List (IntermediateBuffer × Receiver)

def DeferredQueue.handedNumbers (q : DeferredQueue) : List ℕ := q.handed.map fun h => h.1.number

section Enqueue
variable (q : DeferredQueue)

/-- The callback has no result for the packet, which `enqueue_for_deferred_resolve` takes over. -/
def DeferredQueue.defer (flags : DeviceFlags) (frame : Frame) : DeferredQueue :=
  { q with callback := .checking ⟨q.deferred, flags, frame⟩, deferred := q.deferred + 1 }

def DeferredQueue.refuse (p : Packet) (next : Callback) : DeferredQueue :=
  { q with callback := next, refused := q.refused ++ [p.number] }

def DeferredQueue.checkCapacity (p : Packet) : DeferredQueue :=
  if maxResolveQueueDepth ≤ q.queue.length then q.refuse p .idle
  else { q with callback := .allocating p }

def DeferredQueue.construct (p : Packet) : DeferredQueue :=
  { q with callback := .constructing p, pool := q.pool.enter }

/-- `construct` returns, or throws; the packet is copied to the address, whoever has a buffer
    there. -/
def DeferredQueue.constructed (p : Packet) : Option ℕ → DeferredQueue
  | none => { q.refuse p .idle with pool := q.pool.leave }
  | some address =>
    let b : IntermediateBuffer := ⟨p, address⟩
    { q with
      callback := .pushing b
      queue := q.queue.map b.overwrite
      resolver := q.resolver.map b.overwrite
      pool := q.pool.give address }

/-- The capacity is checked once more under the lock. -/
def DeferredQueue.push (b : IntermediateBuffer) : DeferredQueue :=
  if q.queue.length < maxResolveQueueDepth then
    { q with callback := .idle, queue := q.queue ++ [b], accepted := q.accepted ++ [b.number] }
  else q.refuse b.toPacket (.discarding b)

def DeferredQueue.discard (b : IntermediateBuffer) : DeferredQueue :=
  { q with callback := .destroying b, pool := q.pool.enter }

def DeferredQueue.discarded (b : IntermediateBuffer) : DeferredQueue :=
  { q with callback := .idle, pool := q.pool.take b.address }

end Enqueue

section Resolve
variable (q : DeferredQueue)

/-- The wait ends by a notification or by its timeout, and a wakeup without packets ends in
    another wait. -/
def DeferredQueue.wake (resolverShouldExit : Bool) : DeferredQueue :=
  match q.queue with
  | [] => if resolverShouldExit then { q with resolver := .exited } else q
  | b :: rest => { q with resolver := .running (.refreshing (b :: rest)), queue := [] }

/-- The branches of the resolver's loop; in the last one the buffer goes back to the pool. -/
def DeferredQueue.resolved (b : IntermediateBuffer)
    (localQueue toAdapters toMstcp : List IntermediateBuffer) :
    Option PacketAction → DeferredQueue
  | some .pass =>
    { q with
      resolver := .running (.resolving localQueue (toAdapters ++ [b]) toMstcp)
      decided := q.decided ++ [(b, .pass)] }
  | some .revert =>
    { q with
      resolver := .running (.resolving localQueue toAdapters (toMstcp ++ [b]))
      decided := q.decided ++ [(b, .revert)] }
  | _ => { q with resolver := .releasing b [] false (.resolving localQueue toAdapters toMstcp) }

/-- The packets go to the driver, and `clear` gives the buffers back. -/
def DeferredQueue.sendPacketsToAdapters (toAdapters toMstcp : List IntermediateBuffer) :
    DeferredQueue :=
  { q with
    resolver := .release (.sending toMstcp) toAdapters
    handed := q.handed ++ toAdapters.map fun b => (b, .adapters) }

def DeferredQueue.sendPacketsToMstcp (toMstcp : List IntermediateBuffer) : DeferredQueue :=
  { q with
    resolver := .release .waiting toMstcp
    handed := q.handed ++ toMstcp.map fun b => (b, .mstcp) }

def DeferredQueue.destroy (b : IntermediateBuffer) (buffers : List IntermediateBuffer)
    (next : Stage) : DeferredQueue :=
  { q with resolver := .releasing b buffers true next, pool := q.pool.enter }

def DeferredQueue.destroyed (b : IntermediateBuffer) (buffers : List IntermediateBuffer)
    (next : Stage) : DeferredQueue :=
  { q with resolver := .release next buffers, pool := q.pool.take b.address }

end Resolve

/-- What `start` and `stop` have done: `exiting` is from `resolver_should_exit_` on until the
    resolver thread is joined. -/
inductive Lifecycle
  | stopped
  | starting
  | running
  | stoppingFilter
  | filterStopped
  | exiting
  deriving DecidableEq

/-- The worker threads of the filter run until `stop_filter` has joined them. -/
def Lifecycle.filtering : Lifecycle → Bool
  | .running | .stoppingFilter => true
  | _ => false

structure DeferredRouter extends DeferredQueue where
  lifecycle : Lifecycle
  resolverShouldExit : Bool

section Decisions
variable (cfg : Config) (seen : Seen)

def packetAction {ζ π : Type} : Decision ζ π → Option PacketAction
  | .queued => none
  | .pass _ => some .pass
  | .toClient _ | .toProxy _ => some .revert

/-- The callback for outgoing packets; there is none for incoming ones, which pass. -/
def filterPacket (flags : DeviceFlags) (frame : Frame) : Option PacketAction :=
  match flags, frame with
  | .onSend, .tcp p => packetAction (tcpDecision cfg seen false p)
  | .onSend, .udp p => packetAction (filterUdpDecision cfg seen p)
  | _, _ => some .pass

def resolvePacket : Frame → Option PacketAction
  | .tcp p => packetAction (tcpDecision cfg seen true p)
  | .udp p => packetAction (udpDecision cfg seen true p)
  | .other => none

end Decisions

inductive Event
  | start
  | startFilter (started : Bool)
  | stop
  | stopFilter
  | signalExit
  | joinResolver
  | receive (flags : DeviceFlags) (seen : Seen) (frame : Frame)
  | checkCapacity
  | construct
  | constructed (address : Option ℕ)
  | push
  | discard
  | discarded
  | wake
  | actualize
  | resolve (seen : Seen)
  | sendPacketsToAdapters
  | sendPacketsToMstcp
  | destroy
  | destroyed

def Event.isResolver : Event → Bool
  | .wake | .actualize | .resolve _ | .sendPacketsToAdapters | .sendPacketsToMstcp | .destroy
  | .destroyed => true
  | _ => false

def Event.entersPool : Event → Bool
  | .construct | .discard | .destroy => true
  | _ => false

section Steps
variable (cfg : Config) (s : DeferredRouter)

/-- `start` makes the resolver thread, then the filter. Where the filter does not start, the
    thread is told to exit at once. -/
def startFilter (started : Bool) : DeferredRouter :=
  if started then { s with lifecycle := .running }
  else { s with lifecycle := .exiting, resolverShouldExit := true }

def receive (flags : DeviceFlags) (seen : Seen) (frame : Frame) :
    DeferredRouter :=
  match filterPacket cfg seen flags frame with
  | some _ => s
  | none => { s with toDeferredQueue := s.defer flags frame }

def step : Event → Option DeferredRouter
  | .start =>
    if s.lifecycle = .stopped then
      some { s with
        lifecycle := .starting
        resolverShouldExit := false
        resolver := .running .waiting }
    else none
  | .startFilter started => if s.lifecycle = .starting then some (startFilter s started) else none
  | .stop => if s.lifecycle = .running then some { s with lifecycle := .stoppingFilter } else none
  | .stopFilter =>
    match s.lifecycle, s.callback with
    | .stoppingFilter, .idle => some { s with lifecycle := .filterStopped }
    | _, _ => none
  | .signalExit =>
    if s.lifecycle = .filterStopped then
      some { s with lifecycle := .exiting, resolverShouldExit := true }
    else none
  | .joinResolver =>
    match s.lifecycle, s.resolver with
    | .exiting, .exited => some { s with lifecycle := .stopped, resolver := .absent }
    | _, _ => none
  | .receive flags seen frame =>
    match s.lifecycle.filtering, s.callback with
    | true, .idle => some (receive cfg s flags seen frame)
    | _, _ => none
  | .checkCapacity =>
    match s.callback with
    | .checking p => some { s with toDeferredQueue := s.checkCapacity p }
    | _ => none
  | .construct =>
    match s.callback with
    | .allocating p => some { s with toDeferredQueue := s.construct p }
    | _ => none
  | .constructed address =>
    match s.callback with
    | .constructing p =>
      if address.all s.pool.mayGive then some { s with toDeferredQueue := s.constructed p address }
      else none
    | _ => none
  | .push =>
    match s.callback with
    | .pushing b => some { s with toDeferredQueue := s.push b }
    | _ => none
  | .discard =>
    match s.callback with
    | .discarding b => some { s with toDeferredQueue := s.discard b }
    | _ => none
  | .discarded =>
    match s.callback with
    | .destroying b => some { s with toDeferredQueue := s.discarded b }
    | _ => none
  | .wake =>
    match s.resolver with
    | .running .waiting => some { s with toDeferredQueue := s.wake s.resolverShouldExit }
    | _ => none
  | .actualize =>
    match s.resolver with
    | .running (.refreshing localQueue) =>
      some { s with resolver := .running (.resolving localQueue [] []) }
    | _ => none
  | .resolve seen =>
    match s.resolver with
    | .running (.resolving (b :: localQueue) toAdapters toMstcp) =>
      some { s with
        toDeferredQueue :=
          s.resolved b localQueue toAdapters toMstcp (resolvePacket cfg seen b.frame) }
    | _ => none
  | .sendPacketsToAdapters =>
    match s.resolver with
    | .running (.resolving [] toAdapters toMstcp) =>
      some { s with toDeferredQueue := s.sendPacketsToAdapters toAdapters toMstcp }
    | _ => none
  | .sendPacketsToMstcp =>
    match s.resolver with
    | .running (.sending toMstcp) => some { s with toDeferredQueue := s.sendPacketsToMstcp toMstcp }
    | _ => none
  | .destroy =>
    match s.resolver with
    | .releasing b buffers false next => some { s with toDeferredQueue := s.destroy b buffers next }
    | _ => none
  | .destroyed =>
    match s.resolver with
    | .releasing b buffers true next =>
      some { s with toDeferredQueue := s.destroyed b buffers next }
    | _ => none

end Steps

/-- The router before its first `start`. -/
def initial : DeferredRouter where
  queue := []
  pool := ⟨[], 0, false⟩
  callback := .idle
  resolver := .absent
  deferred := 0
  accepted := []
  refused := []
  decided := []
  handed := []
  lifecycle := .stopped
  resolverShouldExit := false

/-- A thread comes to the pool while the other one is not in a call of it. -/
def Alone (s : DeferredRouter) (e : Event) : Prop := e.entersPool = true → s.pool.calls = 0

instance (s : DeferredRouter) (e : Event) : Decidable (Alone s e) :=
  inferInstanceAs (Decidable (_ → _))

variable (cfg : Config) (s : DeferredRouter) in
inductive Moves : Event → DeferredRouter → Prop
  | start (hstopped : s.lifecycle = .stopped) :
      Moves .start { s with
        lifecycle := .starting
        resolverShouldExit := false
        resolver := .running .waiting }
  | startFilter (started : Bool) (hstarting : s.lifecycle = .starting) :
      Moves (.startFilter started) (startFilter s started)
  | stop (hrunning : s.lifecycle = .running) : Moves .stop { s with lifecycle := .stoppingFilter }
  | stopFilter (hstopping : s.lifecycle = .stoppingFilter) (hidle : s.callback = .idle) :
      Moves .stopFilter { s with lifecycle := .filterStopped }
  | signalExit (hfilter : s.lifecycle = .filterStopped) :
      Moves .signalExit { s with lifecycle := .exiting, resolverShouldExit := true }
  | joinResolver (hexiting : s.lifecycle = .exiting) (hexited : s.resolver = .exited) :
      Moves .joinResolver { s with lifecycle := .stopped, resolver := .absent }
  | receive (flags : DeviceFlags) (seen : Seen) (frame : Frame)
      (hfiltering : s.lifecycle.filtering = true) (hidle : s.callback = .idle) :
      Moves (.receive flags seen frame) (receive cfg s flags seen frame)
  | checkCapacity (p : Packet) (hchecking : s.callback = .checking p) :
      Moves .checkCapacity { s with toDeferredQueue := s.checkCapacity p }
  | construct (p : Packet) (hallocating : s.callback = .allocating p) :
      Moves .construct { s with toDeferredQueue := s.construct p }
  | constructed (p : Packet) (address : Option ℕ) (hconstructing : s.callback = .constructing p)
      (hgives : address.all s.pool.mayGive = true) :
      Moves (.constructed address) { s with toDeferredQueue := s.constructed p address }
  | push (b : IntermediateBuffer) (hpushing : s.callback = .pushing b) :
      Moves .push { s with toDeferredQueue := s.push b }
  | discard (b : IntermediateBuffer) (hdiscarding : s.callback = .discarding b) :
      Moves .discard { s with toDeferredQueue := s.discard b }
  | discarded (b : IntermediateBuffer) (hdestroying : s.callback = .destroying b) :
      Moves .discarded { s with toDeferredQueue := s.discarded b }
  | wake (hwaiting : s.resolver = .running .waiting) :
      Moves .wake { s with toDeferredQueue := s.wake s.resolverShouldExit }
  | actualize (localQueue : List IntermediateBuffer)
      (hrefreshing : s.resolver = .running (.refreshing localQueue)) :
      Moves .actualize { s with resolver := .running (.resolving localQueue [] []) }
  | resolve (seen : Seen) (b : IntermediateBuffer)
      (localQueue toAdapters toMstcp : List IntermediateBuffer)
      (hresolving : s.resolver = .running (.resolving (b :: localQueue) toAdapters toMstcp)) :
      Moves (.resolve seen) { s with
        toDeferredQueue :=
          s.resolved b localQueue toAdapters toMstcp (resolvePacket cfg seen b.frame) }
  | sendPacketsToAdapters (toAdapters toMstcp : List IntermediateBuffer)
      (hresolving : s.resolver = .running (.resolving [] toAdapters toMstcp)) :
      Moves .sendPacketsToAdapters
        { s with toDeferredQueue := s.sendPacketsToAdapters toAdapters toMstcp }
  | sendPacketsToMstcp (toMstcp : List IntermediateBuffer)
      (hsending : s.resolver = .running (.sending toMstcp)) :
      Moves .sendPacketsToMstcp { s with toDeferredQueue := s.sendPacketsToMstcp toMstcp }
  | destroy (b : IntermediateBuffer) (buffers : List IntermediateBuffer) (next : Stage)
      (hreleasing : s.resolver = .releasing b buffers false next) :
      Moves .destroy { s with toDeferredQueue := s.destroy b buffers next }
  | destroyed (b : IntermediateBuffer) (buffers : List IntermediateBuffer) (next : Stage)
      (hdestroying : s.resolver = .releasing b buffers true next) :
      Moves .destroyed { s with toDeferredQueue := s.destroyed b buffers next }

theorem moves_of_step {cfg : Config} {s t : DeferredRouter} {e : Event}
    (h : step cfg s e = some t) : Moves cfg s e t := by
  cases e with
  | start | startFilter | stop | signalExit =>
    obtain ⟨hfrom, heq⟩ := Option.ite_none_right_eq_some.mp h
    obtain rfl := Option.some.inj heq
    constructor
    exact hfrom
  | constructed address =>
    simp only [step] at h
    split at h
    · rename_i p hconstructing
      obtain ⟨hgives, heq⟩ := Option.ite_none_right_eq_some.mp h
      obtain rfl := Option.some.inj heq
      exact .constructed p address hconstructing hgives
    · cases h
  | _ =>
    simp only [step] at h
    split at h
    · obtain rfl := Option.some.inj h
      constructor <;> assumption
    · cases h

end ProxySwitch.DeferredPackets
