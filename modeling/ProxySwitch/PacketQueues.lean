import ProxySwitch.StagedQueues
import ProxySwitch.TransitionRuns

set_option autoImplicit false

/-!
# The queued packet filter

`queued_multi_interface_packet_filter`: four threads hand packet blocks around through four
queues, `start_filter` fills the first queue and `release_filter` ends the threads. A step is one
access to what the threads share; `delivered`, `toMstcp` and `toAdapter` are the driver's side
of the run, `trace` and `fresh` record its history.
-/
namespace ProxySwitch.PacketQueues
open StagedQueues

/-- `m_hAdapter`, `m_dwDeviceFlags` and the frame. -/
structure IntermediateBuffer (π : Type) where
  mHAdapter : ℕ
  mDwDeviceFlags : BitVec 32
  frame : π

def packetFlagOnSend : BitVec 32 := 1

def packetFlagOnReceive : BitVec 32 := 2

def maximumPacketBlock : ℕ := 512

def maximumBlockNum : ℕ := 16

/-- `address` is the block's own; a request is a buffer's index. `fresh` tells whether the last
    read into the block succeeded. -/
structure UnsortedPacketBlock (π : Type) where
  address : ℕ
  packetsSuccess : ℕ
  packetBuffer : ℕ → IntermediateBuffer π
  writeAdapterRequest : List ℕ
  writeMstcpRequest : List ℕ
  fresh : Bool

inductive ActionType
  | pass
  | drop
  | revert
  deriving DecidableEq

structure PacketAction where
  action : ActionType
  interfaceHandle : Option ℕ

/-- A handler is called with the adapter and a reference to the buffer, in the state `ρ` of
    whoever owns it. -/
abbrev Handler (ρ π : Type) := ρ → ℕ → IntermediateBuffer π → PacketAction × IntermediateBuffer π × ρ

structure Setup (ρ ε π : Type) where
  filterIncomingPacket : Option (Handler ρ π)
  filterOutgoingPacket : Option (Handler ρ π)
  change : ρ → ε → ρ
  uninitialized : ℕ → IntermediateBuffer π

inductive Way
  | adapter
  | mstcp
  deriving DecidableEq

section Process

variable {ρ ε π : Type} (setup : Setup ρ ε π)

def callHandler (r : ρ) (p : IntermediateBuffer π) : PacketAction × IntermediateBuffer π × ρ :=
  match if p.mDwDeviceFlags = packetFlagOnSend then setup.filterOutgoingPacket
    else setup.filterIncomingPacket with
  | some handler => handler r p.mHAdapter p
  | none => (⟨.pass, none⟩, p, r)

def filterPacket (r : ρ) (p : IntermediateBuffer π) : ActionType × IntermediateBuffer π × ρ :=
  let result := callHandler setup r p
  (result.1.action,
    match result.1.interfaceHandle with
      | some handle => { result.2.1 with mHAdapter := handle }
      | none => result.2.1,
    result.2.2)

/-- Where a packet is put back into the flow. The flags are read after the handler, and the two
    tests differ on flags that are neither of the two. -/
def wayOf (p : IntermediateBuffer π) : ActionType → Option Way
  | .pass => some (if p.mDwDeviceFlags = packetFlagOnSend then .adapter else .mstcp)
  | .revert => some (if p.mDwDeviceFlags = packetFlagOnReceive then .adapter else .mstcp)
  | .drop => none

/-- The body of the loop over the packets of a block. -/
def processPacket (r : ρ) (block : UnsortedPacketBlock π) (i : ℕ) : UnsortedPacketBlock π × ρ :=
  let result := filterPacket setup r (block.packetBuffer i)
  let written := { block with packetBuffer := Function.update block.packetBuffer i result.2.1 }
  (match wayOf result.2.1 result.1 with
    | some .adapter => { written with writeAdapterRequest := block.writeAdapterRequest ++ [i] }
    | some .mstcp => { written with writeMstcpRequest := block.writeMstcpRequest ++ [i] }
    | none => written,
    result.2.2)

end Process

inductive Stage
  | read
  | process
  | writeMstcp
  | writeAdapter
  deriving DecidableEq

def stages : List Stage := [.read, .process, .writeMstcp, .writeAdapter]

instance : Fintype Stage where
  elems := ⟨stages, by decide⟩
  complete i := by cases i <;> decide

/-- What a thread that owns a block is about to do. The reader waits for the event, resets it,
    reads, and after a failure tests the state. -/
inductive Phase
  | waiting
  | resetting
  | reading
  | failed
  | processing (i : ℕ)
  | sending
  | done
  deriving DecidableEq

structure Job (π : Type) where
  block : UnsortedPacketBlock π
  phase : Phase

def Stage.next : Stage → Stage
  | .read => .process
  | .process => .writeMstcp
  | .writeMstcp => .writeAdapter
  | .writeAdapter => .read

def startJob {π : Type} (i : Stage) (block : UnsortedPacketBlock π) : Job π :=
  match i with
  | .read => ⟨block, .waiting⟩
  | .process => ⟨block, .processing 0⟩
  | .writeMstcp | .writeAdapter => ⟨block, .sending⟩

def finishJob {π : Type} (job : Job π) : Option (UnsortedPacketBlock π) :=
  match job.phase with
  | .done => some job.block
  | .processing i => if i < job.block.packetsSuccess then none else some job.block
  | _ => none

/-- The reader alone takes a block that is there without a look at the state. -/
def threads (π : Type) : Plan Stage (UnsortedPacketBlock π) (Job π) where
  next := Stage.next
  eager i := i == .read
  start := startJob
  finish _ := finishJob

inductive FilterState
  | stopped
  | running
  | stopping
  deriving DecidableEq

/-- Where `release_filter` stands, with the queues still to notify and the threads still to join. -/
inductive Release
  | idle
  | signal
  | notify (rest : List Stage)
  | join (rest : List Stage)
  deriving DecidableEq

/-- What happens to the state of the handlers: a call with a packet, or a change from outside. -/
inductive Turn (ε π : Type)
  | call (p : IntermediateBuffer π)
  | event (e : ε)

structure PacketFilter (ρ ε π : Type) where
  filterState : FilterState
  line : Line Stage (UnsortedPacketBlock π) (Job π)
  packetEvent : Bool
  release : Release
  router : ρ
  origin : ρ
  delivered : List (IntermediateBuffer π)
  toMstcp : List (IntermediateBuffer π)
  toAdapter : List (IntermediateBuffer π)
  trace : List (Turn ε π)

/-- What `ReadPacketsUnsorted` leaves behind; after a failure that is anything. -/
inductive ReadOutcome (π : Type)
  | success (packets : List (IntermediateBuffer π))
  | failure (packetsNum : ℕ) (packetBuffer : ℕ → IntermediateBuffer π)

inductive Label (ε π : Type)
  | startFilter (allocated : Bool)
  | stopFilter
  | releaseFilter
  | advance (i : Stage)
  | work (i : Stage)
  | readPacketsUnsorted (outcome : ReadOutcome π)
  | signalEvent
  | spurious (i : Stage)
  | change (e : ε)

section Step

variable {ρ ε π : Type} (setup : Setup ρ ε π)

def PacketFilter.isRunning (s : PacketFilter ρ ε π) : Bool := s.filterState == .running

def newBlock (address : ℕ) : UnsortedPacketBlock π := ⟨address, 0, setup.uninitialized, [], [], false⟩

def newBlocks : List (UnsortedPacketBlock π) := (List.range maximumBlockNum).map (newBlock setup)

def fill (block : UnsortedPacketBlock π) : ReadOutcome π → UnsortedPacketBlock π
  | .success packets => { block with
      packetsSuccess := packets.length
      packetBuffer := fun j => packets[j]?.getD (block.packetBuffer j)
      fresh := true }
  | .failure packetsNum packetBuffer => { block with packetsSuccess := packetsNum, packetBuffer, fresh := false }

/-- The driver takes and reports no more packets than the block has buffers. -/
def ReadOutcome.fits : ReadOutcome π → Bool
  | .success packets => packets.length ≤ maximumPacketBlock
  | .failure packetsNum _ => packetsNum ≤ maximumPacketBlock

def ReadOutcome.packets : ReadOutcome π → List (IntermediateBuffer π)
  | .success packets => packets
  | .failure _ _ => []

def requested (block : UnsortedPacketBlock π) (request : List ℕ) : List (IntermediateBuffer π) :=
  request.map block.packetBuffer

def PacketFilter.hold (s : PacketFilter ρ ε π) (i : Stage) (job : Job π) : PacketFilter ρ ε π :=
  { s with line := s.line.goto i (.holding job) }

/-- A thread's own work on the block it owns; `none` where it waits or has nothing left to do. -/
def workStep (s : PacketFilter ρ ε π) (i : Stage) (job : Job π) : Option (PacketFilter ρ ε π) :=
  match i, job.phase with
  | .read, .waiting => if s.packetEvent then some (s.hold i ⟨job.block, .resetting⟩) else none
  | .read, .resetting => some ({ s with packetEvent := false }.hold i ⟨job.block, .reading⟩)
  | .read, .failed => some (s.hold i ⟨job.block, if s.isRunning then .waiting else .done⟩)
  | .process, .processing n =>
    if n < job.block.packetsSuccess then
      let result := processPacket setup s.router job.block n
      some ({ s with router := result.2, trace := s.trace ++ [Turn.call (job.block.packetBuffer n)] }.hold i
        ⟨result.1, .processing (n + 1)⟩)
    else none
  | .writeMstcp, .sending =>
    some ({ s with toMstcp := s.toMstcp ++ requested job.block job.block.writeMstcpRequest }.hold i
      ⟨{ job.block with writeMstcpRequest := [] }, .done⟩)
  | .writeAdapter, .sending =>
    some ({ s with toAdapter := s.toAdapter ++ requested job.block job.block.writeAdapterRequest }.hold i
      ⟨{ job.block with writeAdapterRequest := [] }, .done⟩)
  | _, _ => none

def started (s : PacketFilter ρ ε π) : PacketFilter ρ ε π :=
  { s with
    filterState := .running
    line := ⟨Function.update s.line.queue .read (s.line.queue .read ++ newBlocks setup), fun _ => .looping⟩
    origin := s.router
    delivered := []
    toMstcp := []
    toAdapter := []
    trace := [] }

def releaseStep (s : PacketFilter ρ ε π) : Option (PacketFilter ρ ε π) :=
  match s.release with
  | .idle => none
  | .signal => some { s with packetEvent := true, release := .notify stages }
  | .notify (i :: rest) => some { s with line := s.line.notify i, release := .notify rest }
  | .notify [] => some { s with release := .join stages }
  | .join (i :: rest) =>
    match s.line.place i with
    | .exited => some { s with release := .join rest }
    | _ => none
  | .join [] => some { s with
      line := { s.line with queue := fun _ => [] }, release := .idle, filterState := .stopped }

def step (s : PacketFilter ρ ε π) : Label ε π → Option (PacketFilter ρ ε π)
  | .startFilter allocated =>
    if s.filterState = .stopped then
      some (if allocated then started setup s
        else { s with line := { s.line with queue := Function.update s.line.queue .read [] } })
    else none
  | .stopFilter =>
    if s.filterState = .running then some { s with filterState := .stopping, release := .signal }
    else none
  | .releaseFilter => releaseStep s
  | .advance i => (advance (threads π) s.isRunning s.line i).map fun line => { s with line }
  | .work i => (s.line.place i).job.bind (workStep setup s i)
  | .readPacketsUnsorted outcome =>
    match s.line.place .read with
    | .holding ⟨block, .reading⟩ =>
      if outcome.fits then
        some ({ s with delivered := s.delivered ++ outcome.packets }.hold .read
          ⟨fill block outcome, match outcome with
            | .success _ => .done
            | .failure _ _ => .failed⟩)
      else none
    | _ => none
  | .signalEvent => some { s with packetEvent := true }
  | .spurious i => some { s with line := s.line.notify i }
  | .change e => some { s with router := setup.change s.router e, trace := s.trace ++ [Turn.event e] }

/-- Before the first `start_filter`. -/
def initial (r : ρ) : PacketFilter ρ ε π where
  filterState := .stopped
  line := ⟨fun _ => [], fun _ => .exited⟩
  packetEvent := false
  release := .idle
  router := r
  origin := r
  delivered := []
  toMstcp := []
  toAdapter := []
  trace := []

end Step

/-! ### What the filter is for -/

section Sequential

variable {ρ ε π : Type} (setup : Setup ρ ε π)

def sequential : ρ → List (Turn ε π) → ρ × List (Way × IntermediateBuffer π)
  | r, [] => (r, [])
  | r, .event e :: turns => sequential (setup.change r e) turns
  | r, .call p :: turns =>
    let result := filterPacket setup r p
    let rest := sequential result.2.2 turns
    (rest.1, (wayOf result.2.1 result.1).toList.map (fun way => (way, result.2.1)) ++ rest.2)

def calls : List (Turn ε π) → List (IntermediateBuffer π)
  | [] => []
  | .event _ :: turns => calls turns
  | .call p :: turns => p :: calls turns

def goes (way : Way) (outputs : List (Way × IntermediateBuffer π)) : List (IntermediateBuffer π) :=
  (outputs.filter fun output => output.1 = way).map Prod.snd

end Sequential

end ProxySwitch.PacketQueues
